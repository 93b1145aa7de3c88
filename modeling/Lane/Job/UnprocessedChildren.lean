import Lane.Job.Management
import Lane.Library.PostOrder

/-! The collection of unprocessed children as a depth-first visit: the jobs it explores are the
retained ones that are neither active nor finished.
-/

namespace Lane

open PostOrder

/-- A retained job that is neither active nor finished. -/
def JobMap.Removable (jobs : JobMap) (id : JobId) : Prop :=
  ∃ job, jobs.get id = some job ∧ job.state ≠ .active ∧ job.state.isTerminal = false

/-- The children that the collection looks at below a job, if it takes the job. -/
def JobMap.removableLinks (jobs : JobMap) (id : JobId) : Option (List JobId) :=
  match jobs.get id with
  | none => none
  | some job =>
      if job.state = .active ∨ job.state.isTerminal then none else some job.childIds

/-- A removable job lists the other one among its children. -/
def JobMap.RemovableParent (jobs : JobMap) (id childId : JobId) : Prop :=
  ∃ job, jobs.get id = some job ∧ job.state ≠ .active ∧ job.state.isTerminal = false
    ∧ childId ∈ job.childIds

variable {jobs : JobMap} {id childId : JobId}

theorem JobMap.removableLinks_eq_some {childIds : List JobId}
    : jobs.removableLinks id = some childIds
      ↔ ∃ job, jobs.get id = some job ∧ job.state ≠ .active ∧ job.state.isTerminal = false
          ∧ job.childIds = childIds := by
  unfold removableLinks
  cases found : jobs.get id with
  | none => simp
  | some job =>
      by_cases taken : job.state = .active ∨ job.state.isTerminal = true
      · simp only [if_pos taken]
        constructor
        · intro absurd
          cases absurd
        · intro free
          obtain ⟨_, same, notActive, notFinished, _⟩ := free
          obtain rfl := Option.some.inj same
          rcases taken with active | finished
          · exact absurd active notActive
          · rw [finished] at notFinished
            cases notFinished
      · simp only [if_neg taken]
        simp only [not_or, Bool.not_eq_true] at taken
        simp [taken]

theorem JobMap.removable_iff
    : jobs.Removable id ↔ ∃ childIds, jobs.removableLinks id = some childIds := by
  simp only [removableLinks_eq_some]
  constructor
  · intro removable
    obtain ⟨job, found, free⟩ := removable
    exact ⟨job.childIds, job, found, free.1, free.2, rfl⟩
  · intro removable
    obtain ⟨_, job, found, notActive, notFinished, _⟩ := removable
    exact ⟨job, found, notActive, notFinished⟩

theorem JobMap.leads_removableLinks
    : Leads jobs.removableLinks id childId ↔ jobs.RemovableParent id childId := by
  simp only [Leads, removableLinks_eq_some]
  constructor
  · intro leads
    obtain ⟨_, ⟨job, found, notActive, notFinished, rfl⟩, member⟩ := leads
    exact ⟨job, found, notActive, notFinished, member⟩
  · intro parent
    obtain ⟨job, found, notActive, notFinished, member⟩ := parent
    exact ⟨job.childIds, ⟨job, found, notActive, notFinished, rfl⟩, member⟩

theorem JobMap.leads_eq_removableParent
    : Leads jobs.removableLinks = jobs.RemovableParent := by
  funext id childId
  exact propext leads_removableLinks

/-- The collection is the visit of these links, because every record is stored under its id. -/
theorem collectRemovableUnprocessedChildren_eq_visit (jobs : JobMap) (fuel : Nat)
    (childIds : List JobId) (collected : List JobId × Finset JobId)
    : collectRemovableUnprocessedChildren jobs fuel childIds collected
      = visit jobs.removableLinks fuel childIds collected := by
  induction fuel generalizing childIds collected with
  | zero => rfl
  | succ fuel ih =>
      unfold collectRemovableUnprocessedChildren visit
      congr 1
      funext collected childId
      obtain ⟨out, seen⟩ := collected
      simp only [JobMap.removableLinks]
      by_cases met : childId ∈ seen
      · simp only [if_pos met]
      · simp only [if_neg met]
        cases found : jobs.get childId with
        | none => rfl
        | some child =>
            simp only
            by_cases taken : child.state = .active ∨ child.state.isTerminal = true
            · simp only [if_pos taken]
            · simp only [if_neg taken, ih, JobMap.get_id found]

/-- A depth above the number of retained jobs is enough for the whole collection. -/
theorem visits_collectRemovableUnprocessedChildren {fuel : Nat}
    (enough : jobs.values.length < fuel) (childIds : List JobId)
    (collected : List JobId × Finset JobId)
    : Visits jobs.removableLinks childIds collected
        (collectRemovableUnprocessedChildren jobs fuel childIds collected) := by
  rw [collectRemovableUnprocessedChildren_eq_visit]
  have retained : ∀ id childIds, jobs.removableLinks id = some childIds →
      id ∈ (jobs.values.map Job.id).toFinset := by
    intro id childIds links
    obtain ⟨job, found, _⟩ := JobMap.removableLinks_eq_some.mp links
    simp only [List.mem_toFinset, List.mem_map]
    exact ⟨job, JobMap.mem_values_of_get found, JobMap.get_id found⟩
  refine visits_visit retained fuel childIds collected ?_
  have bound := List.toFinset_card_le (jobs.values.map Job.id)
  rw [List.length_map] at bound
  have fewer := Finset.card_le_card
    (Finset.sdiff_subset (s := (jobs.values.map Job.id).toFinset) (t := collected.2))
  omega

theorem visits_removableUnprocessedChildren (jobs : JobMap) (childIds : List JobId)
    : ∃ seen,
        Visits jobs.removableLinks childIds ([], ∅)
          (removableUnprocessedChildren jobs childIds, seen) :=
  ⟨_, visits_collectRemovableUnprocessedChildren (Nat.lt_succ_self _) childIds ([], ∅)⟩

end Lane
