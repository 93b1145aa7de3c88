import Lane.Job.UnprocessedChildren

/-! The recursive collection of unprocessed children ends on every job table, takes exactly
the removable jobs below the given ones, and takes each after those below it.
-/

namespace Lane

open PostOrder Relation

/-- A job that one of the given ids leads to through removable jobs. -/
def JobMap.RemovablyReached (jobs : JobMap) (roots : List JobId) (id : JobId) : Prop :=
  ∃ root ∈ roots, ReflTransGen jobs.RemovableParent root id

/-- For every job table, with shared, missing or cyclic child links, and all root ids:
- from whatever was collected so far the recursion ends, in a finished visit that every depth
  above the number of retained jobs gives,
- no id is collected twice,
- the collected ids are those of the removable jobs reached through removable jobs,
- when no cycle is reached, a job comes after all removable jobs below it.
-/
theorem collectRemovableUnprocessedChildren_exact (jobs : JobMap) (roots : List JobId)
    : (∀ childIds collected, ∃ final,
        Visits jobs.removableLinks childIds collected final
        ∧ ∀ fuel, jobs.values.length < fuel →
            collectRemovableUnprocessedChildren jobs fuel childIds collected = final)
      ∧ (removableUnprocessedChildren jobs roots).Nodup
      ∧ (∀ id,
          id ∈ removableUnprocessedChildren jobs roots
          ↔ jobs.RemovablyReached roots id ∧ jobs.Removable id)
      ∧ ((∀ id, jobs.RemovablyReached roots id → ¬ TransGen jobs.RemovableParent id id) →
          ∀ id ∈ removableUnprocessedChildren jobs roots, ∀ below,
            TransGen jobs.RemovableParent id below → jobs.Removable below →
              Before (removableUnprocessedChildren jobs roots) below id) := by
  obtain ⟨seen, visits⟩ := visits_removableUnprocessedChildren jobs roots
  refine ⟨?_, visits.nodup, ?_, ?_⟩
  · intro childIds collected
    have finished := visits_collectRemovableUnprocessedChildren
      (Nat.lt_succ_self jobs.values.length) childIds collected
    refine ⟨_, finished, ?_⟩
    intro fuel enough
    exact (visits_collectRemovableUnprocessedChildren enough childIds collected).deterministic
      finished
  · intro id
    rw [visits.mem_iff id, JobMap.removable_iff, JobMap.RemovablyReached, Reached,
      JobMap.leads_eq_removableParent]
  · intro acyclic id member below path removable
    refine visits.ordered ?_ member ?_ (JobMap.removable_iff.mp removable)
    · rw [JobMap.leads_eq_removableParent]
      intro other reached
      exact acyclic other (by rwa [Reached, JobMap.leads_eq_removableParent] at reached)
    · rwa [JobMap.leads_eq_removableParent]

end Lane
