import Lane.Contract.RetentionAgreement
import Lane.Redis.Server

/-! The place of a job: what its record says about where it belongs, and the sorted sets that list
it. In order, every record is listed in the set of its state and in no other one.
-/

namespace Lane

-----------------------------------------------------------------------------------------
-- Places
-----------------------------------------------------------------------------------------

/-- What a record says about its place; `turn` is the score and the sequence number of a job that
waits.
-/
structure JobTag where
  id : JobId
  state : JobState
  turn : Option (Int × Nat)

/-- The tag of a record. -/
def Job.tag (job : Job) : JobTag :=
  { id := job.id
    state := job.state
    turn := if job.state = .waiting then some (waitingScore job, job.enqueuedSeq) else none }

@[simp] theorem Job.tag_id (job : Job) : job.tag.id = job.id := rfl

@[simp] theorem Job.tag_state (job : Job) : job.tag.state = job.state := rfl

theorem Job.tag_idle {job : Job} (busy : job.state ≠ .waiting) : job.tag.turn = none := if_neg busy

theorem Job.tag_turn (job : Job) (waits : job.state = .waiting)
    : job.tag.turn = some (waitingScore job, job.enqueuedSeq) :=
  if_pos waits

/-- The state whose jobs a terminal set lists. -/
def Finish.state : Finish → JobState
  | .completed => .completed
  | .failed => .failed

/-- A job's tag and the sets that list it. -/
structure Placement where
  tag : Option JobTag
  waiting : Option Int
  active : Bool
  delayed : Bool
  waitingChildren : Bool
  finished : Finish → Bool

namespace Placement

/-- The record is in the state. -/
def holds (place : Placement) (state : JobState) : Bool := place.tag.any (fun tag => tag.state == state)

/-- The sets that list the job are those of its record. A job that waits for children may have left
their set.
-/
structure Fits (place : Placement) (id : JobId) : Prop where
  named : ∀ tag, place.tag = some tag → tag.id = id
  idle : ∀ tag, place.tag = some tag → tag.state ≠ .waiting → tag.turn = none
  waiting : place.waiting = place.tag.bind (fun tag => tag.turn.map Prod.fst)
  active : place.active = place.holds .active
  delayed : place.delayed = place.holds .delayed
  finished : ∀ finish, place.finished finish = place.holds finish.state
  waitingChildren : place.waitingChildren = true → place.holds .waitingChildren = true

/-- No set lists the job. -/
structure Unlisted (place : Placement) : Prop where
  waiting : place.waiting = none
  active : place.active = false
  delayed : place.delayed = false
  waitingChildren : place.waitingChildren = false
  finished : ∀ finish, place.finished finish = false

variable {place : Placement} {id : JobId} {state : JobState}

/-- Without a record nothing is listed. -/
theorem Fits.unlisted (fits : place.Fits id) (gone : place.tag = none) : place.Unlisted where
  waiting := by rw [fits.waiting, gone]; rfl
  active := by rw [fits.active, holds, gone]; rfl
  delayed := by rw [fits.delayed, holds, gone]; rfl
  waitingChildren := by
    cases listed : place.waitingChildren with
    | false => rfl
    | true =>
        have held := fits.waitingChildren listed
        rw [holds, gone] at held
        cases held
  finished finish := by rw [fits.finished, holds, gone]; rfl

/-- Without a record and a listing everything fits. -/
theorem Unlisted.fits (unlisted : place.Unlisted) (gone : place.tag = none) : place.Fits id where
  named tag known := by rw [gone] at known; cases known
  idle tag known := by rw [gone] at known; cases known
  waiting := by rw [unlisted.waiting, gone]; rfl
  active := by rw [unlisted.active, holds, gone]; rfl
  delayed := by rw [unlisted.delayed, holds, gone]; rfl
  finished finish := by rw [unlisted.finished, holds, gone]; rfl
  waitingChildren listed := by
    rw [unlisted.waitingChildren] at listed
    cases listed

/-- A record is in one state. -/
theorem holds_eq (held : place.holds state = true) {other : JobState}
    : place.holds other = (state == other) := by
  unfold holds at held ⊢
  cases known : place.tag with
  | none => rw [known] at held; cases held
  | some tag =>
      rw [known] at held
      have same : tag.state = state := by simpa using held
      simp [same]

-- A record leaves the set of its state, or enters it from no set.

variable {tag : JobTag}

theorem Fits.waiting_eq_none (fits : place.Fits id) (held : place.holds state = true)
    (busy : state ≠ .waiting)
    : place.waiting = none := by
  rw [fits.waiting]
  unfold holds at held
  cases known : place.tag with
  | none => rfl
  | some tag =>
      rw [known] at held
      have same : tag.state = state := by simpa using held
      simp [fits.idle tag known (same ▸ busy)]

theorem Fits.active_eq_false (fits : place.Fits id) (held : place.holds state = true)
    (other : state ≠ .active)
    : place.active = false := by
  rw [fits.active, holds_eq held]
  simpa using other

theorem Fits.delayed_eq_false (fits : place.Fits id) (held : place.holds state = true)
    (other : state ≠ .delayed)
    : place.delayed = false := by
  rw [fits.delayed, holds_eq held]
  simpa using other

theorem Fits.finished_eq_false (fits : place.Fits id) (held : place.holds state = true)
    (finish : Finish) (other : state ≠ finish.state)
    : place.finished finish = false := by
  rw [fits.finished, holds_eq held]
  simpa using other

theorem Fits.waitingChildren_eq_false (fits : place.Fits id) (held : place.holds state = true)
    (other : state ≠ .waitingChildren)
    : place.waitingChildren = false := by
  cases listed : place.waitingChildren with
  | false => rfl
  | true =>
      have both := fits.waitingChildren listed
      rw [holds_eq held] at both
      exact absurd (by simpa using both) other

theorem Fits.stopsWaiting (fits : place.Fits id) (held : place.holds .waiting = true)
    : Unlisted { place with waiting := none } where
  waiting := rfl
  active := fits.active_eq_false held (by decide)
  delayed := fits.delayed_eq_false held (by decide)
  waitingChildren := fits.waitingChildren_eq_false held (by decide)
  finished finish := fits.finished_eq_false held finish (by cases finish <;> decide)

theorem Fits.stopsRunning (fits : place.Fits id) (held : place.holds .active = true)
    : Unlisted { place with active := false } where
  waiting := fits.waiting_eq_none held (by decide)
  active := rfl
  delayed := fits.delayed_eq_false held (by decide)
  waitingChildren := fits.waitingChildren_eq_false held (by decide)
  finished finish := fits.finished_eq_false held finish (by cases finish <;> decide)

theorem Fits.stopsDelay (fits : place.Fits id) (held : place.holds .delayed = true)
    : Unlisted { place with delayed := false } where
  waiting := fits.waiting_eq_none held (by decide)
  active := fits.active_eq_false held (by decide)
  delayed := rfl
  waitingChildren := fits.waitingChildren_eq_false held (by decide)
  finished finish := fits.finished_eq_false held finish (by cases finish <;> decide)

theorem Fits.leavesChildren (fits : place.Fits id) (held : place.holds .waitingChildren = true)
    : Unlisted { place with waitingChildren := false } where
  waiting := fits.waiting_eq_none held (by decide)
  active := fits.active_eq_false held (by decide)
  delayed := fits.delayed_eq_false held (by decide)
  waitingChildren := rfl
  finished finish := fits.finished_eq_false held finish (by cases finish <;> decide)

theorem Unlisted.waits (unlisted : place.Unlisted) (named : tag.id = id)
    (state : tag.state = .waiting)
    : Placement.Fits { place with tag := some tag, waiting := tag.turn.map Prod.fst } id where
  named known same := by
    cases same
    exact named
  idle known same busy := by
    cases same
    exact absurd state busy
  waiting := rfl
  active := by simp [holds, unlisted.active, state]
  delayed := by simp [holds, unlisted.delayed, state]
  finished finish := by cases finish <;> simp [holds, unlisted.finished, state, Finish.state]
  waitingChildren listed := by
    rw [unlisted.waitingChildren] at listed
    cases listed

theorem Unlisted.runs (unlisted : place.Unlisted) (named : tag.id = id) (state : tag.state = .active)
    (idle : tag.turn = none)
    : Placement.Fits { place with tag := some tag, active := true } id where
  named known same := by
    cases same
    exact named
  idle known same _ := by
    cases same
    exact idle
  waiting := by simp [unlisted.waiting, idle]
  active := by simp [holds, state]
  delayed := by simp [holds, unlisted.delayed, state]
  finished finish := by cases finish <;> simp [holds, unlisted.finished, state, Finish.state]
  waitingChildren listed := by
    rw [unlisted.waitingChildren] at listed
    cases listed

theorem Unlisted.isDelayed (unlisted : place.Unlisted) (named : tag.id = id)
    (state : tag.state = .delayed) (idle : tag.turn = none)
    : Placement.Fits { place with tag := some tag, delayed := true } id where
  named known same := by
    cases same
    exact named
  idle known same _ := by
    cases same
    exact idle
  waiting := by simp [unlisted.waiting, idle]
  active := by simp [holds, unlisted.active, state]
  delayed := by simp [holds, state]
  finished finish := by cases finish <;> simp [holds, unlisted.finished, state, Finish.state]
  waitingChildren listed := by
    rw [unlisted.waitingChildren] at listed
    cases listed

theorem Unlisted.waitsForChildren (unlisted : place.Unlisted) (named : tag.id = id)
    (state : tag.state = .waitingChildren) (idle : tag.turn = none)
    : Placement.Fits { place with tag := some tag, waitingChildren := true } id where
  named known same := by
    cases same
    exact named
  idle known same _ := by
    cases same
    exact idle
  waiting := by simp [unlisted.waiting, idle]
  active := by simp [holds, unlisted.active, state]
  delayed := by simp [holds, unlisted.delayed, state]
  finished finish := by cases finish <;> simp [holds, unlisted.finished, state, Finish.state]
  waitingChildren _ := by simp [holds, state]

theorem Unlisted.finishes (unlisted : place.Unlisted) (finish : Finish) (named : tag.id = id)
    (state : tag.state = finish.state) (idle : tag.turn = none)
    : Placement.Fits { place with tag := some tag, finished := fun other => other == finish } id where
  named known same := by
    cases same
    exact named
  idle known same _ := by
    cases same
    exact idle
  waiting := by simp [unlisted.waiting, idle]
  active := by cases finish <;> simp [holds, unlisted.active, state, Finish.state]
  delayed := by cases finish <;> simp [holds, unlisted.delayed, state, Finish.state]
  finished other := by cases finish <;> cases other <;> simp [holds, state, Finish.state]
  waitingChildren listed := by
    rw [unlisted.waitingChildren] at listed
    cases listed

end Placement

-----------------------------------------------------------------------------------------
-- Keyspaces
-----------------------------------------------------------------------------------------

namespace Keyspace

open Redis

variable {keys middle after : Keyspace} {job : Job} {jobId id : JobId} {loose loose' : Set JobId}

/-- The place of a job. -/
def place (keys : Keyspace) (id : JobId) : Placement :=
  { tag := (keys.jobs id).map Job.tag
    waiting := keys.waiting.lookup id
    active := (keys.active.lookup id).isSome
    delayed := (keys.delayed.lookup id).isSome
    waitingChildren := (keys.waitingChildren.lookup id).isSome
    finished := fun finish => ((keys.finished finish).lookup id).isSome }

theorem place_tag (found : keys.jobs id = some job) : (keys.place id).tag = some job.tag := by
  simp [place, found]

theorem place_holds (found : keys.jobs id = some job) : (keys.place id).holds job.state = true := by
  simp [Placement.holds, place_tag found]

/-- The job waits and drew the sequence number. -/
def Drew (keys : Keyspace) (id : JobId) (drawn : Nat) : Prop :=
  ∃ tag score, (keys.place id).tag = some tag ∧ tag.turn = some (score, drawn)

/-- Stored flows have distinct ids, none of them twice. -/
def FlowsDistinct (keys : Keyspace) : Prop :=
  ∀ id parent children,
    keys.deduplicationNext id = some (.flow (some parent) children)
    → (parent.id :: children.map Job.id).Nodup

/-- Every job is in its place, but for those whose records are in a script's hands: no set lists
them. Locks and the stalled set are about active jobs.
-/
structure Filed (loose : Set JobId) (keys : Keyspace) : Prop where
  fits : ∀ id, id ∉ loose → (keys.place id).Fits id
  unlisted : ∀ id, id ∈ loose → (keys.place id).Unlisted
  drawn : ∀ id drawn, id ∉ loose → keys.Drew id drawn → drawn ≤ keys.sequence
  apart
    : ∀ id other drawn,
        id ∉ loose → other ∉ loose → keys.Drew id drawn → keys.Drew other drawn
        → id = other ∨ drawn = 0
  locked : ∀ id, keys.locks id ≠ none → (keys.place id).active = true
  stalled : ∀ id, id ∈ keys.stalled → (keys.place id).active = true
  flows : keys.FlowsDistinct

/-- Every job is in its place. -/
abbrev InOrder (keys : Keyspace) : Prop := keys.Filed ∅

/-- A new queue is in order. -/
theorem inOrder_empty : InOrder {} := by
  have gone : ∀ id, (place {} id).tag = none := fun _ => rfl
  have unlisted : ∀ id, (place {} id).Unlisted := fun _ => ⟨rfl, rfl, rfl, rfl, fun _ => rfl⟩
  have undrawn : ∀ id drawn, ¬ Drew {} id drawn := by
    rintro id drawn ⟨tag, score, known, _⟩
    cases known
  refine ⟨fun id _ => (unlisted id).fits (gone id), fun id _ => unlisted id, ?_, ?_, ?_, ?_, ?_⟩
  · intro id drawn _ drew
    exact absurd drew (undrawn id drawn)
  · intro id other drawn _ _ drew _
    exact absurd drew (undrawn id drawn)
  · intro id locked
    exact absurd rfl locked
  · intro id listed
    exact absurd listed (Finset.notMem_empty id)
  · intro id parent children stored
    cases stored

theorem Filed.named (filed : keys.Filed loose) (settled : id ∉ loose)
    (found : keys.jobs id = some job)
    : job.id = id :=
  (filed.fits id settled).named job.tag (place_tag found)

/-- A set lists no record of another state. -/
theorem Filed.waiting_absent (filed : keys.Filed loose) (settled : id ∉ loose)
    (other : ∀ job, keys.jobs id = some job → job.state ≠ .waiting)
    : keys.waiting.lookup id = none := by
  cases found : keys.jobs id with
  | none => exact ((filed.fits id settled).unlisted (by simp [place, found])).waiting
  | some job => exact (filed.fits id settled).waiting_eq_none (place_holds found) (other job found)

theorem Filed.active_absent (filed : keys.Filed loose) (settled : id ∉ loose)
    (other : ∀ job, keys.jobs id = some job → job.state ≠ .active)
    : keys.active.lookup id = none := by
  refine Option.isSome_eq_false_iff.mp ?_ |> Option.isNone_iff_eq_none.mp
  cases found : keys.jobs id with
  | none => exact ((filed.fits id settled).unlisted (by simp [place, found])).active
  | some job => exact (filed.fits id settled).active_eq_false (place_holds found) (other job found)

theorem Filed.delayed_absent (filed : keys.Filed loose) (settled : id ∉ loose)
    (other : ∀ job, keys.jobs id = some job → job.state ≠ .delayed)
    : keys.delayed.lookup id = none := by
  refine Option.isSome_eq_false_iff.mp ?_ |> Option.isNone_iff_eq_none.mp
  cases found : keys.jobs id with
  | none => exact ((filed.fits id settled).unlisted (by simp [place, found])).delayed
  | some job => exact (filed.fits id settled).delayed_eq_false (place_holds found) (other job found)

-----------------------------------------------------------------------------------------
-- Steady writes
-----------------------------------------------------------------------------------------

/-- No lease changes, and no flow is stored. -/
structure Steady (before after : Keyspace) : Prop where
  active : after.active = before.active
  locks : after.locks = before.locks
  stalled : after.stalled = before.stalled
  flows
    : ∀ id parent children,
        after.deduplicationNext id = some (.flow parent children)
        → before.deduplicationNext id = some (.flow parent children)

theorem Steady.of_eq (active : after.active = keys.active) (locks : after.locks = keys.locks)
    (stalled : after.stalled = keys.stalled)
    (next : after.deduplicationNext = keys.deduplicationNext)
    : Steady keys after :=
  ⟨active, locks, stalled, fun _ _ _ stored => by rwa [next] at stored⟩

theorem Steady.refl (keys : Keyspace) : Steady keys keys :=
  ⟨rfl, rfl, rfl, fun _ _ _ stored => stored⟩

theorem Steady.trans (first : Steady keys middle) (second : Steady middle after)
    : Steady keys after where
  active := second.active.trans first.active
  locks := second.locks.trans first.locks
  stalled := second.stalled.trans first.stalled
  flows id parent children stored :=
    first.flows id parent children (second.flows id parent children stored)

theorem FlowsDistinct.steady (flows : keys.FlowsDistinct) (steady : Steady keys after)
    : after.FlowsDistinct :=
  fun id parent children stored => flows id parent children (steady.flows id _ children stored)

theorem Steady.place_active (steady : Steady keys after) (id : JobId)
    : (after.place id).active = (keys.place id).active := by
  simp only [Keyspace.place, steady.active]

theorem Filed.steady_locked (filed : keys.Filed loose) (steady : Steady keys after)
    : ∀ id, after.locks id ≠ none → (after.place id).active = true := by
  intro id held
  rw [steady.locks] at held
  rw [steady.place_active]
  exact filed.locked id held

theorem Filed.steady_stalled (filed : keys.Filed loose) (steady : Steady keys after)
    : ∀ id, id ∈ after.stalled → (after.place id).active = true := by
  intro id listed
  rw [steady.stalled] at listed
  rw [steady.place_active]
  exact filed.stalled id listed

/-- A steady course of a script that leaves the jobs filed. -/
structure Files (loose : Set JobId) (before after : Keyspace) : Prop where
  filed : after.Filed loose
  steady : Steady before after

theorem Files.refl (filed : keys.Filed loose) : Files loose keys keys := ⟨filed, .refl keys⟩

theorem Files.trans (first : Files loose' keys middle) (second : Files loose middle after)
    : Files loose keys after :=
  ⟨second.filed, first.steady.trans second.steady⟩

-----------------------------------------------------------------------------------------
-- Writes aside
-----------------------------------------------------------------------------------------

/-- No job moves: the writes are about other keys, or about fields that are not part of a tag. -/
structure Aside (before after : Keyspace) : Prop where
  place : ∀ id, after.place id = before.place id
  sequence : after.sequence = before.sequence
  steady : Steady before after

theorem Aside.refl (keys : Keyspace) : Aside keys keys := ⟨fun _ => rfl, rfl, .refl keys⟩

theorem Aside.trans (first : Aside keys middle) (second : Aside middle after)
    : Aside keys after where
  place id := (second.place id).trans (first.place id)
  sequence := second.sequence.trans first.sequence
  steady := first.steady.trans second.steady

/-- A record that keeps its tag stays in place. -/
theorem Aside.setJob {old : Job} (found : keys.jobs jobId = some old) (same : job.tag = old.tag)
    : Aside keys (keys.setJob jobId job) where
  place id := by
    by_cases own : id = jobId
    · rw [own]
      simp [Keyspace.place, Keyspace.setJob, found, same]
    · simp [Keyspace.place, Keyspace.setJob, own]
  sequence := rfl
  steady := ⟨rfl, rfl, rfl, fun _ _ _ stored => stored⟩

theorem Drew.of_place {drawn : Nat} (drew : after.Drew id drawn)
    (same : after.place id = keys.place id)
    : keys.Drew id drawn := by
  unfold Drew at drew ⊢
  rwa [same] at drew

/-- Where no job moves, everything stays filed. -/
theorem Filed.stays (filed : keys.Filed loose) (place : ∀ id, after.place id = keys.place id)
    (sequence : after.sequence = keys.sequence)
    (locked : ∀ id, after.locks id ≠ none → (keys.place id).active = true)
    (stalled : ∀ id, id ∈ after.stalled → (keys.place id).active = true)
    (flows : after.FlowsDistinct)
    : after.Filed loose where
  fits id settled := by
    rw [place]
    exact filed.fits id settled
  unlisted id own := by
    rw [place]
    exact filed.unlisted id own
  drawn id drawn settled drew := by
    rw [sequence]
    exact filed.drawn id drawn settled (drew.of_place (place id))
  apart id other drawn first second drew otherDrew :=
    filed.apart id other drawn first second (drew.of_place (place id))
      (otherDrew.of_place (place other))
  locked id held := by
    rw [place]
    exact locked id held
  stalled id listed := by
    rw [place]
    exact stalled id listed
  flows := flows

theorem Filed.aside (filed : keys.Filed loose) (aside : Aside keys after)
    : Files loose keys after where
  filed := by
    refine filed.stays aside.place aside.sequence ?_ ?_ (filed.flows.steady aside.steady)
    · intro id held
      rw [aside.steady.locks] at held
      exact filed.locked id held
    · intro id listed
      rw [aside.steady.stalled] at listed
      exact filed.stalled id listed
  steady := aside.steady

-----------------------------------------------------------------------------------------
-- One job moves
-----------------------------------------------------------------------------------------

/-- Only the place of the job may change. -/
def OnlyMoves (jobId : JobId) (before after : Keyspace) : Prop :=
  ∀ id, id ≠ jobId → after.place id = before.place id

/-- A job moves: it ends loose, or in a place that it fits with no old sequence number. -/
theorem Filed.moves (filed : keys.Filed loose) (only : OnlyMoves jobId keys after)
    (others : ∀ id, id ≠ jobId → (id ∈ loose' ↔ id ∈ loose))
    (unlisted : jobId ∈ loose' → (after.place jobId).Unlisted)
    (fits
      : jobId ∉ loose'
        → (after.place jobId).Fits jobId
          ∧ ∀ drawn,
              after.Drew jobId drawn
              → drawn = 0 ∨ keys.sequence < drawn ∧ drawn ≤ after.sequence)
    (sequence : keys.sequence ≤ after.sequence)
    (locked : ∀ id, after.locks id ≠ none → (after.place id).active = true)
    (stalled : ∀ id, id ∈ after.stalled → (after.place id).active = true)
    (flows : after.FlowsDistinct)
    : after.Filed loose' := by
  have settledBefore : ∀ id, id ≠ jobId → id ∉ loose' → id ∉ loose :=
    fun id own settled held => settled ((others id own).mpr held)
  have old : ∀ id drawn, id ≠ jobId → id ∉ loose' → after.Drew id drawn → drawn ≤ keys.sequence :=
    fun id drawn own settled drew =>
      filed.drawn id drawn (settledBefore id own settled) (drew.of_place (only id own))
  refine ⟨?_, ?_, ?_, ?_, locked, stalled, flows⟩
  · intro id settled
    by_cases own : id = jobId
    · rw [own] at settled ⊢
      exact (fits settled).1
    · rw [only id own]
      exact filed.fits id (settledBefore id own settled)
  · intro id held
    by_cases own : id = jobId
    · rw [own] at held ⊢
      exact unlisted held
    · rw [only id own]
      exact filed.unlisted id ((others id own).mp held)
  · intro id drawn settled drew
    by_cases own : id = jobId
    · rw [own] at settled drew
      rcases (fits settled).2 drawn drew with zero | ⟨_, below⟩
      · omega
      · exact below
    · exact (old id drawn own settled drew).trans sequence
  · intro id other drawn settled otherSettled drew otherDrew
    by_cases own : id = jobId
    · by_cases otherOwn : other = jobId
      · exact .inl (own.trans otherOwn.symm)
      · have bound := old other drawn otherOwn otherSettled otherDrew
        rw [own] at settled drew
        rcases (fits settled).2 drawn drew with zero | ⟨above, _⟩
        · exact .inr zero
        · omega
    · by_cases otherOwn : other = jobId
      · have bound := old id drawn own settled drew
        rw [otherOwn] at otherSettled otherDrew
        rcases (fits otherSettled).2 drawn otherDrew with zero | ⟨above, _⟩
        · exact .inr zero
        · omega
      · exact filed.apart id other drawn (settledBefore id own settled)
          (settledBefore other otherOwn otherSettled) (drew.of_place (only id own))
          (otherDrew.of_place (only other otherOwn))

/-- A job leaves all sets. -/
theorem Filed.loosen (filed : keys.Filed loose) (only : OnlyMoves jobId keys after)
    (steady : Steady keys after) (unlisted : (after.place jobId).Unlisted)
    (sequence : after.sequence = keys.sequence)
    : Files (insert jobId loose) keys after := by
  refine ⟨?_, steady⟩
  refine filed.moves only ?_ (fun _ => unlisted) ?_ sequence.ge (filed.steady_locked steady)
    (filed.steady_stalled steady) (filed.flows.steady steady)
  · intro id own
    exact Set.mem_insert_iff.trans (or_iff_right own)
  · intro settled
    exact absurd (Set.mem_insert jobId loose) settled

/-- The record of a loose job is written or deleted. -/
theorem Filed.rewrite (filed : keys.Filed loose) (held : jobId ∈ loose)
    (only : OnlyMoves jobId keys after) (steady : Steady keys after)
    (unlisted : (after.place jobId).Unlisted) (sequence : after.sequence = keys.sequence)
    : Files loose keys after := by
  refine ⟨?_, steady⟩
  refine filed.moves only (fun _ _ => .rfl) (fun _ => unlisted) ?_ sequence.ge
    (filed.steady_locked steady) (filed.steady_stalled steady) (filed.flows.steady steady)
  intro settled
  exact absurd held settled

/-- A loose job enters a place that it fits. -/
theorem Filed.settle (filed : keys.Filed (insert jobId loose)) (apart : jobId ∉ loose)
    (only : OnlyMoves jobId keys after) (steady : Steady keys after)
    (fits : (after.place jobId).Fits jobId)
    (fresh
      : ∀ drawn,
          after.Drew jobId drawn
          → drawn = 0 ∨ keys.sequence < drawn ∧ drawn ≤ after.sequence)
    (sequence : keys.sequence ≤ after.sequence)
    : Files loose keys after := by
  refine ⟨?_, steady⟩
  refine filed.moves only ?_ (fun held => absurd held apart) (fun _ => ⟨fits, fresh⟩) sequence
    (filed.steady_locked steady) (filed.steady_stalled steady) (filed.flows.steady steady)
  intro id own
  exact (Set.mem_insert_iff.trans (or_iff_right own)).symm

/-- A job without a record is not listed anywhere. -/
theorem Filed.unlisted_of_absent (filed : keys.Filed loose) (absent : keys.jobs id = none)
    : (keys.place id).Unlisted := by
  by_cases held : id ∈ loose
  · exact filed.unlisted id held
  · refine (filed.fits id held).unlisted ?_
    simp [Keyspace.place, absent]

/-- A job without a record can be taken for a loose one. -/
theorem Filed.take (filed : keys.Filed loose) (absent : keys.jobs jobId = none)
    : Files (insert jobId loose) keys keys :=
  filed.loosen (fun _ _ => rfl) (.refl keys) (filed.unlisted_of_absent absent) rfl

/-- A loose job whose record is gone is in its place. -/
theorem Filed.drop (filed : keys.Filed (insert jobId loose)) (apart : jobId ∉ loose)
    (absent : keys.jobs jobId = none)
    : Files loose keys keys := by
  have gone : (keys.place jobId).tag = none := by simp [Keyspace.place, absent]
  have fits : (keys.place jobId).Fits jobId :=
    (filed.unlisted jobId (Set.mem_insert jobId loose)).fits gone
  refine filed.settle apart (fun _ _ => rfl) (.refl keys) fits ?_ le_rfl
  rintro drawn ⟨tag, score, known, _⟩
  rw [gone] at known
  cases known

end Keyspace

end Lane
