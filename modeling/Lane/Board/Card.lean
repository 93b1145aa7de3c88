import Lane.Job.Step

/-! The board: what the queue promises about jobs, without the bookkeeping of its records.
A card keeps the phase, the lease, the flow links and the two series keys of one job, and
the board also keeps the candidates that wait for the end of an owner.
-/

namespace Lane

-----------------------------------------------------------------------------------------
-- Cards
-----------------------------------------------------------------------------------------

/-- The phases of a job's life. Waiting and delayed jobs differ only by their schedule. -/
inductive Phase where
  | ready
  | active
  | parked
  | completed
  | failed
deriving DecidableEq, Repr

/-- Phases in which a job has finished. -/
def Phase.isTerminal : Phase → Bool
  | .completed | .failed => true
  | _ => false

/-- The phase of a lifecycle state. -/
def JobState.phase : JobState → Phase
  | .waiting | .delayed => .ready
  | .active => .active
  | .waitingChildren => .parked
  | .completed => .completed
  | .failed => .failed

@[simp] theorem JobState.phase_waiting : JobState.waiting.phase = .ready := rfl
@[simp] theorem JobState.phase_delayed : JobState.delayed.phase = .ready := rfl
@[simp] theorem JobState.phase_active : JobState.active.phase = .active := rfl
@[simp] theorem JobState.phase_waitingChildren : JobState.waitingChildren.phase = .parked := rfl
@[simp] theorem JobState.phase_completed : JobState.completed.phase = .completed := rfl
@[simp] theorem JobState.phase_failed : JobState.failed.phase = .failed := rfl

/-- A phase is terminal exactly when its state is, by cases on the state. -/
@[simp] theorem JobState.phase_isTerminal (state : JobState)
    : state.phase.isTerminal = state.isTerminal := by
  cases state <;> rfl

@[simp] theorem JobState.phase_eq_active {state : JobState}
    : state.phase = .active ↔ state = .active := by
  cases state <;> simp [JobState.phase]

@[simp] theorem JobState.phase_eq_parked {state : JobState}
    : state.phase = .parked ↔ state = .waitingChildren := by
  cases state <;> simp [JobState.phase]

@[simp] theorem JobState.phase_eq_completed {state : JobState}
    : state.phase = .completed ↔ state = .completed := by
  cases state <;> simp [JobState.phase]

@[simp] theorem JobState.phase_eq_failed {state : JobState}
    : state.phase = .failed ↔ state = .failed := by
  cases state <;> simp [JobState.phase]

/-- A job that is due or scheduled is ready. -/
@[simp] theorem stateAfterDependencies_phase (scheduledAt now : DateTime)
    : (stateAfterDependencies scheduledAt now).phase = .ready := by
  unfold stateAfterDependencies
  split <;> rfl

/-- What the board says about one job. `ownerKey` is the deduplication id the job may still
own, which a released owner no longer has.
-/
structure Card where
  phase : Phase
  lockToken : Option JobLockToken
  parentId : Option JobId
  childIds : List JobId
  repeatKey : Option String
  ownerKey : Option String
  deduplicationExpiresAt : Option DateTime
  policy : FailurePolicy

/-- The card of a record. -/
def Job.card (released : Finset (String × JobId)) (job : Job) : Card :=
  { phase := job.state.phase
    lockToken := job.lockToken
    parentId := job.parentId
    childIds := job.childIds
    repeatKey := job.repeatKey
    ownerKey :=
      (jobDeduplicationId job).filter (fun deduplicationId =>
        !deduplicationOwnerReleased released deduplicationId job.id)
    deduplicationExpiresAt := job.deduplicationExpiresAt
    policy := failurePolicy job }

/-- The card of a record whose deduplication id was not released. -/
def Job.freshCard (job : Job) : Card := job.card ∅

/-- The card keeps its links and keys and moves to another phase without a lease. -/
def Card.moved (card : Card) (phase : Phase) : Card := { card with phase, lockToken := none }

-----------------------------------------------------------------------------------------
-- Boards
-----------------------------------------------------------------------------------------

/-- The cards of the retained jobs and the candidates kept for an owner's end. -/
@[ext] structure Board where
  cards : JobId → Option Card
  next : String → Option Job
  nextFlows : String → Option JobFlow

namespace Board

/-- Puts a card on the board. -/
def put (b : Board) (id : JobId) (card : Card) : Board :=
  { b with cards := Function.update b.cards id (some card) }

open Classical in
/-- Takes cards off the board. -/
noncomputable def without (b : Board) (ids : Set JobId) : Board :=
  { b with cards := fun id => if id ∈ ids then none else b.cards id }

/-- Moves a card to another phase; the move ends the job's lease. -/
def move (b : Board) (id : JobId) (phase : Phase) : Board :=
  { b with cards := Function.update b.cards id ((b.cards id).map (Card.moved · phase)) }

/-- Changes the candidate kept for a deduplication id. -/
def keep (b : Board) (deduplicationId : String) (job : Option Job) (flow : Option JobFlow)
    : Board :=
  { b with
    next := Function.update b.next deduplicationId job
    nextFlows := Function.update b.nextFlows deduplicationId flow }

/-- The job is on the board and has not finished. -/
def Unfinished (b : Board) (id : JobId) : Prop :=
  ∃ card, b.cards id = some card ∧ card.phase.isTerminal = false

/-- The job is on the board and has finished. -/
def Finished (b : Board) (id : JobId) : Prop :=
  ∃ card, b.cards id = some card ∧ card.phase.isTerminal = true

/-- The job is held by a worker under this lock token. -/
def Leased (b : Board) (id : JobId) (token : JobLockToken) : Prop :=
  ∃ card, b.cards id = some card ∧ card.phase = .active ∧ card.lockToken = some token

/-- The job is a flow parent that waits for its children. -/
def Parked (b : Board) (id : JobId) : Prop :=
  ∃ card, b.cards id = some card ∧ card.phase = .parked

/-- The job names `parentId` as its parent. -/
def Names (b : Board) (id parentId : JobId) : Prop :=
  ∃ card, b.cards id = some card ∧ card.parentId = some parentId

/-- The job lists `childId` among its children. -/
def Lists (b : Board) (id childId : JobId) : Prop :=
  ∃ card, b.cards id = some card ∧ childId ∈ card.childIds

variable {b : Board} {id other : JobId} {card : Card} {phase : Phase} {ids more : Set JobId}

@[simp] theorem put_next : (b.put id card).next = b.next := rfl
@[simp] theorem put_nextFlows : (b.put id card).nextFlows = b.nextFlows := rfl
@[simp] theorem without_next : (b.without ids).next = b.next := rfl
@[simp] theorem without_nextFlows : (b.without ids).nextFlows = b.nextFlows := rfl
@[simp] theorem move_next : (b.move id phase).next = b.next := rfl
@[simp] theorem move_nextFlows : (b.move id phase).nextFlows = b.nextFlows := rfl

theorem put_cards (b : Board) (id : JobId) (card : Card) (other : JobId)
    : (b.put id card).cards other = if other = id then some card else b.cards other := by
  simp [put, Function.update_apply]

@[simp] theorem put_cards_self : (b.put id card).cards id = some card := by
  simp [put_cards]

theorem put_cards_ne (different : other ≠ id)
    : (b.put id card).cards other = b.cards other := by
  simp [put_cards, different]

theorem without_cards_of_mem (member : id ∈ ids) : (b.without ids).cards id = none := by
  simp [without, member]

theorem without_cards_of_notMem (kept : id ∉ ids)
    : (b.without ids).cards id = b.cards id := by
  simp [without, kept]

/-- A card that is still on the board after a removal was there before. -/
theorem without_cards_some (found : (b.without ids).cards id = some card)
    : id ∉ ids ∧ b.cards id = some card := by
  by_cases member : id ∈ ids
  · rw [without_cards_of_mem member] at found
    cases found
  · rw [without_cards_of_notMem member] at found
    exact ⟨member, found⟩

/-- Two removals are one removal. -/
theorem without_without : (b.without ids).without more = b.without (ids ∪ more) := by
  ext1
  · funext id
    by_cases first : id ∈ ids <;> by_cases second : id ∈ more <;>
      simp [without, first, second]
  · rfl
  · rfl

@[simp] theorem without_empty : b.without ∅ = b := by
  simp [without]

theorem move_cards (b : Board) (id : JobId) (phase : Phase) (other : JobId)
    : (b.move id phase).cards other
      = if other = id then (b.cards id).map (Card.moved · phase) else b.cards other := by
  simp [move, Function.update_apply]

theorem move_cards_ne (different : other ≠ id)
    : (b.move id phase).cards other = b.cards other := by
  simp [move_cards, different]

/-- A move writes the moved card, when the job is on the board. -/
theorem move_eq_put (found : b.cards id = some card)
    : b.move id phase = b.put id (card.moved phase) := by
  simp [move, put, found]

end Board

end Lane
