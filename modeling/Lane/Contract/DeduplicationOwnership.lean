import Lane.Board.Clock
import Lane.Board.ExclusiveKeys

/-! Deduplication ownership: a deduplication id has at most one owner as long as nothing enters
at the end of an owner with an id that somebody still owns, and no submitted parent has two
children that both wait for the end of one owner.
-/

namespace Lane

namespace InMemoryJobQueueState

/-- The job is retained and owns the deduplication id at `now`. -/
def OwnsAt (s : InMemoryJobQueueState) (now : DateTime) (deduplicationId : String) (id : JobId)
    : Prop :=
  ∃ job,
    s.jobs.get id = some job
    ∧ ownsDeduplicationId s.releasedDeduplicationOwners deduplicationId now job = true

instance (s : InMemoryJobQueueState) (now : DateTime) (deduplicationId : String) (id : JobId)
    : Decidable (s.OwnsAt now deduplicationId id) :=
  decidable_of_iff
    ((s.jobs.get id).any (ownsDeduplicationId s.releasedDeduplicationOwners deduplicationId now)
      = true)
    (by simp [OwnsAt, Option.any_eq_true])

end InMemoryJobQueueState

/-- What enters at the end of an owner owns no deduplication id that a job still owns, and
submitted children are apart.
-/
structure InMemoryJobQueueState.SparesOwners (cron : Cron) (queue : QueueName)
    (s : InMemoryJobQueueState) (op : Op)
    : Prop where
  enters : ∀ now, op.time = some now → s.EntersFreely cron (Card.ownedKey now) op now
  children
    : ∀ parentId children now,
        op.flowChildren queue = some (parentId, children, now)
        → InMemoryJobQueueState.CreatesParent queue s op
        → s.board.Unsuperseded now children

-----------------------------------------------------------------------------------------
-- The rules of deduplication ids
-----------------------------------------------------------------------------------------

theorem ownedKey_eq_some {card : Card} {now : DateTime} {key : String}
    : card.ownedKey now = some key
      ↔ card.deduplicationExpiresAt.any (fun expiresAt => expiresAt ≤ now) = false
        ∧ (card.phase.isTerminal && card.deduplicationExpiresAt.isNone) = false
        ∧ card.ownerKey = some key := by
  unfold Card.ownedKey
  split
  · next expired => simp [expired]
  · next unexpired =>
      split
      · next gone => simp [gone]
      · next holds =>
          rw [(Bool.not_eq_true _).mp unexpired, (Bool.not_eq_true _).mp holds]
          simp

open InMemoryJobQueueState in
/-- The deduplication id of an owner is checked wherever a job is submitted or retried. -/
theorem ownerRules (now : DateTime)
    : KeyRules now (Card.ownedKey now) (ChildrenApart now) where
  continued := by
    intro card old key continued owned
    rw [ownedKey_eq_some] at owned ⊢
    rw [continued.deduplicationExpiresAt, continued.ownerKey] at owned
    refine ⟨owned.1, ?_, owned.2.2⟩
    by_contra gone
    rw [Bool.not_eq_false, Bool.and_eq_true] at gone
    rw [continued.terminal gone.1, gone.2] at owned
    cases owned.2.1
  disowned := by
    intro card key owned
    cases (ownedKey_eq_some.mp owned).2.2
  admits admits owned := admits.unowned owned
  coalesces owns coalesces := coalesces.owns owns
  sifts sifts := sifts.owns
  unheld := by
    intro b submitted parentId children existingIds p child key allowed gathers inserted owned
    rw [ownedKey_freshCard] at owned
    exact (gathers.unowned child inserted key owned).resolve_right
      (not_supersedes allowed gathers inserted)
  once := by
    intro b submitted parentId children existingIds p left right key allowed gathers leftIn rightIn
      leftOwned rightOwned
    rw [ownedKey_freshCard] at leftOwned rightOwned
    rcases gathers.singlyOwned left leftIn right rightIn key leftOwned rightOwned with
      same | supersedes | supersedes
    · exact same
    · exact absurd supersedes (not_supersedes allowed gathers leftIn)
    · exact absurd supersedes (not_supersedes allowed gathers rightIn)
  created := by
    intro b parent key inserted unowned _ owned
    rw [ownedKey_freshCard] at owned
    obtain ⟨free, apart⟩ := unowned key owned
    refine ⟨free, fun child member held => ?_⟩
    rw [ownedKey_freshCard] at held
    exact apart child member held
  retried := by
    intro s job enqueuedSeq key checks owned
    rw [ownedKey_freshCard] at owned
    have own : jobDeduplicationId (retriedJob job enqueuedSeq now) = some key :=
      activeDeduplicationId_some owned
    exact checks.unowned key own

namespace InMemoryJobQueueState

variable {cron : Cron} {find : Find} {queue : QueueName} {s : InMemoryJobQueueState} {op : Op}
  {now : DateTime} {key : String} {id : JobId}

theorem ownsAt_iff : s.OwnsAt now key id ↔ s.board.Owns now key id := by
  constructor
  · rintro ⟨job, found, owned⟩
    exact ⟨_, board_cards_of_get found, ownsDeduplicationId_iff.mp owned⟩
  · rintro ⟨card, shown, owned⟩
    obtain ⟨job, found, rfl⟩ := board_cards_some shown
    exact ⟨job, found, ownsDeduplicationId_iff.mpr owned⟩

/-- An operation that reads no clock finishes no owner. -/
theorem entersFreely_of_timeless {owned : Card → Option String} (timeless : op.time = none)
    : s.EntersFreely cron owned op now where
  candidate := by
    rintro job k ⟨owner, flag, jobs, finishes, _⟩
    rw [finishes.time] at timeless
    cases timeless
  candidates := by
    rintro left right k ⟨owner, flag, jobs, finishes, _⟩
    rw [finishes.time] at timeless
    cases timeless
  successor := by
    rintro next k ⟨jobId, lockToken, value, uuid, job, rfl, _⟩
    cases timeless

theorem SparesOwners.submitsApart (spares : s.SparesOwners cron queue op)
    (time : ∀ time, op.time = some time → time = now)
    : SubmitsApart queue s op (ChildrenApart now) := by
  intro parentId children submittedAt submitted submits creates isSubmitted
  obtain rfl := time _ (flowChildren_time submits)
  exact spares.children parentId children submittedAt submits (creates isSubmitted)

/-- Ownership stays unique from any time before an operation to any time after it. -/
theorem ownersUnique_step {before later : DateTime} (unique : s.board.OwnersUnique before)
    (spares : s.SparesOwners cron queue op) (order : before ≤ later)
    (within : ∀ now, op.time = some now → before ≤ now ∧ now ≤ later)
    : (step cron find queue s op).board.OwnersUnique later := by
  cases time : op.time with
  | none =>
      refine Board.OwnersUnique.of_le ?_ order
      exact unique_step (ownerRules before) (by simp [time]) unique
        (entersFreely_of_timeless time) (spares.submitsApart (by simp [time]))
  | some now =>
      obtain ⟨started, ended⟩ := within now time
      refine Board.OwnersUnique.of_le ?_ ended
      exact unique_step (ownerRules now) (by simp [time]) (unique.of_le started)
        (spares.enters now time) (spares.submitsApart (by simp [time]))

end InMemoryJobQueueState

-----------------------------------------------------------------------------------------
-- Runs whose clock never goes back
-----------------------------------------------------------------------------------------

/-- In a run whose clock never goes back and whose operations spare the owners of
deduplication ids, every deduplication id has at most one owner at any time of the run.
-/
theorem deduplication_owned_once {cron : Cron} {queue : QueueName} {s : InMemoryJobQueueState}
    {start now : DateTime}
    (run
      : (timedQueueSystem cron queue).Run
          (fun before call => before.1.SparesOwners cron queue call.op) ({}, start) (s, now))
    : ∀ deduplicationId left right,
        s.OwnsAt now deduplicationId left → s.OwnsAt now deduplicationId right → left = right := by
  have unique : s.board.OwnersUnique now := by
    refine run.invariant (fun state => state.1.board.OwnersUnique state.2) ?_ ?_
    · rw [InMemoryJobQueueState.board_empty]
      exact KeyTable.unique_empty
    · rintro ⟨s, before⟩ call ⟨t, later⟩ unique spares ⟨_, rfl, order, within⟩
      exact InMemoryJobQueueState.ownersUnique_step unique spares order within
  intro deduplicationId left right leftOwns rightOwns
  exact unique.eq (InMemoryJobQueueState.ownsAt_iff.mp leftOwns)
    (InMemoryJobQueueState.ownsAt_iff.mp rightOwns)

-----------------------------------------------------------------------------------------
-- An id that a kept candidate takes beside its owner
-----------------------------------------------------------------------------------------

/-- The first owner outlives its TTL and still runs when a second owner takes over. A duplicate
is kept under the second owner, and the end of the first one admits it.
-/
def sharedOwnership : List Call :=
  [ { op := .addAt "work" .null { deduplication := some { id := "key", ttl := some 10 } } 0 "first" },
    { op := .claimNext "worker" 100 0 "lease-1" },
    { op := .addAt "work" .null { deduplication := some { id := "key" } } 20 "second" },
    { op := .claimNext "worker" 100 20 "lease-2" },
    { op := .addAt "work" .null
        { deduplication := some { id := "key", keepLastIfActive := true } } 21 "third" },
    { op := .completeJob "first" "lease-1" .null 22 "next" } ]

theorem reaches_sharedOwnership
    : (timedQueueSystem noCron "queue").Reaches ({}, 0) (serve noCron "queue" {} sharedOwnership, 22) :=
  timedRun_serve (allowedCalls_of_fresh (by decide +kernel)) (by decide)

/-- Two jobs own the same deduplication id. -/
theorem ownership_shared_with_candidate
    : ¬ ∀ (cron : Cron) (queue : QueueName) (s : InMemoryJobQueueState) (start now : DateTime),
        (timedQueueSystem cron queue).Reaches ({}, start) (s, now)
        → ∀ deduplicationId left right,
            s.OwnsAt now deduplicationId left → s.OwnsAt now deduplicationId right → left = right := by
  intro unique
  have same := unique noCron "queue" _ 0 22 reaches_sharedOwnership "key" "second" "third"
    (by decide +kernel) (by decide +kernel)
  revert same
  decide

/-- A duplicate that its owner absorbs. -/
def absorbedDuplicate : List Call :=
  [ { op := .addAt "work" .null { deduplication := some { id := "key" } } 0 "first" },
    { op := .addAt "work" .null { deduplication := some { id := "key" } } 1 "second" } ]

theorem deduplication_owned_once_absorbed
    : (serve noCron "queue" {} absorbedDuplicate).OwnsAt 1 "key" "first"
      ∧ ∀ id, (serve noCron "queue" {} absorbedDuplicate).OwnsAt 1 "key" id → id = "first" := by
  have spares {s : InMemoryJobQueueState} {options : JobOptions} {now : DateTime} {uuid : JobId}
      : s.SparesOwners noCron "queue" (.addAt "work" .null options now uuid) := by
    refine ⟨fun now _ => ⟨?_, ?_, ?_⟩, ?_⟩
    · rintro job k ⟨owner, flag, jobs, finishes, _⟩
      cases finishes with
      | fails ends => cases ends
    · rintro left right k ⟨owner, flag, jobs, finishes, _⟩
      cases finishes with
      | fails ends => cases ends
    · rintro next k ⟨_, _, _, _, _, isCompletion, _⟩
      cases isCompletion
    · rintro parentId children now submits
      cases submits
  have allowed
      : AllowedCalls noCron "queue" (fun s call => s.SparesOwners noCron "queue" call.op) {}
          absorbedDuplicate :=
    ⟨⟨spares, by decide +kernel⟩, ⟨spares, by decide +kernel⟩, trivial⟩
  have order : InOrder 0 absorbedDuplicate := by decide
  have owns : (serve noCron "queue" {} absorbedDuplicate).OwnsAt 1 "key" "first" := by
    decide +kernel
  refine ⟨owns, fun id other => ?_⟩
  exact deduplication_owned_once (timedRun_serve allowed order) "key" id "first" other owns

end Lane
