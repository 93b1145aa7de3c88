import Lane.Board.Management

/-! Submissions of single jobs and repeat upserts, as changes of the board. -/

namespace Lane

/-- Everything a card says except when its deduplication id expires. -/
def Card.untimed (card : Card) : Card := { card with deduplicationExpiresAt := none }

namespace Board

/-- A new job may enter the board, possibly in the place of a replaced one. -/
structure Admits (b : Board) (now : DateTime) (replaced : Option JobId) (job : Job) : Prop where
  absent : b.cards job.id = none ∨ replaced = some job.id
  parentless : job.parentId = none
  childless : job.childIds = []
  ready : job.state.phase = .ready
  tokenless : job.lockToken = none
  replacedFree
    : ∀ {id},
        replaced = some id →
          ∃ card,
            b.cards id = some card
            ∧ card.phase.isTerminal = false
            ∧ card.parentId = none
            ∧ card.childIds = []
            ∧ ∀ token, ¬ b.Leased id token
  unowned
    : ∀ {key},
        job.freshCard.ownedKey now = some key →
          (∀ id, ¬ b.Owns now key id) ∨ ∃ id, replaced = some id ∧ b.Owns now key id
  uncarried
    : ∀ {key},
        job.repeatKey = some key →
          (∀ id, ¬ b.Carries key id) ∨ ∃ id, replaced = some id ∧ b.Carries key id

/-- The board after an admission. -/
noncomputable def enter (b : Board) (replaced : Option JobId) (job : Job) : Board :=
  (b.without {id | replaced = some id}).put job.id job.freshCard

/-- What a duplicate of an owned deduplication id may write: a candidate, which ends the
owner's TTL, or a new TTL of the owner.
-/
inductive Coalesces (b : Board) (key : String) (ownerId : JobId)
    (keepsJob : Job → Prop) (keepsFlow : JobFlow → Prop)
    : Board → Prop
  | ignored : Coalesces b key ownerId keepsJob keepsFlow b
  | keptJob {job : Job} (allowed : keepsJob job) (own : jobDeduplicationId job = some key)
    : Coalesces b key ownerId keepsJob keepsFlow
        ((b.keep key (some job) none).expire ownerId none)
  | keptFlow {flow : JobFlow} (allowed : keepsFlow flow)
    (own : jobDeduplicationId flow.parent = some key)
    : Coalesces b key ownerId keepsJob keepsFlow
        ((b.keep key none (some flow)).expire ownerId none)
  | extended (expiresAt : DateTime)
    : Coalesces b key ownerId keepsJob keepsFlow (b.expire ownerId (some expiresAt))

/-- The boards show the same cards apart from the expiry of deduplication ids. -/
def Retimes (b after : Board) : Prop :=
  ∀ id, (after.cards id).map Card.untimed = (b.cards id).map Card.untimed

variable {b middle after : Board} {id : JobId} {card : Card}

theorem Retimes.refl (b : Board) : b.Retimes b := fun _ => rfl

theorem Retimes.trans (first : b.Retimes middle) (second : middle.Retimes after)
    : b.Retimes after :=
  fun id => (second id).trans (first id)

theorem retimes_expire (b : Board) (id : JobId) (expiresAt : Option DateTime)
    : b.Retimes (b.expire id expiresAt) := by
  intro other
  rw [expire_cards]
  split
  · next same =>
      subst same
      cases b.cards other <;> rfl
  · rfl

theorem retimes_keep (b : Board) (key : String) (job : Option Job) (flow : Option JobFlow)
    : b.Retimes (b.keep key job flow) :=
  fun _ => rfl

/-- A card after retiming was there before, up to its expiry. -/
theorem Retimes.card_before (retimes : b.Retimes after) (found : after.cards id = some card)
    : ∃ old, b.cards id = some old ∧ card.untimed = old.untimed := by
  have same := retimes id
  rw [found, Option.map_some] at same
  obtain ⟨old, shown, equal⟩ := Option.map_eq_some_iff.mp same.symm
  exact ⟨old, shown, equal.symm⟩

/-- A card before retiming is still there, up to its expiry. -/
theorem Retimes.card_after (retimes : b.Retimes after) (found : b.cards id = some card)
    : ∃ new, after.cards id = some new ∧ new.untimed = card.untimed := by
  have same := retimes id
  rw [found, Option.map_some] at same
  exact Option.map_eq_some_iff.mp same

theorem Retimes.cards_none (retimes : b.Retimes after)
    : after.cards id = none ↔ b.cards id = none := by
  have same := retimes id
  rw [← Option.map_eq_none_iff, same, Option.map_eq_none_iff]

variable {key : String} {ownerId : JobId} {keepsJob : Job → Prop} {keepsFlow : JobFlow → Prop}

theorem Coalesces.retimes (coalesces : b.Coalesces key ownerId keepsJob keepsFlow after)
    : b.Retimes after := by
  cases coalesces with
  | ignored => exact .refl b
  | keptJob => exact (retimes_keep b _ _ _).trans (retimes_expire _ _ _)
  | keptFlow => exact (retimes_keep b _ _ _).trans (retimes_expire _ _ _)
  | extended expiresAt => exact retimes_expire b _ _

theorem Coalesces.imp {widerJob : Job → Prop} {widerFlow : JobFlow → Prop}
    (coalesces : b.Coalesces key ownerId keepsJob keepsFlow after)
    (jobs : ∀ job, keepsJob job → widerJob job) (flows : ∀ flow, keepsFlow flow → widerFlow flow)
    : b.Coalesces key ownerId widerJob widerFlow after := by
  cases coalesces with
  | ignored => exact .ignored
  | keptJob allowed own => exact .keptJob (jobs _ allowed) own
  | keptFlow allowed own => exact .keptFlow (flows _ allowed) own
  | extended expiresAt => exact .extended expiresAt

/-- Only the owner's expiry changes. -/
theorem expire_owns {now : DateTime} {other : String} {expiresAt : Option DateTime}
    (owner : ∃ key, b.Owns now key ownerId)
    (owns : (b.expire ownerId expiresAt).Owns now other id)
    : b.Owns now other id := by
  obtain ⟨card, found, owned⟩ := owns
  rw [expire_cards] at found
  split at found
  · next same =>
      subst same
      obtain ⟨old, shown, rfl⟩ := Option.map_eq_some_iff.mp found
      obtain ⟨key, oldCard, known, held⟩ := owner
      rw [shown] at known
      obtain rfl := Option.some.inj known
      refine ⟨old, shown, ?_⟩
      have heldKey : old.ownerKey = some key := by
        unfold Card.ownedKey at held
        split at held
        · cases held
        · split at held
          · cases held
          · exact held
      have ownedKey : old.ownerKey = some other := by
        unfold Card.ownedKey at owned
        split at owned
        · cases owned
        · split at owned
          · cases owned
          · exact owned
      rw [heldKey] at ownedKey
      obtain rfl := Option.some.inj ownedKey
      exact held
  · exact ⟨card, found, owned⟩

/-- Nobody gains a deduplication id when a duplicate is coalesced with its owner. -/
theorem Coalesces.owns {now : DateTime} {other : String}
    (coalesces : b.Coalesces key ownerId keepsJob keepsFlow after)
    (owner : b.Owns now key ownerId) (owns : after.Owns now other id)
    : b.Owns now other id := by
  cases coalesces with
  | ignored => exact owns
  | keptJob =>
      exact expire_owns (b := b.keep key _ none) ⟨key, owner⟩ owns
  | keptFlow =>
      exact expire_owns (b := b.keep key none _) ⟨key, owner⟩ owns
  | extended expiresAt => exact expire_owns ⟨key, owner⟩ owns

end Board

namespace InMemoryJobQueueState

variable {s : InMemoryJobQueueState} {find : Find} {job existing : Job} {now : DateTime}
  {key : String}

-----------------------------------------------------------------------------------------
-- Coalescing with an owner
-----------------------------------------------------------------------------------------

/-- A TTL that is extended ends at a fixed time. -/
theorem deduplicationExpiration_of_extends (now : DateTime)
    (extends_ : deduplicationExtendsTtl job = true)
    : ∃ expiresAt, deduplicationExpiration job.options now = some expiresAt := by
  unfold deduplicationExtendsTtl at extends_
  unfold deduplicationExpiration
  rw [Option.any_eq_true] at extends_
  obtain ⟨options, own, chosen⟩ := extends_
  simp only [Bool.and_eq_true, Bool.not_eq_true'] at chosen
  obtain ⟨ttl, known⟩ := Option.isSome_iff_exists.mp chosen.1.2
  exact ⟨addDuration now ttl, by simp [own, Option.filter, chosen.2, known]⟩

/-- Extending an owner's TTL is a coalescing write. -/
theorem coalesces_extend (s : InMemoryJobQueueState) (job : Job) (existingId : JobId)
    (now : DateTime) (key : String) (keepsJob : Job → Prop) (keepsFlow : JobFlow → Prop)
    : s.board.Coalesces key existingId keepsJob keepsFlow
        (s.extendDeduplicationExpirationLocked job existingId now).1.board := by
  rcases board_extendDeduplicationExpirationLocked s job existingId now with
    same | ⟨extends_, board⟩
  · rw [same]
    exact .ignored
  · obtain ⟨expiresAt, known⟩ := deduplicationExpiration_of_extends now extends_
    rw [board, known]
    exact .extended expiresAt

/-- A candidate that is kept is not one that extends a TTL. -/
theorem not_extends_of_stores (stores : deduplicationStoresNextIfActive job existing = true)
    : deduplicationExtendsTtl job = false := by
  unfold deduplicationStoresNextIfActive at stores
  unfold deduplicationExtendsTtl
  cases own : job.options.deduplication with
  | none => rfl
  | some options =>
      simp only [own, Option.any_some, Bool.and_eq_true] at stores
      simp [stores.1.1.1]

/-- A duplicate submission writes at most a candidate, if its owner is active, or the owner's
TTL.
-/
theorem coalesces_active_coalesceDuplicate (s : InMemoryJobQueueState) (job existing : Job)
    (now : DateTime) (own : jobDeduplicationId job = some key)
    : s.board.Coalesces key existing.id (fun kept => kept = job ∧ existing.state = .active)
        (fun _ => False) (s.coalesceDuplicate job existing now).1.board := by
  unfold coalesceDuplicate
  simp only
  have quiet (t : InMemoryJobQueueState)
      : (if deduplicationDuplicateEmitsEvents job existing = true then
          t.emitDeduplicatedEventsLocked existing job now
        else
          t).board = t.board := by
    split
    · exact board_of_tables (emitDeduplicatedEventsLocked_tables _ _ _ _)
    · rfl
  rw [quiet]
  rcases board_storeDeduplicatedNextLocked s job existing with
    same | ⟨deduplicationId, stores, known, _, board⟩
  · rw [same]
    exact coalesces_extend s job existing.id now key _ _
  · have unextended (t : InMemoryJobQueueState)
        : t.extendDeduplicationExpirationLocked job existing.id now = (t, false) := by
      simp [extendDeduplicationExpirationLocked, not_extends_of_stores stores]
    rw [own] at known
    obtain rfl := Option.some.inj known
    rw [unextended, board]
    unfold deduplicationStoresNextIfActive at stores
    simp only [Bool.and_eq_true, beq_iff_eq] at stores
    exact .keptJob ⟨rfl, stores.1.1.2⟩ own

theorem coalesces_coalesceDuplicate (s : InMemoryJobQueueState) (job existing : Job)
    (now : DateTime) (own : jobDeduplicationId job = some key)
    : s.board.Coalesces key existing.id (· = job) (fun _ => False)
        (s.coalesceDuplicate job existing now).1.board :=
  (coalesces_active_coalesceDuplicate s job existing now own).imp (fun _ kept => kept.1)
    (fun _ impossible => impossible)

-----------------------------------------------------------------------------------------
-- Admission of a submitted job
-----------------------------------------------------------------------------------------

/-- A new record as the submission paths hand it to admission. -/
structure Submitted (job : Job) : Prop where
  parentless : job.parentId = none
  childless : job.childIds = []
  ready : job.state.phase = .ready
  tokenless : job.lockToken = none

theorem submitted_new (queue : QueueName) (name : String) (payload : Value)
    (options : JobOptions) (now : DateTime) (uuid : JobId)
    : Submitted (Job.new queue name payload options now uuid) where
  parentless := rfl
  childless := rfl
  ready := by
    simp only [Job.new]
    split <;> rfl
  tokenless := rfl

/-- A ready card owns what its record says it actively owns. -/
theorem ownedKey_freshCard (job : Job) (now : DateTime)
    : job.freshCard.ownedKey now = activeDeduplicationId job now := by
  unfold Job.freshCard Card.ownedKey activeDeduplicationId
  simp only [Job.card, JobState.phase_isTerminal, deduplicationOwnerReleased,
    Finset.notMem_empty, decide_false, Bool.not_false]
  cases jobDeduplicationId job <;> simp [Option.filter]

theorem activeDeduplicationId_some (active : activeDeduplicationId job now = some key)
    : jobDeduplicationId job = some key := by
  unfold activeDeduplicationId at active
  split at active
  · cases active
  · split at active
    · cases active
    · exact active

/-- The outcomes of one submission. -/
inductive Submits (s : InMemoryJobQueueState) (job : Job) (now : DateTime) : Board → Prop
  | answered : Submits s job now s.board
  | admitted {replaced : Option JobId} {stored : Job} (sameId : stored.id = job.id)
    (sameKeys : jobDeduplicationId stored = jobDeduplicationId job)
    (admits : s.board.Admits now replaced stored)
    (replacement : replaced = none ∨ ∃ id, replaced = some id ∧ stored.repeatKey = none
      ∧ ∃ card, s.board.cards id = some card ∧ card.repeatKey = none)
    : Submits s job now (s.board.enter replaced stored)
  | coalesced {key : String} {ownerId : JobId} {after : Board}
    (own : jobDeduplicationId job = some key)
    (owns : s.board.Owns now key ownerId)
    (coalesces : s.board.Coalesces key ownerId (· = job) (fun _ => False) after)
    : Submits s job now after

theorem not_carries_of_findJob (failed : findActiveRepeatJob find s.jobs job = none)
    (alive : job.state.isTerminal = false) (own : job.repeatKey = some key) (id : JobId)
    : ¬ s.board.Carries key id := by
  unfold findActiveRepeatJob activeRepeatKey at failed
  simp only [alive, Bool.false_eq_true, if_false, own] at failed
  exact not_carries_of_find failed id

theorem Submitted.alive (submitted : Submitted job) : job.state.isTerminal = false := by
  have ready := submitted.ready
  rw [← JobState.phase_isTerminal, ready]
  rfl

/-- A replaced owner only leaves the board. -/
theorem board_replaceDelayedOwner (s : InMemoryJobQueueState) (job existing : Job)
    (now : DateTime)
    : (s.replaceDelayedOwner job existing now).board = s.board.without {existing.id} := by
  have taken := board_removeJobRecordLocked s existing.id
  unfold replaceDelayedOwner
  split
  · next nothing => rw [nothing] at taken; exact taken
  · next something =>
      rw [something] at taken
      rw [board_of_tables (emitReplacedDeduplicatedOwnerEventsLocked_tables _ _ _ _),
        board_of_tables (emitRemovedEventLocked_tables _ _ _)]
      exact taken

/-- A job outside of repeat series enters in the place of the owner that it replaces. -/
theorem board_replacement
    {insert : InMemoryJobQueueState → Job → DateTime → InMemoryJobQueueState × Job}
    (inserts : ∀ t stored, (insert t stored now).1.board = t.board.put stored.id stored.freshCard)
    (unseries : job.repeatKey = none)
    : ((s.replaceDelayedOwner job existing now).insertUnlessRepeated insert find job now).1.board
      = s.board.enter (some existing.id) job := by
  have unrepeated
      : findActiveRepeatJob find (s.replaceDelayedOwner job existing now).jobs job = none := by
    simp [findActiveRepeatJob, activeRepeatKey, unseries]
  have only : {id | some existing.id = some id} = ({existing.id} : Set JobId) := by
    ext id
    simp [eq_comm]
  unfold insertUnlessRepeated
  rw [unrepeated]
  simp only
  rw [inserts, board_replaceDelayedOwner, Board.enter, only]

/-- One submission answers, admits or coalesces, whichever admission order it uses. -/
theorem submits_submitLocked
    {insert : InMemoryJobQueueState → Job → DateTime → InMemoryJobQueueState × Job}
    (inserts : ∀ t stored, (insert t stored now).1.board = t.board.put stored.id stored.freshCard)
    (submitted : Submitted job)
    : s.Submits job now (s.submitLocked insert find job now).1.board := by
  unfold submitLocked
  split
  · exact .answered
  · next absent =>
      split
      · next unowned =>
          unfold insertUnlessRepeated
          split
          · exact .answered
          · next unrepeated =>
              have admits : s.board.Admits now none job :=
                { absent := .inl (board_cards_none.mpr absent)
                  parentless := submitted.parentless
                  childless := submitted.childless
                  ready := submitted.ready
                  tokenless := submitted.tokenless
                  replacedFree := by simp
                  unowned := by
                    intro key active
                    rw [ownedKey_freshCard] at active
                    unfold findActiveDeduplicatedJob at unowned
                    rw [active] at unowned
                    exact .inl (not_owns_of_find unowned)
                  uncarried := fun own =>
                    .inl (not_carries_of_findJob unrepeated submitted.alive own) }
              have board : (insert s job now).1.board = s.board.enter none job := by
                rw [inserts]
                simp [Board.enter]
              rw [board]
              exact .admitted rfl rfl admits (.inl rfl)
      · next existing owned =>
          unfold findActiveDeduplicatedJob at owned
          cases active : activeDeduplicationId job now with
          | none =>
              rw [active] at owned
              cases owned
          | some key =>
              rw [active] at owned
              have own := activeDeduplicationId_some active
              obtain ⟨found, owns⟩ := owns_of_find owned
              split
              · next replaces =>
                  unfold deduplicationReplacesDelayedOwner at replaces
                  simp only [Bool.and_eq_true, beq_iff_eq, Option.isNone_iff_eq_none,
                    List.isEmpty_iff] at replaces
                  obtain ⟨⟨⟨⟨⟨_, delayed⟩, unseries⟩, parentless⟩, childless⟩, ownUnseries⟩ :=
                    replaces
                  obtain ⟨stored, preserved⟩
                      : ∃ stored, preserveReplacementDeduplicationExpiration job existing = stored
                          ∧ stored.id = job.id ∧ stored.parentId = none ∧ stored.childIds = []
                          ∧ stored.state = job.state ∧ stored.lockToken = none
                          ∧ stored.repeatKey = none
                          ∧ jobDeduplicationId stored = jobDeduplicationId job := by
                    refine ⟨_, rfl, ?_⟩
                    unfold preserveReplacementDeduplicationExpiration
                    simp only
                    split <;>
                      exact ⟨rfl, submitted.parentless, submitted.childless, rfl,
                        submitted.tokenless, unseries, rfl⟩
                  obtain ⟨same, sameId, noParent, noChildren, sameState, noToken, noSeries,
                    sameKey⟩ := preserved
                  simp only [same]
                  have existingCard := board_cards_of_get found
                  have admits : s.board.Admits now (some existing.id) stored :=
                    { absent := .inl (by rw [sameId]; exact board_cards_none.mpr absent)
                      parentless := noParent
                      childless := noChildren
                      ready := by rw [sameState]; exact submitted.ready
                      tokenless := noToken
                      replacedFree := by
                        rintro id ⟨⟩
                        exact ⟨_, existingCard, by simp [Job.card, delayed, Phase.isTerminal],
                          parentless, childless, not_leased_of_get found (by simp [delayed])⟩
                      unowned := by
                        intro other active
                        rw [ownedKey_freshCard] at active
                        have otherOwn := activeDeduplicationId_some active
                        rw [sameKey, own] at otherOwn
                        obtain rfl := Option.some.inj otherOwn
                        exact .inr ⟨existing.id, rfl, owns⟩
                      uncarried := by simp [noSeries] }
                  rw [board_replacement inserts noSeries]
                  exact .admitted sameId sameKey admits
                    (.inr ⟨existing.id, rfl, noSeries, _, existingCard, ownUnseries⟩)
              · exact .coalesced own owns (coalesces_coalesceDuplicate s job existing now own)

/-- A submission through `add` is accepted as submission of one new record or rejected. -/
theorem submits_addAt (cron : Cron) (find : Find) (queue : QueueName)
    (s : InMemoryJobQueueState) (name : String) (payload : Value) (options : JobOptions)
    (now : DateTime) (uuid : JobId)
    : s.Submits (Job.new queue name payload options now uuid) now
        (s.addAt cron find queue name payload options now uuid).1.board := by
  unfold addAt
  split
  · exact .answered
  · exact submits_submitLocked (fun t stored => (board_insertCreated t stored now).1)
      (submitted_new queue name payload options now uuid)

/-- Bulk submissions one after the other. -/
inductive SubmitsEach (find : Find) (now : DateTime)
    : InMemoryJobQueueState → List Job → InMemoryJobQueueState → Prop
  | nil (s : InMemoryJobQueueState) : SubmitsEach find now s [] s
  | cons {s after : InMemoryJobQueueState} {job : Job} {rest : List Job}
    (submits : s.Submits job now (s.submitLocked insertSequenced find job now).1.board)
    (later : SubmitsEach find now (s.submitLocked insertSequenced find job now).1 rest after)
    : SubmitsEach find now s (job :: rest) after

theorem submitsEach_submitAllLocked (find : Find) (now : DateTime)
    (s : InMemoryJobQueueState) {jobs : List Job} (submitted : ∀ job ∈ jobs, Submitted job)
    : SubmitsEach find now s jobs (s.submitAllLocked find now jobs).1 := by
  induction jobs generalizing s with
  | nil => exact .nil s
  | cons job rest ih =>
      refine .cons ?_ (ih _ (fun other member => submitted other (List.mem_cons_of_mem job member)))
      exact submits_submitLocked (fun t stored => (board_insertSequenced t stored now).1)
        (submitted job List.mem_cons_self)

/-- A bulk submission is rejected as a whole or submits its jobs in order. -/
theorem submits_addManyAt (cron : Cron) (find : Find) (queue : QueueName)
    (s : InMemoryJobQueueState) (specs : List (JobSpec × JobId)) (now : DateTime)
    : (s.addManyAt cron find queue specs now).1 = s
      ∨ SubmitsEach find now s (specs.map (jobOfSpec queue now))
          (s.addManyAt cron find queue specs now).1 := by
  unfold addManyAt
  split
  · exact .inl rfl
  · refine .inr (submitsEach_submitAllLocked find now s ?_)
    intro job member
    obtain ⟨entry, _, rfl⟩ := List.mem_map.mp member
    exact submitted_new _ _ _ _ _ _

-----------------------------------------------------------------------------------------
-- Repeat upserts
-----------------------------------------------------------------------------------------

theorem requireReplaceable_ok {repeatKey : String} {owner : Job}
    (accepted : requireReplaceable repeatKey (some owner) = .ok ())
    : (¬ (owner.state = .active ∧ owner.lockToken.isSome = true))
      ∧ owner.parentId = none
      ∧ owner.childIds = [] := by
  unfold requireReplaceable at accepted
  simp only at accepted
  split at accepted
  · cases accepted
  · next removable =>
      split at accepted
      · cases accepted
      · next free =>
          simp only [not_or, Bool.not_eq_true', Bool.not_eq_false, List.isEmpty_iff] at free
          refine ⟨?_, by simpa using free.1, free.2⟩
          intro leased
          simp [requireRemovable, leased] at removable

theorem requireFreeJobId_ok {currentOwner : Option Job}
    (accepted : s.requireFreeJobId job currentOwner = .ok ())
    : s.jobs.get job.id = none ∨ currentOwner.map Job.id = some job.id := by
  unfold requireFreeJobId at accepted
  split at accepted
  · next absent => exact .inl absent
  · next existing found =>
      split at accepted
      · cases accepted
      · next same =>
          rw [JobMap.get_id found] at same
          exact .inr (not_ne_iff.mp same)

theorem requireFreeDeduplicationId_ok {repeatKey : String} {currentOwner : Option Job}
    (accepted : s.requireFreeDeduplicationId find job repeatKey currentOwner now = .ok ())
    (own : jobDeduplicationId job = some key)
    : (∀ id, ¬ s.board.Owns now key id)
      ∨ ∃ id, currentOwner.map Job.id = some id ∧ s.board.Owns now key id := by
  unfold requireFreeDeduplicationId at accepted
  simp only [own] at accepted
  split at accepted
  · next unowned => exact .inl (not_owns_of_find unowned)
  · next existing owned =>
      split at accepted
      · cases accepted
      · next same => exact .inr ⟨existing.id, not_ne_iff.mp same, (owns_of_find owned).2⟩

theorem requireUpsertable_ok {repeatKey : String} {currentOwner : Option Job}
    (accepted : s.requireUpsertable find job repeatKey currentOwner now = .ok ())
    : requireReplaceable repeatKey currentOwner = .ok ()
      ∧ s.requireFreeJobId job currentOwner = .ok ()
      ∧ s.requireFreeDeduplicationId find job repeatKey currentOwner now = .ok () := by
  unfold requireUpsertable at accepted
  cases first : requireReplaceable repeatKey currentOwner with
  | error error => simp [first, bind, Except.bind] at accepted
  | ok =>
      cases second : s.requireFreeJobId job currentOwner with
      | error error => simp [first, second, bind, Except.bind] at accepted
      | ok => exact ⟨rfl, rfl, by simpa [first, second, bind, Except.bind] using accepted⟩

/-- An upsert replaces the current owner of the series, or starts one. -/
theorem board_upsertRepeat (cron : Cron) (find : Find) (queue : QueueName)
    (s : InMemoryJobQueueState) (spec : JobSpec × JobId) (now : DateTime)
    : (s.upsertRepeat cron find queue spec now).1.board = s.board
      ∨ ∃ replaced repeatKey,
          s.board.Admits now replaced (jobOfSpec queue now spec)
          ∧ (jobOfSpec queue now spec).repeatKey = some repeatKey
          ∧ (∀ id, replaced = some id → s.board.Carries repeatKey id)
          ∧ (s.upsertRepeat cron find queue spec now).1.board
            = s.board.enter replaced (jobOfSpec queue now spec) := by
  unfold upsertRepeat
  split
  · exact .inl rfl
  · split
    · exact .inl rfl
    · simp only
      have submitted : Submitted (jobOfSpec queue now spec) := submitted_new _ _ _ _ _ _
      generalize jobOfSpec queue now spec = job at submitted ⊢
      split
      · exact .inl rfl
      · next repeatKey keyed =>
          have series : job.repeatKey = some repeatKey := by
            unfold requireRepeatKey at keyed
            split at keyed
            · cases keyed
            · next found =>
                cases keyed
                exact (Option.filter_eq_some_iff.mp found).1
          unfold upsertRepeatLocked
          simp only
          split
          · exact .inl rfl
          · next accepted =>
              obtain ⟨replaceable, freeId, freeKey⟩ := requireUpsertable_ok accepted
              refine .inr ⟨(findActiveRepeatKey find s.jobs repeatKey).map Job.id, repeatKey, ?_,
                series, ?_, ?_⟩
              · refine
                  { absent := (requireFreeJobId_ok freeId).imp board_cards_none.mpr id
                    parentless := submitted.parentless
                    childless := submitted.childless
                    ready := submitted.ready
                    tokenless := submitted.tokenless
                    replacedFree := ?_
                    unowned := ?_
                    uncarried := ?_ }
                · intro id replaced
                  obtain ⟨owner, found, rfl⟩ := Option.map_eq_some_iff.mp replaced
                  rw [found] at replaceable
                  obtain ⟨unleased, parentless, childless⟩ := requireReplaceable_ok replaceable
                  have stored := (carries_of_find found).1
                  have alive : (owner.card s.releasedDeduplicationOwners).phase.isTerminal = false := by
                    obtain ⟨card, shown, series⟩ := (carries_of_find found).2
                    rw [board_cards_of_get stored] at shown
                    obtain rfl := Option.some.inj shown
                    unfold Card.seriesKey at series
                    split at series
                    · cases series
                    · next alive => exact (Bool.not_eq_true _).mp alive
                  refine ⟨_, board_cards_of_get stored, alive, parentless, childless, ?_⟩
                  intro token leased
                  obtain ⟨same, again, active, held⟩ := board_leased_iff.mp leased
                  rw [stored] at again
                  obtain rfl := Option.some.inj again
                  exact unleased ⟨active, by rw [held]; rfl⟩
                · intro key active
                  rw [ownedKey_freshCard] at active
                  exact requireFreeDeduplicationId_ok freeKey (activeDeduplicationId_some active)
                · intro key own
                  rw [series] at own
                  obtain rfl := Option.some.inj own
                  cases found : findActiveRepeatKey find s.jobs repeatKey with
                  | none => exact .inl (not_carries_of_find found)
                  | some owner => exact .inr ⟨owner.id, rfl, (carries_of_find found).2⟩
              · intro id replaced
                obtain ⟨owner, found, rfl⟩ := Option.map_eq_some_iff.mp replaced
                exact (carries_of_find found).2
              · rw [(board_insertCreated _ job now).1, Board.enter]
                congr 1
                cases findActiveRepeatKey find s.jobs repeatKey with
                | none => simp
                | some owner =>
                    have only
                        : {id | (some owner).map Job.id = some id} = ({owner.id} : Set JobId) := by
                      ext id
                      simp [eq_comm]
                    rw [only]
                    exact board_removeJobRecordLocked s owner.id

end InMemoryJobQueueState

end Lane
