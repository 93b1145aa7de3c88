import Lane.Board.Standing

/-! The candidates that are kept for the end of an owner: each is kept under one deduplication id in
one of two tables, and a candidate enters a table only beside an active owner of that id.
-/

namespace Lane

namespace Board

/-- Nothing is kept both as a job and as a flow under one deduplication id. -/
def Exclusive (b : Board) : Prop := ∀ key, b.next key = none ∨ b.nextFlows key = none

/-- Every candidate is kept beside an unfinished owner of its deduplication id. -/
def Anchored (b : Board) : Prop := ∀ key, b.Keeps key → ∃ id, b.Anchors key id

variable {b after : Board} {key : String} {id ownerId : JobId} {job : Job} {now : DateTime}

theorem not_keeps (next : b.next key = none) (nextFlows : b.nextFlows key = none)
    : ¬ b.Keeps key := by
  rintro (⟨job, stored⟩ | ⟨flow, stored⟩)
  · rw [next] at stored
    cases stored
  · rw [nextFlows] at stored
    cases stored

-----------------------------------------------------------------------------------------
-- One table for each deduplication id
-----------------------------------------------------------------------------------------

/-- Candidates that only go stay in one table. -/
theorem Exclusive.of_subset (exclusive : b.Exclusive)
    (next : ∀ {key job}, after.next key = some job → b.next key = some job)
    (nextFlows : ∀ {key flow}, after.nextFlows key = some flow → b.nextFlows key = some flow)
    : after.Exclusive := by
  intro key
  rcases exclusive key with free | free
  · refine .inl (Option.eq_none_iff_forall_not_mem.mpr ?_)
    intro job stored
    rw [next stored] at free
    cases free
  · refine .inr (Option.eq_none_iff_forall_not_mem.mpr ?_)
    intro flow stored
    rw [nextFlows stored] at free
    cases free

theorem Exclusive.settles (exclusive : b.Exclusive) (settles : b.Settles after)
    : after.Exclusive :=
  exclusive.of_subset settles.next settles.nextFlows

/-- What is kept for a deduplication id replaces what was kept for it in either table. -/
theorem Exclusive.keep (exclusive : b.Exclusive) {job : Option Job} {flow : Option JobFlow}
    (one : job = none ∨ flow = none)
    : (b.keep key job flow).Exclusive := by
  intro other
  simp only [Board.keep, Function.update_apply]
  split
  · exact one
  · exact exclusive other

theorem Exclusive.coalesces (exclusive : b.Exclusive) {keepsJob : Job → Prop}
    {keepsFlow : JobFlow → Prop} (coalesces : b.Coalesces key ownerId keepsJob keepsFlow after)
    : after.Exclusive := by
  cases coalesces with
  | ignored => exact exclusive
  | keptJob => exact exclusive.keep (.inr rfl)
  | keptFlow => exact exclusive.keep (.inl rfl)
  | extended => exact exclusive

theorem Exclusive.sifts (exclusive : b.Exclusive) {children : List Job}
    {kept : String → Option Job} (sifts : b.Sifts now children kept after)
    : after.Exclusive := by
  intro key
  rw [sifts.next key, sifts.nextFlows key]
  cases kept key with
  | none => exact exclusive key
  | some child => exact .inr rfl

theorem OwnersEnd.kept {owners : List Job} (ends : OwnersEnd now b owners after)
    : (∀ {key job}, after.next key = some job → b.next key = some job)
      ∧ ∀ {key flow}, after.nextFlows key = some flow → b.nextFlows key = some flow := by
  induction ends with
  | nil => exact ⟨id, id⟩
  | cons first pruned _ ih =>
      exact ⟨fun stored => first.kept.1 (pruned.settles.next (ih.1 stored)),
        fun stored => first.kept.2 (pruned.settles.nextFlows (ih.2 stored))⟩

theorem Exclusive.ownersEnd (exclusive : b.Exclusive) {owners : List Job}
    (ends : OwnersEnd now b owners after)
    : after.Exclusive :=
  exclusive.of_subset ends.kept.1 ends.kept.2

theorem exclusive_empty : empty.Exclusive := fun _ => .inl rfl

/-- The end of an owner uses up what was kept under its deduplication id. -/
theorem OwnerEnds.consumes {owner : Job} {admitted : List Job}
    (ends : b.OwnerEnds owner now admitted after) (exclusive : b.Exclusive)
    (own : jobDeduplicationId owner = some key)
    : ¬ after.Keeps key := by
  cases ends with
  | keyless unowned =>
      rw [unowned] at own
      cases own
  | dropped known =>
      rw [known] at own
      obtain rfl := Option.some.inj own
      exact not_keeps (by simp [Board.keep]) (by simp [Board.keep])
  | @job other _ _ _ known stored =>
      rw [known] at own
      obtain rfl := Option.some.inj own
      have free := (exclusive other).resolve_left (by simp [stored])
      exact not_keeps (by simp [Board.keep]) (by simp [Board.keep, free])
  | flow known =>
      rw [known] at own
      obtain rfl := Option.some.inj own
      exact not_keeps (by simp [Board.keep]) (by simp [Board.keep])

/-- Owners that end in turn use up what was kept for each of them, by induction on them. -/
theorem OwnersEnd.consumes {owners : List Job} {owner : Job} (ends : OwnersEnd now b owners after)
    (exclusive : b.Exclusive) (member : owner ∈ owners) (own : jobDeduplicationId owner = some key)
    : ¬ after.Keeps key := by
  induction ends with
  | nil => cases member
  | cons first pruned later ih =>
      have next := (exclusive.of_subset first.kept.1 first.kept.2).settles pruned.settles
      rcases List.mem_cons.mp member with rfl | member
      · intro keeps
        refine first.consumes exclusive own (keeps_of_subset ?_ ?_ keeps)
        · exact fun stored => pruned.settles.next (OwnersEnd.kept later |>.1 stored)
        · exact fun stored => pruned.settles.nextFlows (OwnersEnd.kept later |>.2 stored)
      · exact ih next member

-----------------------------------------------------------------------------------------
-- Candidates beside their owners
-----------------------------------------------------------------------------------------

theorem anchored_empty : empty.Anchored := by
  rintro key (⟨_, stored⟩ | ⟨_, stored⟩) <;> cases stored

/-- Candidates that are stored beside owners, by writes that leave all owners. -/
theorem Anchored.keepsBeside (anchored : b.Anchored) (keeps : b.KeepsBeside after)
    (anchors : ∀ key id, b.Anchors key id → after.Anchors key id)
    : after.Anchored := by
  intro key stored
  rcases keeps key stored with before | ⟨id, owner⟩
  · obtain ⟨id, owner⟩ := anchored key before
    exact ⟨id, anchors key id owner⟩
  · exact ⟨id, anchors key id owner⟩

theorem Anchored.put (anchored : b.Anchored) {card : Card}
    (same : ∀ old, b.cards id = some old → old.phase.isTerminal = false →
      card.phase.isTerminal = false ∧ card.ownerKey = old.ownerKey)
    : (b.put id card).Anchored := by
  intro key stored
  obtain ⟨other, old, found, alive, own⟩ := anchored key stored
  refine ⟨other, ?_⟩
  unfold Anchors
  rw [put_cards]
  split
  · next isId =>
      subst isId
      obtain ⟨stillAlive, sameKey⟩ := same old found alive
      exact ⟨card, rfl, stillAlive, sameKey.trans own⟩
  · exact ⟨old, found, alive, own⟩

/-- A job that is given back still owns its deduplication id. -/
theorem Anchored.ready (anchored : b.Anchored) : (b.move id .ready).Anchored := by
  intro key stored
  obtain ⟨other, old, found, alive, own⟩ := anchored key stored
  refine ⟨other, ?_⟩
  unfold Anchors
  rw [move_cards]
  split
  · next isId =>
      subst isId
      rw [found]
      exact ⟨_, rfl, rfl, own⟩
  · exact ⟨old, found, alive, own⟩

/-- A job enters, and the owner that it replaces, if any, leaves to it what is kept. -/
theorem Anchored.enter (anchored : b.Anchored) {replaced : Option JobId}
    (absent : b.cards job.id = none ∨ replaced = some job.id) (ready : job.state.phase = .ready)
    (inherits
      : ∀ key id,
          replaced = some id
          → b.Keeps key
          → b.Anchors key id
          → jobDeduplicationId job = some key ∨ ∃ other, other ≠ id ∧ b.Anchors key other)
    : (b.enter replaced job).Anchored := by
  have stays {key : String} {id : JobId} (anchors : b.Anchors key id) (kept : replaced ≠ some id)
      : (b.enter replaced job).Anchors key id := by
    obtain ⟨card, found, rest⟩ := anchors
    have different : id ≠ job.id := by
      rintro rfl
      rcases absent with free | same
      · rw [free] at found
        cases found
      · exact kept same
    refine ⟨card, ?_, rest⟩
    unfold Board.enter
    rw [put_cards_ne different, without_cards_of_notMem kept, found]
  intro key stored
  obtain ⟨id, anchors⟩ := anchored key stored
  by_cases kept : replaced = some id
  · rcases inherits key id kept stored anchors with own | ⟨other, different, otherAnchors⟩
    · refine ⟨job.id, job.freshCard, put_cards_self, ?_, ?_⟩
      · rw [show job.freshCard.phase = .ready from ready]
        rfl
      · simp [Job.freshCard, Job.card, own, deduplicationOwnerReleased, Option.filter]
    · refine ⟨other, stays otherAnchors ?_⟩
      rw [kept]
      exact fun same => different (Option.some.inj same).symm
  · exact ⟨id, stays anchors kept⟩

/-- A job owns no deduplication id but its own. -/
theorem Anchors.key_eq {other : String} (anchors : b.Anchors other id) (owns : b.Owns now key id)
    : other = key := by
  obtain ⟨card, found, _, own⟩ := anchors
  obtain ⟨held, shown, owned⟩ := owns
  rw [found] at shown
  obtain rfl := Option.some.inj shown
  unfold Card.ownedKey at owned
  split at owned
  · cases owned
  · split at owned
    · cases owned
    · rw [own] at owned
      exact Option.some.inj owned

end Board

namespace InMemoryJobQueueState

variable {s : InMemoryJobQueueState} {after : Board} {find : Find} {job : Job} {now : DateTime}

-----------------------------------------------------------------------------------------
-- Submissions of single jobs
-----------------------------------------------------------------------------------------

/-- A submission keeps a candidate only beside an active owner, and a job that replaces an owner has
its deduplication id.
-/
theorem anchored_submitLocked
    {insert : InMemoryJobQueueState → Job → DateTime → InMemoryJobQueueState × Job}
    (inserts : ∀ t stored, (insert t stored now).1.board = t.board.put stored.id stored.freshCard)
    (submitted : Submitted job) (anchored : s.board.Anchored)
    : (s.submitLocked insert find job now).1.board.Anchored := by
  unfold submitLocked
  split
  · exact anchored
  · next absent =>
      have free := board_cards_none.mpr absent
      split
      · unfold insertUnlessRepeated
        split
        · exact anchored
        · have entered : s.board.enter none job = s.board.put job.id job.freshCard := by
            simp [Board.enter]
          rw [inserts, ← entered]
          refine anchored.enter (.inl free) submitted.ready ?_
          intro key id replaced
          cases replaced
      · next existing owned =>
          unfold findActiveDeduplicatedJob at owned
          split at owned
          · cases owned
          · next key active =>
              have own := activeDeduplicationId_some active
              obtain ⟨found, owns⟩ := owns_of_find owned
              split
              · next replaces =>
                  unfold deduplicationReplacesDelayedOwner at replaces
                  simp only [Bool.and_eq_true, Option.isNone_iff_eq_none] at replaces
                  have unseries := replaces.1.1.1.2
                  obtain ⟨stored, preserved, sameId, sameState, sameSeries, sameKey⟩
                      : ∃ stored, preserveReplacementDeduplicationExpiration job existing = stored
                          ∧ stored.id = job.id ∧ stored.state = job.state
                          ∧ stored.repeatKey = none
                          ∧ jobDeduplicationId stored = some key := by
                    refine ⟨_, rfl, ?_⟩
                    unfold preserveReplacementDeduplicationExpiration
                    simp only
                    split <;> exact ⟨rfl, rfl, unseries, own⟩
                  simp only [preserved]
                  rw [board_replacement inserts sameSeries]
                  refine anchored.enter (.inl (sameId ▸ free)) (sameState ▸ submitted.ready) ?_
                  rintro other id same _ anchors
                  obtain rfl := Option.some.inj same
                  exact .inl (anchors.key_eq owns ▸ sameKey)
              · have anchors (active : existing.state = .active)
                    : s.board.Anchors key existing.id :=
                  Board.anchors_of_owns (board_cards_of_get found) (by simpa [Job.card] using active)
                    owns
                have coalesces := coalesces_active_coalesceDuplicate s job existing now own
                refine anchored.keepsBeside ?_ (fun _ _ => coalesces.retimes.anchors)
                exact coalesces.keepsBeside (fun _ kept => anchors kept.2)
                  (fun _ impossible => impossible.elim)

/-- Bulk submissions one after the other, by induction on the jobs. -/
theorem anchored_submitAllLocked {jobs : List Job} (submitted : ∀ job ∈ jobs, Submitted job)
    (anchored : s.board.Anchored)
    : (s.submitAllLocked find now jobs).1.board.Anchored := by
  induction jobs generalizing s with
  | nil => exact anchored
  | cons job rest ih =>
      refine ih (fun other member => submitted other (List.mem_cons_of_mem job member)) ?_
      exact anchored_submitLocked (fun t stored => (board_insertSequenced t stored now).1)
        (submitted job List.mem_cons_self) anchored

theorem anchored_addAt (cron : Cron) (queue : QueueName) (name : String) (payload : Value)
    (options : JobOptions) (uuid : JobId) (anchored : s.board.Anchored)
    : (s.addAt cron find queue name payload options now uuid).1.board.Anchored := by
  unfold addAt
  split
  · exact anchored
  · exact anchored_submitLocked (fun t stored => (board_insertCreated t stored now).1)
      (submitted_new queue name payload options now uuid) anchored

theorem anchored_addManyAt (cron : Cron) (queue : QueueName) (specs : List (JobSpec × JobId))
    (anchored : s.board.Anchored)
    : (s.addManyAt cron find queue specs now).1.board.Anchored := by
  unfold addManyAt
  split
  · exact anchored
  · refine anchored_submitAllLocked ?_ anchored
    intro job member
    obtain ⟨entry, _, rfl⟩ := List.mem_map.mp member
    exact submitted_new _ _ _ _ _ _

-----------------------------------------------------------------------------------------
-- One table over an operation
-----------------------------------------------------------------------------------------

theorem Submits.exclusive (submits : s.Submits job now after) (exclusive : s.board.Exclusive)
    : after.Exclusive := by
  cases submits with
  | answered => exact exclusive
  | admitted => exact exclusive
  | coalesced _ _ coalesces => exact exclusive.coalesces coalesces

theorem SubmitsEach.exclusive {jobs : List Job} {t : InMemoryJobQueueState}
    (each : SubmitsEach find now s jobs t) (exclusive : s.board.Exclusive)
    : t.board.Exclusive := by
  induction each with
  | nil => exact exclusive
  | cons submits _ ih => exact ih (submits.exclusive exclusive)

/-- An operation keeps each candidate in one table, by cases on its change. -/
theorem exclusive_step (cron : Cron) (find : Find) (queue : QueueName) (op : Op)
    (exclusive : s.board.Exclusive)
    : (step cron find queue s op).board.Exclusive := by
  have change := change_step cron find queue s op
  generalize (step cron find queue s op).board = after at change ⊢
  cases change with
  | settled settles => exact exclusive.settles settles
  | disowned => exact exclusive.keep (.inl rfl)
  | detached _ _ settles =>
      refine Board.Exclusive.settles ?_ settles
      exact exclusive
  | retried _ _ _ settles =>
      refine Board.Exclusive.settles ?_ settles
      exact exclusive
  | submitted submits => exact submits.exclusive exclusive
  | submittedEach each => exact each.exclusive exclusive
  | upserted => exact exclusive
  | sifted _ _ sifts => exact exclusive.sifts sifts
  | coalesced _ _ _ coalesces => exact exclusive.coalesces coalesces
  | @joined _ _ _ _ p _ _ _ _ _ gathers _ _ _ settles =>
      refine Board.Exclusive.settles ?_ settles
      exact (exclusive.sifts gathers.sifts).of_subset (by simp) (by simp)
  | @created _ _ _ _ _ p _ _ _ _ _ _ gathers _ _ _ _ settles =>
      refine Board.Exclusive.settles ?_ settles
      exact (exclusive.sifts gathers.sifts).of_subset (by simp) (by simp)
  | concluded _ _ _ retires ends settles =>
      exact ((exclusive.settles retires.settles).ownersEnd ends).settles settles
  | continued _ _ _ _ _ retires _ kept settles =>
      refine Board.Exclusive.settles ?_ settles
      exact ((exclusive.settles retires.settles).settles kept).of_subset id id

end InMemoryJobQueueState

end Lane
