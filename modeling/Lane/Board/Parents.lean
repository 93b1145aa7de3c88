import Lane.Board.View

/-! What the helpers for flow parents do to the board: release, deferral, continuation,
failure and the restoration after a child's retry.
-/

namespace Lane

namespace Board

/-- The job is on the board, failed under this failure policy. -/
def FailedWith (b : Board) (id : JobId) (policy : FailurePolicy) : Prop :=
  ∃ card, b.cards id = some card ∧ card.phase = .failed ∧ card.policy = policy

/-- The job no longer holds back a parent that lists it, as far as its record tells. -/
def Settled (b : Board) (id : JobId) : Prop :=
  ∀ card, b.cards id = some card →
    card.phase = .completed
      ∨ card.phase = .failed
        ∧ (card.policy = .continueParent ∨ card.policy = .releaseDependency)

/-- The outcomes of checking whether a parent can leave the parked phase. -/
inductive Released (b : Board) (parentId : JobId) : Board → Prop
  | kept
    (blocked
      : ∀ card,
          b.cards parentId = some card
          → card.phase = .parked
          → ∃ child ∈ card.childIds, b.Unfinished child)
    : Released b parentId b
  | deferred {card : Card} (found : b.cards parentId = some card)
    (parked : card.phase = .parked)
    (finished : ∀ child ∈ card.childIds, ¬ b.Unfinished child)
    (failure : ∃ child ∈ card.childIds, b.FailedWith child .deferParent)
    : Released b parentId (b.move parentId .ready)
  | resolved {card : Card} (found : b.cards parentId = some card)
    (parked : card.phase = .parked)
    (settled : ∀ child ∈ card.childIds, b.Settled child)
    : Released b parentId (b.move parentId .ready)
  | failed {card : Card} {after : Board} (found : b.cards parentId = some card)
    (parked : card.phase = .parked)
    (finished : ∀ child ∈ card.childIds, ¬ b.Unfinished child)
    (failure : ∃ child ∈ card.childIds, b.FailedWith child .failParent)
    (pruned : (b.move parentId .failed).Pruned after)
    : Released b parentId after

/-- What a terminal failure does to the parent, by the failure policy of the child. -/
def ParentSettled (b : Board) (parentId : JobId) : FailurePolicy → Board → Prop
  | .deferParent, after =>
      (¬ b.Unfinished parentId ∧ after = b)
        ∨ (b.Unfinished parentId ∧ after = b.move parentId .ready)
  | .continueParent, after =>
      (¬ b.Parked parentId ∧ after = b)
        ∨ (b.Parked parentId ∧ after = b.move parentId .ready)
  | .releaseDependency, after => b.Released parentId after
  | .failParent, after =>
      (¬ b.Unfinished parentId ∧ after = b)
        ∨ (b.Unfinished parentId ∧ (b.move parentId .failed).Pruned after)

end Board

namespace InMemoryJobQueueState

variable {s : InMemoryJobQueueState} {parentId childId : JobId} {job parent : Job}
  {now : DateTime}

-----------------------------------------------------------------------------------------
-- Records and their cards
-----------------------------------------------------------------------------------------

/-- A retained record is unfinished on the board exactly when its state is not terminal. -/
theorem board_unfinished_iff (found : s.jobs.get parentId = some parent)
    : s.board.Unfinished parentId ↔ parent.state.isTerminal = false := by
  constructor
  · rintro ⟨card, shown, unfinished⟩
    rw [board_cards_of_get found] at shown
    obtain rfl := Option.some.inj shown
    simpa [Job.card] using unfinished
  · exact board_unfinished_of_get found

theorem board_parked_iff (found : s.jobs.get parentId = some parent)
    : s.board.Parked parentId ↔ parent.state = .waitingChildren := by
  constructor
  · rintro ⟨card, shown, parked⟩
    rw [board_cards_of_get found] at shown
    obtain rfl := Option.some.inj shown
    simpa [Job.card] using parked
  · intro parked
    exact ⟨_, board_cards_of_get found, by simp [Job.card, parked]⟩

theorem board_not_unfinished_of_absent (absent : s.jobs.get parentId = none)
    : ¬ s.board.Unfinished parentId := by
  rintro ⟨card, shown, _⟩
  rw [board_cards_none.mpr absent] at shown
  cases shown

/-- The flags behind the four failure policies. -/
theorem failurePolicy_eq_deferParent
    : failurePolicy job = .deferParent ↔ job.options.failParentOnFailure = true := by
  unfold failurePolicy
  split
  · next h => simp [h]
  · next h => split <;> [skip; split] <;> simp [h]

theorem failurePolicy_of_releases (defers : job.options.failParentOnFailure = false)
    (releases : childFailureReleasesDependency job = true)
    : failurePolicy job = .continueParent ∨ failurePolicy job = .releaseDependency := by
  unfold failurePolicy
  simp only [defers, releases, Bool.false_eq_true, if_false, if_true]
  split <;> simp

theorem failurePolicy_eq_failParent
    : failurePolicy job = .failParent
      ↔ job.options.failParentOnFailure = false
        ∧ childFailureReleasesDependency job = false := by
  unfold failurePolicy
  split
  · next h => simp [h]
  · next h =>
      split
      · next continues => simp [continues, childFailureReleasesDependency]
      · split
        · next releases => simp [releases]
        · next releases => simp [h, releases]

-----------------------------------------------------------------------------------------
-- Scheduling a parent
-----------------------------------------------------------------------------------------

/-- Scheduling a retained parent moves its card to the ready phase. -/
theorem board_scheduleParent (s : InMemoryJobQueueState) (found : s.jobs.get parent.id = some parent)
    (deferredFailure : Option String) (prev : JobState) (now : DateTime)
    : (s.scheduleParent parent deferredFailure prev now).1.board
      = s.board.move parent.id .ready := by
  unfold scheduleParent
  simp only
  rw [board_of_tables (emitEventLocked_tables _ _ _ _ _ _)]
  split
  · exact board_setJob_move (s := s.nextWaitingSequence.1) found rfl (fun released => by
      simp [Job.card, Card.moved, unleasedParent, jobDeduplicationId, failurePolicy,
        childFailureReleasesDependency])
  · exact board_setJob_move found rfl (fun released => by
      simp [Job.card, Card.moved, unleasedParent, jobDeduplicationId, failurePolicy,
        childFailureReleasesDependency])

/-- Deferral schedules a parent that has not finished, whatever it is doing. -/
theorem settled_deferParentFailureAfterChildFailureLocked (s : InMemoryJobQueueState)
    (parentId childId : JobId) (now : DateTime)
    : s.board.ParentSettled parentId .deferParent
        (s.deferParentFailureAfterChildFailureLocked parentId childId now).1.board := by
  unfold deferParentFailureAfterChildFailureLocked
  cases found : s.jobs.get parentId with
  | none => exact .inl ⟨board_not_unfinished_of_absent found, rfl⟩
  | some parent =>
      simp only
      split
      · next terminal =>
          exact .inl ⟨by rw [board_unfinished_iff found, terminal]; simp, rfl⟩
      · next unfinished =>
          obtain rfl := JobMap.get_id found
          exact .inr ⟨(board_unfinished_iff found).mpr (by simpa using unfinished),
            board_scheduleParent s found _ _ _⟩

/-- Continuation schedules a parked parent. -/
theorem settled_continueParentAfterChildFailureLocked (s : InMemoryJobQueueState)
    (parentId : JobId) (now : DateTime)
    : s.board.ParentSettled parentId .continueParent
        (s.continueParentAfterChildFailureLocked parentId now).1.board := by
  unfold continueParentAfterChildFailureLocked
  cases found : s.jobs.get parentId with
  | none =>
      refine .inl ⟨?_, rfl⟩
      rintro ⟨card, shown, _⟩
      rw [board_cards_none.mpr found] at shown
      cases shown
  | some parent =>
      simp only
      split
      · next notParked => exact .inl ⟨by rw [board_parked_iff found]; exact notParked, rfl⟩
      · next parked =>
          obtain rfl := JobMap.get_id found
          exact .inr ⟨(board_parked_iff found).mpr (by simpa using parked),
            board_scheduleParent s found _ _ _⟩

-----------------------------------------------------------------------------------------
-- Failing a parent
-----------------------------------------------------------------------------------------

theorem card_failedParent (parent : Job) (reason : String) (now : DateTime)
    (released : Finset (String × JobId))
    : (failedParent parent reason now).card released
      = (parent.card released).moved .failed := by
  simp [Job.card, Card.moved, failedParent, jobDeduplicationId, failurePolicy,
    childFailureReleasesDependency]

/-- A finished job may leave the board. -/
theorem pruned_removeJobRecordLocked (finished : ¬ s.board.Unfinished parentId)
    : s.board.Pruned (s.removeJobRecordLocked parentId).1.board :=
  ⟨{parentId}, by simpa using finished, board_removeJobRecordLocked s parentId⟩

theorem not_unfinished_move_failed {b : Board} (id : JobId)
    : ¬ (b.move id .failed).Unfinished id := by
  rintro ⟨card, shown, unfinished⟩
  rw [Board.move_cards, if_pos rfl, Option.map_eq_some_iff] at shown
  obtain ⟨_, _, rfl⟩ := shown
  simp [Card.moved, Phase.isTerminal] at unfinished

/-- The failure of a parent fails its card and prunes by the parent's own options. -/
theorem settled_failWaitingParentLocked (s : InMemoryJobQueueState) (parentId : JobId)
    (reason : String) (now : DateTime)
    : s.board.ParentSettled parentId .failParent
        (s.failWaitingParentLocked parentId reason now).1.board := by
  unfold failWaitingParentLocked
  cases found : s.jobs.get parentId with
  | none => exact .inl ⟨board_not_unfinished_of_absent found, rfl⟩
  | some parent =>
      simp only
      split
      · next terminal =>
          exact .inl ⟨by rw [board_unfinished_iff found, terminal]; simp, rfl⟩
      · next unfinished =>
          refine .inr ⟨(board_unfinished_iff found).mpr (by simpa using unfinished), ?_⟩
          have failed
              : (s.setJob (failedParent parent reason now)).board
                = s.board.move parentId .failed :=
            board_setJob_move found rfl (card_failedParent parent reason now)
          rw [board_of_tables (emitEventLocked_tables _ _ _ _ _ _), ← failed]
          split
          · apply pruned_removeJobRecordLocked
            rw [failed]
            exact not_unfinished_move_failed parentId
          · split
            · exact .refl _
            · exact pruned_applyFinishedRetentionLocked _ rfl _ _

-----------------------------------------------------------------------------------------
-- Releasing a parent
-----------------------------------------------------------------------------------------

/-- A pending scan met an unfinished child, by induction on the child list. -/
theorem scanChildren_pending {ids : List JobId}
    {childFailure : Option (JobId × Option String)} {deferredChildFailure : Option JobId}
    (scan : scanChildren s.jobs ids childFailure deferredChildFailure = .pending)
    : ∃ child ∈ ids, s.board.Unfinished child := by
  induction ids generalizing childFailure deferredChildFailure with
  | nil => cases scan
  | cons id rest ih =>
      have later : (∃ child ∈ rest, s.board.Unfinished child)
          → ∃ child ∈ id :: rest, s.board.Unfinished child := by
        rintro ⟨child, member, unfinished⟩
        exact ⟨child, List.mem_cons_of_mem id member, unfinished⟩
      simp only [scanChildren] at scan
      cases found : s.jobs.get id with
      | none =>
          simp only [found] at scan
          exact later (ih scan)
      | some child =>
          simp only [found] at scan
          cases state : child.state
          case completed =>
            simp only [state] at scan
            exact later (ih scan)
          case failed =>
            simp only [state] at scan
            split at scan
            · exact later (ih scan)
            · split at scan
              · exact later (ih scan)
              · exact later (ih scan)
          all_goals
            exact ⟨id, List.mem_cons_self, board_unfinished_of_get found
              (by simp [state, JobState.isTerminal])⟩

/-- What a settled scan says about the listed children and about its two failure slots. -/
structure ScanFacts (s : InMemoryJobQueueState) (ids : List JobId)
    (before after : Option (JobId × Option String)) (deferredBefore deferredAfter : Option JobId)
    : Prop where
  finished : ∀ child ∈ ids, ¬ s.board.Unfinished child
  deferral : deferredAfter ≠ none →
    deferredBefore ≠ none ∨ ∃ child ∈ ids, s.board.FailedWith child .deferParent
  failure : after ≠ none →
    before ≠ none ∨ ∃ child ∈ ids, s.board.FailedWith child .failParent
  quiet : after = none → deferredAfter = none →
    before = none ∧ deferredBefore = none ∧ ∀ child ∈ ids, s.board.Settled child

/-- One more child in front of a settled scan. -/
theorem ScanFacts.cons {ids : List JobId} {id : JobId}
    {before inner after : Option (JobId × Option String)}
    {deferredBefore deferredInner deferredAfter : Option JobId}
    (tail : ScanFacts s ids inner after deferredInner deferredAfter)
    (finished : ¬ s.board.Unfinished id)
    (deferral : deferredInner ≠ none →
      deferredBefore ≠ none ∨ s.board.FailedWith id .deferParent)
    (failure : inner ≠ none → before ≠ none ∨ s.board.FailedWith id .failParent)
    (quiet : inner = none → deferredInner = none →
      before = none ∧ deferredBefore = none ∧ s.board.Settled id)
    : ScanFacts s (id :: ids) before after deferredBefore deferredAfter := by
  refine ⟨?_, ?_, ?_, ?_⟩
  · intro child member
    rcases List.mem_cons.mp member with rfl | member
    · exact finished
    · exact tail.finished child member
  · intro found
    rcases tail.deferral found with inner | ⟨child, member, failed⟩
    · rcases deferral inner with early | here
      · exact .inl early
      · exact .inr ⟨id, List.mem_cons_self, here⟩
    · exact .inr ⟨child, List.mem_cons_of_mem id member, failed⟩
  · intro found
    rcases tail.failure found with inner | ⟨child, member, failed⟩
    · rcases failure inner with early | here
      · exact .inl early
      · exact .inr ⟨id, List.mem_cons_self, here⟩
    · exact .inr ⟨child, List.mem_cons_of_mem id member, failed⟩
  · intro noFailure noDeferral
    obtain ⟨noInner, noDeferredInner, rest⟩ := tail.quiet noFailure noDeferral
    obtain ⟨noBefore, noDeferredBefore, here⟩ := quiet noInner noDeferredInner
    refine ⟨noBefore, noDeferredBefore, ?_⟩
    intro child member
    rcases List.mem_cons.mp member with rfl | member
    · exact here
    · exact rest child member

/-- A settled scan has seen only finished children, by induction on the child list. -/
theorem scanChildren_settled {ids : List JobId}
    {before after : Option (JobId × Option String)} {deferredBefore deferredAfter : Option JobId}
    (scan : scanChildren s.jobs ids before deferredBefore = .settled after deferredAfter)
    : ScanFacts s ids before after deferredBefore deferredAfter := by
  induction ids generalizing before deferredBefore with
  | nil =>
      simp only [scanChildren, ChildScan.settled.injEq] at scan
      obtain ⟨rfl, rfl⟩ := scan
      exact ⟨by simp, .inl, .inl, fun none deferred => ⟨none, deferred, by simp⟩⟩
  | cons id rest ih =>
      simp only [scanChildren] at scan
      cases found : s.jobs.get id with
      | none =>
          simp only [found] at scan
          refine (ih scan).cons (board_not_unfinished_of_absent found) .inl .inl ?_
          intro none deferred
          refine ⟨none, deferred, ?_⟩
          intro card shown
          rw [board_cards_none.mpr found] at shown
          cases shown
      | some child =>
          simp only [found] at scan
          have shown := board_cards_of_get found
          have terminal (h : child.state.isTerminal = true) : ¬ s.board.Unfinished id := by
            rw [board_unfinished_iff found, h]
            simp
          have failedWith (state : child.state = .failed)
              : s.board.FailedWith id (failurePolicy child) :=
            ⟨_, shown, by simp [Job.card, state], rfl⟩
          cases state : child.state
          case completed =>
            simp only [state] at scan
            refine (ih scan).cons (terminal (by simp [state, JobState.isTerminal])) .inl .inl ?_
            intro none deferred
            refine ⟨none, deferred, ?_⟩
            intro card known
            rw [shown] at known
            obtain rfl := Option.some.inj known
            exact .inl (by simp [Job.card, state])
          case failed =>
            simp only [state] at scan
            have finished := terminal (by simp [state, JobState.isTerminal])
            have failed := failedWith state
            split at scan
            · next defers =>
                rw [failurePolicy_eq_deferParent.mpr defers] at failed
                exact (ih scan).cons finished (fun _ => .inr failed) .inl
                  (fun _ impossible => by cases impossible)
            · next defers =>
                have noDeferral : child.options.failParentOnFailure = false := by
                  simpa using defers
                split at scan
                · next releases =>
                    refine (ih scan).cons finished .inl .inl ?_
                    intro none deferred
                    refine ⟨none, deferred, ?_⟩
                    intro card known
                    rw [shown] at known
                    obtain rfl := Option.some.inj known
                    exact .inr ⟨by simp [Job.card, state],
                      failurePolicy_of_releases noDeferral releases⟩
                · next releases =>
                    have policy : failurePolicy child = .failParent :=
                      failurePolicy_eq_failParent.mpr ⟨noDeferral, by simpa using releases⟩
                    rw [policy] at failed
                    exact (ih scan).cons finished .inl (fun _ => .inr failed)
                      (fun impossible => by cases impossible)
          all_goals
            simp only [state] at scan
            cases scan

/-- The release check does what the board's release outcomes allow. -/
theorem released_releaseParentIfReadyLocked (s : InMemoryJobQueueState) (parentId : JobId)
    (now : DateTime)
    : s.board.Released parentId (s.releaseParentIfReadyLocked parentId now).1.board := by
  unfold releaseParentIfReadyLocked
  cases found : s.jobs.get parentId with
  | none =>
      refine .kept ?_
      intro card shown
      rw [board_cards_none.mpr found] at shown
      cases shown
  | some parent =>
      have shown := board_cards_of_get found
      simp only
      split
      · next notParked =>
          refine .kept ?_
          intro card known parked
          rw [shown] at known
          obtain rfl := Option.some.inj known
          simp only [Job.card, JobState.phase_eq_parked] at parked
          exact absurd parked notParked
      · next parkedState =>
          have parked : (parent.card s.releasedDeduplicationOwners).phase = .parked := by
            simpa [Job.card] using parkedState
          have unfinished : s.board.Unfinished parentId := ⟨_, shown, by rw [parked]; rfl⟩
          split
          · next scan =>
              refine .kept ?_
              intro card known _
              rw [shown] at known
              obtain rfl := Option.some.inj known
              exact scanChildren_pending scan
          · next childId scan =>
              have facts := scanChildren_settled scan
              rcases settled_deferParentFailureAfterChildFailureLocked s parentId childId now
                with ⟨finished, _⟩ | ⟨_, moved⟩
              · exact absurd unfinished finished
              · rw [moved]
                refine .deferred shown parked facts.finished ?_
                exact (facts.deferral (by simp)).resolve_left (by simp)
          · next childId reason scan =>
              have facts := scanChildren_settled scan
              rcases settled_failWaitingParentLocked s parentId
                (childFailedReason childId reason) now with ⟨finished, _⟩ | ⟨_, pruned⟩
              · exact absurd unfinished finished
              · refine .failed shown parked facts.finished ?_ pruned
                exact (facts.failure (by simp)).resolve_left (by simp)
          · next scan =>
              have facts := scanChildren_settled scan
              obtain rfl := JobMap.get_id found
              rw [board_scheduleParent s found]
              exact .resolved shown parked (facts.quiet rfl rfl).2.2

/-- Releasing an optional parent. -/
theorem settled_settleParentOfFailed (s : InMemoryJobQueueState) (failed : Job)
    (parentId : JobId) (now : DateTime)
    : s.board.ParentSettled parentId (failurePolicy failed)
        (s.settleParentOfFailed failed parentId now).board := by
  unfold settleParentOfFailed failurePolicy
  split
  · exact settled_deferParentFailureAfterChildFailureLocked s parentId failed.id now
  · split
    · exact settled_continueParentAfterChildFailureLocked s parentId now
    · split
      · exact released_releaseParentIfReadyLocked s parentId now
      · exact settled_failWaitingParentLocked s parentId _ now

/-- Restoring a dependency parks the parent again, unless it runs, finished or does not list
the child.
-/
theorem board_restoreParentDependencyAfterChildRetryLocked (s : InMemoryJobQueueState)
    (parentId childId : JobId) (now : DateTime)
    : (s.restoreParentDependencyAfterChildRetryLocked parentId childId now).1.board = s.board
      ∨ ∃ card,
          s.board.cards parentId = some card
          ∧ card.phase.isTerminal = false
          ∧ card.phase ≠ .active
          ∧ childId ∈ card.childIds
          ∧ (s.restoreParentDependencyAfterChildRetryLocked parentId childId now).1.board
            = s.board.move parentId .parked := by
  unfold restoreParentDependencyAfterChildRetryLocked
  cases found : s.jobs.get parentId with
  | none => exact .inl rfl
  | some parent =>
      simp only
      split
      · exact .inl rfl
      · next free =>
          split
          · exact .inl rfl
          · next listed =>
              simp only [not_or] at free
              refine .inr ⟨_, board_cards_of_get found, by simpa [Job.card] using free.1,
                by simpa [Job.card] using free.2, by simpa [Job.card] using listed, ?_⟩
              have cleared := clearChildDependencySideIndexLocked_tables s parentId childId
              have stored
                  : ((s.clearChildDependencySideIndexLocked parentId childId).1.setJob
                      (unleasedParent parent .waitingChildren)).board
                    = s.board.move parentId .parked := by
                rw [← board_of_tables cleared]
                have stillFound
                    : (s.clearChildDependencySideIndexLocked parentId childId).1.jobs.get parentId
                      = some parent := by
                  rw [jobs_of_tables cleared]
                  exact found
                refine board_setJob_move stillFound rfl ?_
                · intro released
                  simp [Job.card, Card.moved, unleasedParent, jobDeduplicationId,
                    failurePolicy, childFailureReleasesDependency]
              split
              · rw [board_of_tables (emitEventLocked_tables _ _ _ _ _ _), stored]
              · exact stored

end InMemoryJobQueueState

end Lane
