import Lane.Board.Failures

/-! Lease exclusivity: a job that a worker holds is only taken from it by the worker's own
operations, by the recovery of its expired lease, or by the failure of another job that
reaches its leased parent.
-/

namespace Lane

namespace InMemoryJobQueueState

/-- A worker holds the job under this lock token. -/
def HeldBy (s : InMemoryJobQueueState) (id : JobId) (token : JobLockToken) : Prop :=
  ∃ job, s.jobs.get id = some job ∧ job.state = .active ∧ job.lockToken = some token

instance (s : InMemoryJobQueueState) (id : JobId) (token : JobLockToken)
    : Decidable (s.HeldBy id token) :=
  decidable_of_iff
    ((s.jobs.get id).any (fun job => job.state == .active && job.lockToken == some token) = true)
    (by simp [HeldBy, Option.any_eq_true])

/-- The lease of the job has run out at `now`. -/
def Expired (s : InMemoryJobQueueState) (id : JobId) (now : DateTime) : Prop :=
  ∃ job, s.jobs.get id = some job ∧ leaseExpired now job = true

end InMemoryJobQueueState

/-- The operations that may end this lease: those that its worker calls with its token, the
recovery of expired leases, and a forced obliteration.
-/
def Op.MayEndLease (s : InMemoryJobQueueState) (op : Op) (id : JobId) (token : JobLockToken)
    : Prop :=
  op.endsLease = some (id, token)
    ∨ op = .obliterate true
    ∨ ∃ now, op = .recoverStalledJobs now ∧ s.Expired id now

/-- A failure policy with which a job's terminal failure moves a parent in any live state. -/
def FailurePolicy.reachesAnyParent (policy : FailurePolicy) : Prop :=
  policy = .deferParent ∨ policy = .failParent

/-- No job that the operation fails for good reaches a parent that a worker holds. -/
def InMemoryJobQueueState.SparesLeasedParents (s : InMemoryJobQueueState) (op : Op) : Prop :=
  ∀ job parentId token,
    s.FailsForGood op job
    → (failurePolicy job).reachesAnyParent
    → job.parentId = some parentId
    → s.HeldBy parentId token
    → op.MayEndLease s parentId token

namespace Board

variable {b middle after : Board} {id parentId : JobId} {card : Card} {token : JobLockToken}
  {now : DateTime} {job : Job}

-----------------------------------------------------------------------------------------
-- Effects that leave a lease alone
-----------------------------------------------------------------------------------------

/-- A lease is kept where the leased card keeps its phase and its token. -/
theorem Leased.of_card (leased : b.Leased id token)
    (persists
      : ∀ card,
          b.cards id = some card
          → card.phase = .active
          → ∃ new,
              after.cards id = some new
              ∧ new.phase = card.phase
              ∧ new.lockToken = card.lockToken)
    : after.Leased id token := by
  obtain ⟨card, found, active, own⟩ := leased
  obtain ⟨new, shown, samePhase, sameToken⟩ := persists card found active
  exact ⟨new, shown, samePhase.trans active, sameToken.trans own⟩

theorem Leased.of_same (leased : b.Leased id token)
    (same : ∀ card, b.cards id = some card → card.phase = .active → after.cards id = some card)
    : after.Leased id token :=
  leased.of_card (fun card found active => ⟨card, same card found active, rfl, rfl⟩)

/-- A job has one lock token. -/
theorem Leased.same_token {other : JobLockToken} (leased : b.Leased id token)
    (otherLeased : b.Leased id other)
    : token = other := by
  obtain ⟨card, found, _, own⟩ := leased
  obtain ⟨_, shown, _, theirs⟩ := otherLeased
  rw [found] at shown
  obtain rfl := Option.some.inj shown
  exact Option.some.inj (own.symm.trans theirs)

theorem Leased.pruned (leased : b.Leased id token) (pruned : b.Pruned after)
    : after.Leased id token :=
  leased.of_same (fun _ found active => pruned.cards_of_unfinished found (by rw [active]; rfl))

theorem Leased.released (leased : b.Leased id token) (released : b.Released parentId after)
    : after.Leased id token :=
  leased.of_same (fun _ found active =>
    released.card_after found (by rw [active]; rfl) (.inr (by rw [active]; decide)))

theorem Leased.releasedEach {parentIds : List JobId} (leased : b.Leased id token)
    (released : ReleasedEach b parentIds after)
    : after.Leased id token :=
  leased.of_same (fun _ found active =>
    released.card_after found (by rw [active]; rfl) (by rw [active]; decide))

theorem Leased.removed {ids parentIds : List JobId} (leased : b.Leased id token)
    (removes : b.Removes ids parentIds after)
    : after.Leased id token := by
  refine Leased.releasedEach (leased.of_same ?_) removes.released
  intro card found _
  rw [without_cards_of_notMem, found]
  exact fun member => removes.unleased id member token leased

theorem Leased.moved {phase : Phase} (leased : b.Leased id token) (different : id ≠ parentId)
    : (b.move parentId phase).Leased id token :=
  leased.of_same (fun _ found _ => by rw [move_cards_ne different, found])

theorem Leased.retimed (leased : b.Leased id token) (retimes : b.Retimes after)
    : after.Leased id token := by
  refine leased.of_card ?_
  intro card found _
  obtain ⟨new, shown, same⟩ := retimes.card_after found
  have samePhase := congrArg Card.phase same
  have sameToken := congrArg Card.lockToken same
  exact ⟨new, shown, samePhase, sameToken⟩

theorem Leased.grown (leased : b.Leased id token)
    (grows
      : ∀ card, b.cards id = some card → ∃ grown, after.cards id = some grown ∧ card.Grown grown)
    : after.Leased id token := by
  refine leased.of_card ?_
  intro card found _
  obtain ⟨grown, shown, more, rfl⟩ := grows card found
  exact ⟨_, shown, rfl, rfl⟩

theorem Leased.admitted {replaced : Option JobId} (leased : b.Leased id token)
    (admits : b.Admits now replaced job)
    : (b.enter replaced job).Leased id token := by
  refine leased.of_same ?_
  intro card found _
  refine enter_card_after found admits ?_
  intro same
  obtain ⟨_, _, _, _, _, unleased⟩ := admits.replacedFree same
  exact unleased token leased

/-- Filling a plan only touches the leases of the parent. -/
theorem Leased.filled {submittedParent : Bool} {children : List Job} {existingIds : List JobId}
    {p : FlowPlan} {parentCard : Card} (leased : b.Leased id token)
    (gathers : b.Gathers now submittedParent parentId children existingIds p)
    (different : id ≠ parentId)
    : (p.filled parentId parentCard).Leased id token := by
  refine (leased.retimed gathers.sifts.retimes).of_card ?_
  intro card found _
  rcases gathers.card_after found different with ⟨_, shown⟩ | ⟨_, shown⟩
  · exact ⟨_, shown, rfl, rfl⟩
  · exact ⟨_, shown, rfl, rfl⟩

theorem Leased.ended {p : FlowPlan} {filled : Board} (leased : filled.Leased id token)
    (ends : p.Ends parentId filled after)
    : after.Leased id token := by
  rcases ends with ⟨_, rfl⟩ | ⟨_, released⟩
  · exact leased
  · exact leased.released released

/-- A reported failure spares a lease unless it reaches the parent in any state. -/
theorem Leased.reported {failed : Job} (leased : b.Leased id token)
    (reported : b.FailureReported failed after)
    (spared : failed.parentId = some id → ¬ (failurePolicy failed).reachesAnyParent)
    : after.Leased id token := by
  unfold FailureReported at reported
  split at reported
  · exact reported ▸ leased
  · next parentId named =>
      by_cases same : parentId = id
      · subst same
        have unreached := spared named
        cases policy : failurePolicy failed with
        | deferParent => exact absurd (.inl policy) unreached
        | failParent => exact absurd (.inr policy) unreached
        | continueParent =>
            rw [policy] at reported
            rcases reported with ⟨_, rfl⟩ | ⟨⟨card, found, parked⟩, _⟩
            · exact leased
            · obtain ⟨_, shown, active, _⟩ := leased
              rw [found] at shown
              obtain rfl := Option.some.inj shown
              rw [parked] at active
              cases active
        | releaseDependency =>
            rw [policy] at reported
            exact leased.released reported
      · have different : id ≠ parentId := fun equal => same equal.symm
        revert reported
        cases failurePolicy failed with
        | deferParent =>
            rintro (⟨_, rfl⟩ | ⟨_, rfl⟩)
            · exact leased
            · exact leased.moved different
        | failParent =>
            rintro (⟨_, rfl⟩ | ⟨_, pruned⟩)
            · exact leased
            · exact (leased.moved different).pruned pruned
        | continueParent =>
            rintro (⟨_, rfl⟩ | ⟨_, rfl⟩)
            · exact leased
            · exact leased.moved different
        | releaseDependency => exact leased.released

theorem Leased.ownersEnd {owners : List Job} (leased : b.Leased id token)
    (ends : OwnersEnd now b owners after)
    : after.Leased id token := by
  induction ends with
  | nil => exact leased
  | cons ends pruned _ ih => exact ih ((leased.grown (fun _ => ends.card_after)).pruned pruned)

theorem Leased.failuresReported {failures : List Job} (leased : b.Leased id token)
    (reported : FailuresReported b failures after)
    (spared
      : ∀ failed ∈ failures,
          failed.parentId = some id → ¬ (failurePolicy failed).reachesAnyParent)
    : after.Leased id token := by
  induction reported with
  | nil => exact leased
  | cons first _ ih =>
      exact ih (leased.reported first (spared _ List.mem_cons_self))
        (fun failed member => spared failed (List.mem_cons_of_mem _ member))

-----------------------------------------------------------------------------------------
-- Effects that end a lease
-----------------------------------------------------------------------------------------

/-- A move to a phase other than active ends every lease of the job. -/
theorem not_leased_move {phase : Phase} : ¬ (b.move id phase).Leased id token := by
  rintro ⟨card, shown, _, own⟩
  rw [move_cards, if_pos rfl] at shown
  obtain ⟨old, _, rfl⟩ := Option.map_eq_some_iff.mp shown
  cases own

theorem Pruned.leased_before (pruned : b.Pruned after) (leased : after.Leased id token)
    : b.Leased id token := by
  obtain ⟨card, shown, active, own⟩ := leased
  exact ⟨card, pruned.cards_some shown, active, own⟩

theorem leased_before_move {phase : Phase} (leased : (b.move parentId phase).Leased id token)
    : b.Leased id token := by
  by_cases same : id = parentId
  · subst same
    exact absurd leased not_leased_move
  · obtain ⟨card, shown, active, own⟩ := leased
    rw [move_cards_ne same] at shown
    exact ⟨card, shown, active, own⟩

theorem Released.leased_before (released : b.Released parentId after)
    (leased : after.Leased id token)
    : b.Leased id token := by
  cases released with
  | kept => exact leased
  | deferred => exact leased_before_move leased
  | resolved => exact leased_before_move leased
  | failed _ _ _ _ pruned => exact leased_before_move (pruned.leased_before leased)

/-- Reporting a failure starts no lease. -/
theorem FailureReported.leased_before {failed : Job} (reported : b.FailureReported failed after)
    (leased : after.Leased id token)
    : b.Leased id token := by
  unfold FailureReported at reported
  split at reported
  · exact reported ▸ leased
  · revert reported
    cases failurePolicy failed with
    | deferParent =>
        rintro (⟨_, rfl⟩ | ⟨_, rfl⟩)
        · exact leased
        · exact leased_before_move leased
    | failParent =>
        rintro (⟨_, rfl⟩ | ⟨_, pruned⟩)
        · exact leased
        · exact leased_before_move (pruned.leased_before leased)
    | continueParent =>
        rintro (⟨_, rfl⟩ | ⟨_, rfl⟩)
        · exact leased
        · exact leased_before_move leased
    | releaseDependency => exact fun released => released.leased_before leased

/-- A failure that reaches its parent in any live state leaves it without a lease. -/
theorem FailureReported.not_leased {failed : Job} (reported : b.FailureReported failed after)
    (named : failed.parentId = some parentId)
    (reaches : (failurePolicy failed).reachesAnyParent)
    : ¬ after.Leased parentId token := by
  intro leased
  have before := reported.leased_before leased
  simp only [FailureReported, named] at reported
  rcases reaches with policy | policy
  · rw [policy] at reported
    rcases reported with ⟨finished, _⟩ | ⟨_, rfl⟩
    · exact finished before.unfinished
    · exact not_leased_move leased
  · rw [policy] at reported
    rcases reported with ⟨finished, _⟩ | ⟨_, pruned⟩
    · exact finished before.unfinished
    · exact not_leased_move (pruned.leased_before leased)

/-- One failure among those reported is enough, by induction on the reports. -/
theorem FailuresReported.not_leased {failures : List Job} {failed : Job}
    (reported : FailuresReported b failures after) (member : failed ∈ failures)
    (named : failed.parentId = some parentId)
    (reaches : (failurePolicy failed).reachesAnyParent)
    : ¬ after.Leased parentId token := by
  have leased_before {b after : Board} {failures : List Job}
      (reported : FailuresReported b failures after) (leased : after.Leased parentId token)
      : b.Leased parentId token := by
    induction reported with
    | nil => exact leased
    | cons first _ ih => exact first.leased_before (ih leased)
  induction reported with
  | nil => cases member
  | cons first later ih =>
      rcases List.mem_cons.mp member with rfl | inRest
      · exact fun leased => first.not_leased named reaches (leased_before later leased)
      · exact ih inRest

end Board

namespace InMemoryJobQueueState

variable {cron : Cron} {find : Find} {queue : QueueName} {s : InMemoryJobQueueState}
  {id jobId : JobId} {token : JobLockToken} {op : Op} {now : DateTime} {job : Job}

theorem heldBy_iff : s.HeldBy id token ↔ s.board.Leased id token := board_leased_iff.symm

/-- An unexpired lease is not among those that a recovery sweeps. -/
theorem leased_sweep (leased : s.board.Leased id token) (unexpired : ¬ s.Expired id now)
    (removes : Job → Bool)
    : ((s.board.sweep ((s.stalledForGood now).map Job.id) (s.requeuedIds now)).without
        {other | other ∈ ((s.stalledForGood now).filter removes).map Job.id}).Leased id token := by
  have apart {job : Job} (member : job ∈ s.stalledJobs now) : job.id ≠ id := by
    rintro rfl
    obtain ⟨found, expired⟩ := mem_stalledJobs.mp member
    exact unexpired ⟨job, found, expired⟩
  have unfailed : id ∉ (s.stalledForGood now).map Job.id := by
    intro member
    obtain ⟨job, inFilter, same⟩ := List.mem_map.mp member
    exact apart (List.mem_filter.mp inFilter).1 same
  have unrequeued : id ∉ s.requeuedIds now := by
    intro member
    obtain ⟨job, inFilter, same⟩ := List.mem_map.mp member
    exact apart (List.mem_filter.mp inFilter).1 same
  refine leased.of_same ?_
  intro card found _
  rw [Board.without_cards_of_notMem
    (fun member => unfailed ((List.filter_sublist.map Job.id).subset member))]
  simp only [Board.sweep, if_neg unfailed, if_neg unrequeued, found]

theorem Submits.leased {after : Board} (submits : s.Submits job now after)
    (leased : s.board.Leased id token)
    : after.Leased id token := by
  cases submits with
  | answered => exact leased
  | admitted _ _ admits _ => exact leased.admitted admits
  | coalesced _ _ coalesces => exact leased.retimed coalesces.retimes

theorem leased_submitsEach {jobs : List Job} {t : InMemoryJobQueueState}
    (each : SubmitsEach find now s jobs t) (leased : s.board.Leased id token)
    : t.board.Leased id token := by
  induction each with
  | nil => exact leased
  | cons submits _ ih => exact ih (submits.leased leased)

/-- A lease survives every operation that may not end it and whose failures spare it. -/
theorem leased_step (fresh : FreshIds s op) (leased : s.board.Leased id token)
    (kept : ¬ op.MayEndLease s id token) (spares : s.SparesLeasedParents op)
    : (step cron find queue s op).board.Leased id token := by
  have effect := effect_step cron find queue s op
  generalize (step cron find queue s op).board = after at effect ⊢
  cases effect with
  | quiet => exact leased
  | claimed found ready =>
      refine leased.of_same ?_
      intro card shown active
      rw [Board.put_cards_ne, shown]
      rintro rfl
      rw [shown] at found
      obtain rfl := Option.some.inj found
      rw [active] at ready
      cases ready
  | handedBack ends other =>
      refine leased.moved ?_
      rintro rfl
      rw [leased.same_token other] at kept
      exact kept (.inl ends)
  | removed _ removes => exact leased.removed removes
  | removedUnprocessed removes => exact leased.removed removes
  | detached _ _ released =>
      refine Board.Leased.released (leased.of_card ?_) released
      intro card found active
      simp only [Board.orphan_cards, Board.unlist_cards]
      split <;> split <;> simp_all
  | disowned owns =>
      refine leased.of_card ?_
      intro card found _
      rw [Board.disown_cards]
      split
      · next same =>
          rw [Board.keep_cards, ← same, found]
          exact ⟨_, rfl, rfl, rfl⟩
      · exact ⟨card, found, rfl, rfl⟩
  | @retried retriedId now job enqueuedSeq _ found terminal _ restored =>
      have ready
          : (s.board.put retriedId (retriedJob job enqueuedSeq now).freshCard).Leased id token := by
        refine leased.of_same ?_
        intro card shown active
        rw [Board.put_cards_ne, shown]
        rintro rfl
        rw [board_cards_of_get found] at shown
        obtain rfl := Option.some.inj shown
        rw [← JobState.phase_isTerminal, show job.state.phase = .active from active]
          at terminal
        cases terminal
      rcases restored with rfl | ⟨parentId, parent, _, shown, _, inactive, _, rfl⟩
      · exact ready
      · refine ready.moved ?_
        rintro rfl
        obtain ⟨_, same, active, _⟩ := ready
        rw [same] at shown
        obtain rfl := Option.some.inj shown
        exact inactive active
  | obliterated allowed =>
      rcases allowed with rfl | unleased
      · exact absurd (.inr (.inl rfl)) kept
      · exact absurd leased (unleased id token)
  | submitted submits => exact submits.leased leased
  | submittedEach each => exact leased_submitsEach each leased
  | upserted admits => exact leased.admitted admits
  | @flow _ _ _ parentJob _ _ _ _ _ submits =>
      cases submits with
      | refused => exact leased
      | sifted sifts => exact leased.retimed sifts.retimes
      | coalesced _ _ coalesces => exact leased.retimed coalesces.retimes
      | joined found retimed gathers ends =>
          refine Board.Leased.ended ?_ ends
          obtain ⟨card, shown, active, own⟩ := leased.retimed gathers.sifts.retimes
          by_cases same : id = parentJob.id
          · subst same
            rw [retimed] at shown
            obtain rfl := Option.some.inj shown
            exact ⟨_, gathers.parent_card, active, own⟩
          · exact leased.filled gathers same
      | created absent gathers _ _ ends =>
          refine (leased.filled gathers ?_).ended ends
          rintro rfl
          obtain ⟨card, found, _⟩ := leased
          rw [found] at absent
          cases absent
  | fanOut _ _ fans =>
      cases fans with
      | refused => exact leased
      | sifted sifts => exact leased.retimed sifts.retimes
      | fannedOut other retimed gathers ends =>
          refine (leased.filled gathers ?_).ended ends
          rintro rfl
          rw [leased.same_token other] at kept
          exact kept (.inl rfl)
  | @completed jobId lockToken _ now uuid _ _ _ accepted pruned _ completes =>
      obtain ⟨found, active, own⟩ := requireCompletable_ok accepted
      have different : id ≠ jobId := by
        rintro rfl
        have other : s.board.Leased id lockToken := board_leased_iff.mpr ⟨_, found, active, own⟩
        rw [leased.same_token other] at kept
        exact kept (.inl rfl)
      have settled := (leased.moved different).pruned pruned
      cases completes with
      | stopped ends => exact settled.grown (fun _ => ends.card_after)
      | finished ends _ released => exact (settled.grown (fun _ => ends.card_after)).releasedEach released
      | continued ends scheduled released =>
          refine Board.Leased.releasedEach ?_ released
          refine (settled.grown (fun _ => ends.card_after)).of_same ?_
          intro card shown _
          rw [Board.put_cards_ne, shown]
          rintro rfl
          rw [cards_of_ownerEnds_nil ends] at shown
          have before := pruned.cards_some shown
          rw [(succeeds_nextRepeatJob scheduled).id] at before
          have absent : s.board.cards uuid = none :=
            absent_of_fresh fresh (by simp [Op.generatedIds])
          rw [Board.move_cards] at before
          split at before
          · next same =>
              rw [← same, absent] at before
              cases before
          · rw [absent] at before
            cases before
  | @failed _ jobId lockToken error now allowRetry job _ _ _ _ ends reports accepted terminal pruned _
      owner reported =>
      obtain ⟨found, active, own⟩ := requireOwnedActive_ok accepted
      have sameId : job.id = jobId := JobMap.get_id found
      have different : id ≠ jobId := by
        rintro rfl
        have other : s.board.Leased id lockToken := board_leased_iff.mpr ⟨_, found, active, own⟩
        rw [leased.same_token other] at kept
        exact kept (.inl ends)
      have ended := ((leased.moved different).pruned pruned).grown (fun _ => owner.card_after)
      refine ended.reported reported ?_
      intro named reaches
      refine kept (spares job id token ⟨by rw [sameId]; exact found, .inl ?_⟩ reaches named
        (heldBy_iff.mpr leased))
      exact ⟨lockToken, error, now, allowRetry, by rw [sameId]; exact ends, reports, active, own,
        terminal⟩
  | @recovered now _ _ owners reported =>
      have unexpired : ¬ s.Expired id now := fun expired => kept (.inr (.inr ⟨now, rfl, expired⟩))
      refine ((leased_sweep leased unexpired _).ownersEnd owners).failuresReported reported ?_
      intro failed member named reaches
      obtain ⟨found, expired, terminal⟩ := mem_stalledForGood.mp (mem_reportedFailures.mp member)
      exact kept (spares failed id token ⟨found, .inr ⟨now, rfl, expired, terminal⟩⟩ reaches named
        (heldBy_iff.mpr leased))

-----------------------------------------------------------------------------------------
-- Exactly when leases are exclusive
-----------------------------------------------------------------------------------------

/-- An operation that fails a job for good and reaches its leased parent ends that lease. -/
theorem not_leased_step {parentId : JobId} (fails : s.FailsForGood op job)
    (reaches : (failurePolicy job).reachesAnyParent) (named : job.parentId = some parentId)
    : ¬ (step cron find queue s op).board.Leased parentId token := by
  obtain ⟨found, ⟨lockToken, error, now, allowRetry, ends, reports, active, own, terminal⟩
    | ⟨now, rfl, expired, terminal⟩⟩ := fails
  · rw [step_of_reports ends reports]
    rcases board_failActiveJob_of_owned (requireOwnedActive_of_owned "fail" found active own) with
      ⟨retries, _⟩ | ⟨_, _, _, _, _, _, _, reported⟩
    · rw [terminal] at retries
      cases retries
    · exact reported.not_leased named reaches
  · obtain ⟨_, _, reported⟩ := board_recoverStalledJobs s now
    have failed : job ∈ reportedFailures (s.stalledForGood now) :=
      mem_reportedFailures.mpr (mem_stalledForGood.mpr ⟨found, expired, terminal⟩)
    exact reported.not_leased failed named reaches

/-- An operation keeps every lease that it may not end exactly when no job that it fails for
good reaches a leased parent. This is so in every state, reachable or not.
-/
theorem keeps_leases_iff (cron : Cron) (queue : QueueName) (s : InMemoryJobQueueState)
    (call : Call) (fresh : FreshIds s call.op)
    : (∀ id token,
        s.HeldBy id token
        → ¬ call.op.MayEndLease s id token
        → (step cron call.find queue s call.op).HeldBy id token)
      ↔ s.SparesLeasedParents call.op := by
  constructor
  · intro keeps job parentId token fails reaches named held
    by_contra kept
    exact not_leased_step fails reaches named (heldBy_iff.mp (keeps parentId token held kept))
  · intro spares id token held kept
    exact heldBy_iff.mpr (leased_step fresh (heldBy_iff.mp held) kept spares)

end InMemoryJobQueueState

-----------------------------------------------------------------------------------------
-- A parent that loses its lease to a child's failure
-----------------------------------------------------------------------------------------

/-- A flow whose first child lets its parent continue. The parent is claimed again while
the second child still runs.
-/
def continuedParent : InMemoryJobQueueState :=
  serve noCron "queue" {}
    [ { op := .addFlowAt ({ name := "parent" }, "parent")
          [({ name := "first", options := { continueParentOnFailure := true } }, "first"),
            ({ name := "second" }, "second")] 0 },
      { op := .claimNext "worker" 10 0 "lease-1" },
      { op := .claimNext "worker" 10 0 "lease-2" },
      { op := .failJobDiscardingRetry "first" "lease-1" "boom" 1 },
      { op := .claimNext "worker" 10 1 "lease-3" } ]

theorem reachable_continuedParent : Reachable noCron "queue" continuedParent :=
  reaches_serve (by decide +kernel)

/-- The second child's failure takes the parent from the worker that holds it. -/
theorem lease_lost_to_child_failure
    : ¬ ∀ (cron : Cron) (queue : QueueName) (s : InMemoryJobQueueState) (call : Call),
        Reachable cron queue s
        → FreshIds s call.op
        → ∀ id token,
            s.HeldBy id token
            → ¬ call.op.MayEndLease s id token
            → (step cron call.find queue s call.op).HeldBy id token := by
  intro keeps
  have held := keeps noCron "queue" continuedParent
    { op := .failJobDiscardingRetry "second" "lease-2" "boom" 2 } reachable_continuedParent
    (by decide +kernel) "parent" "lease-3" (by decide +kernel)
    (by simp [Op.MayEndLease, Op.endsLease])
  revert held
  decide +kernel

/-- The equivalence at the completion of the second child, which spares the parent. -/
theorem keeps_leases_iff_continuedParent
    : (∀ id token,
        continuedParent.HeldBy id token
        → ¬ (Op.completeJob "second" "lease-2" .null 2 "next").MayEndLease continuedParent id token
        → (step noCron .first "queue" continuedParent
            (.completeJob "second" "lease-2" .null 2 "next")).HeldBy id token)
      ↔ continuedParent.SparesLeasedParents (.completeJob "second" "lease-2" .null 2 "next") :=
  InMemoryJobQueueState.keeps_leases_iff noCron "queue" continuedParent
    { op := .completeJob "second" "lease-2" .null 2 "next" } (by decide +kernel)

end Lane
