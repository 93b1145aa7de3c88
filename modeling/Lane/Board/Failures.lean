import Lane.Board.Changes

/-! What an operation that fails jobs for good does to the parents of these jobs, and to theirs. -/

namespace Lane

namespace Board

variable {b middle settled ended after : Board} {id parentId : JobId} {now : DateTime}
  {failed owner : Job} {owners failures : List Job} {policy : FailurePolicy}

/-- The job has failed, unless its record is gone. -/
def FailedOrGone (b : Board) (id : JobId) : Prop :=
  ∀ card, b.cards id = some card → card.phase = .failed

theorem FailedOrGone.settles (ends : b.FailedOrGone id) (settles : b.Settles after)
    : after.FailedOrGone id := by
  intro card found
  obtain ⟨old, shown, _, stays⟩ := settles.card found
  have failed := ends old shown
  exact (stays (by rw [failed]; rfl)).trans failed

theorem failedOrGone_of_move (pruned : (b.move id .failed).Pruned after)
    : after.FailedOrGone id := by
  intro card found
  have shown := pruned.cards_some found
  rw [move_cards, if_pos rfl] at shown
  obtain ⟨old, _, rfl⟩ := Option.map_eq_some_iff.mp shown
  rfl

theorem FailedOrGone.not_unfinished (ends : b.FailedOrGone id) : ¬ b.Unfinished id := by
  rintro ⟨card, found, alive⟩
  rw [ends card found] at alive
  cases alive

-----------------------------------------------------------------------------------------
-- One report
-----------------------------------------------------------------------------------------

theorem Unfinished.move_other {other : JobId} {phase : Phase} (unfinished : b.Unfinished id)
    (different : id ≠ other)
    : (b.move other phase).Unfinished id := by
  obtain ⟨card, found, alive⟩ := unfinished
  exact ⟨card, by rw [move_cards_ne different, found], alive⟩

theorem Unfinished.move_ready {other : JobId} (unfinished : b.Unfinished id)
    : (b.move other .ready).Unfinished id := by
  by_cases same : id = other
  · subst same
    obtain ⟨card, found, _⟩ := unfinished
    exact ⟨card.moved .ready, by rw [move_cards, if_pos rfl, found]; rfl, rfl⟩
  · exact unfinished.move_other same

/-- A failed job that fails its parent leaves it failed. -/
theorem ParentSettled.failsParent (settled : b.ParentSettled parentId .failParent after)
    (unfinished : b.Unfinished parentId)
    : after.FailedOrGone parentId := by
  rcases settled with ⟨finished, _⟩ | ⟨_, pruned⟩
  · exact absurd unfinished finished
  · exact failedOrGone_of_move pruned

/-- Only a failed job that fails or releases its parent can finish an unfinished job. -/
theorem ParentSettled.unfinished (settled : b.ParentSettled parentId policy after)
    (unfinished : b.Unfinished id)
    (spares : id ≠ parentId ∨ policy ≠ .failParent ∧ policy ≠ .releaseDependency)
    : after.Unfinished id := by
  cases policy with
  | deferParent =>
      rcases settled with ⟨_, rfl⟩ | ⟨_, rfl⟩
      · exact unfinished
      · exact unfinished.move_ready
  | continueParent =>
      rcases settled with ⟨_, rfl⟩ | ⟨_, rfl⟩
      · exact unfinished
      · exact unfinished.move_ready
  | releaseDependency =>
      have different := spares.resolve_right (fun apart => apart.2 rfl)
      obtain ⟨card, found, alive⟩ := unfinished
      exact ⟨card, Released.card_after settled found alive (.inl different), alive⟩
  | failParent =>
      have different := spares.resolve_right (fun apart => apart.1 rfl)
      rcases settled with ⟨_, rfl⟩ | ⟨_, pruned⟩
      · exact unfinished
      · exact pruned.unfinished (unfinished.move_other different)

/-- An unfinished job stays unfinished or fails, whatever is reported to its parent. -/
theorem ParentSettled.unfinished_or (settled : b.ParentSettled parentId policy after)
    (unfinished : b.Unfinished id)
    : after.Unfinished id ∨ after.FailedOrGone id := by
  by_cases same : id = parentId
  · subst same
    cases policy with
    | deferParent => exact .inl (settled.unfinished unfinished (.inr ⟨nofun, nofun⟩))
    | continueParent => exact .inl (settled.unfinished unfinished (.inr ⟨nofun, nofun⟩))
    | failParent => exact .inr (settled.failsParent unfinished)
    | releaseDependency =>
        cases settled with
        | kept => exact .inl unfinished
        | deferred => exact .inl unfinished.move_ready
        | resolved => exact .inl unfinished.move_ready
        | failed _ _ _ _ pruned => exact .inr (failedOrGone_of_move pruned)
  · exact .inl (settled.unfinished unfinished (.inl same))

-----------------------------------------------------------------------------------------
-- All reports of an operation
-----------------------------------------------------------------------------------------

/-- The failed job fails the parent that it names. -/
def FailsParent (failed : Job) (parentId : JobId) : Prop :=
  failed.parentId = some parentId ∧ failurePolicy failed = .failParent

/-- The failed job releases the dependency of the parent that it names. -/
def ReleasesParent (failed : Job) (parentId : JobId) : Prop :=
  failed.parentId = some parentId ∧ failurePolicy failed = .releaseDependency

theorem FailureReported.unfinished (reported : b.FailureReported failed after)
    (unfinished : b.Unfinished id) (spared : ¬ FailsParent failed id)
    (unreleased : ¬ ReleasesParent failed id)
    : after.Unfinished id := by
  unfold FailureReported at reported
  unfold FailsParent at spared
  unfold ReleasesParent at unreleased
  cases named : failed.parentId with
  | none =>
      rw [named] at reported
      exact reported ▸ unfinished
  | some parentId =>
      rw [named] at reported spared unreleased
      refine ParentSettled.unfinished reported unfinished ?_
      by_cases same : id = parentId
      · subst same
        exact .inr ⟨fun fails => spared ⟨rfl, fails⟩, fun releases => unreleased ⟨rfl, releases⟩⟩
      · exact .inl same

theorem FailureReported.unfinished_or (reported : b.FailureReported failed after)
    (unfinished : b.Unfinished id)
    : after.Unfinished id ∨ after.FailedOrGone id := by
  unfold FailureReported at reported
  split at reported
  · exact .inl (reported ▸ unfinished)
  · exact ParentSettled.unfinished_or reported unfinished

/-- A job that nothing fails or releases stays unfinished, by induction on the reports. -/
theorem FailuresReported.unfinished (reported : FailuresReported b failures after)
    (unfinished : b.Unfinished id)
    (spared : ∀ failed ∈ failures, ¬ FailsParent failed id ∧ ¬ ReleasesParent failed id)
    : after.Unfinished id := by
  induction reported with
  | nil => exact unfinished
  | cons first _ ih =>
      obtain ⟨unfailed, unreleased⟩ := spared _ List.mem_cons_self
      exact ih (first.unfinished unfinished unfailed unreleased)
        (fun other member => spared other (List.mem_cons_of_mem _ member))

/-- A job that a reported failure fails has failed at the end, by induction on the reports: before
that failure it is unfinished or has failed already, and then it stays failed.
-/
theorem FailuresReported.failsParent (reported : FailuresReported b failures after)
    (alive : b.Unfinished id ∨ b.FailedOrGone id)
    (fails : ∃ failed ∈ failures, FailsParent failed id)
    : after.FailedOrGone id := by
  induction reported with
  | nil =>
      obtain ⟨failed, member, _⟩ := fails
      cases member
  | @cons b middle after failed rest first later ih =>
      rcases alive with unfinished | ended
      · obtain ⟨other, member, named, policy⟩ := fails
        rcases List.mem_cons.mp member with rfl | member
        · unfold FailureReported at first
          rw [named, policy] at first
          exact (ParentSettled.failsParent first unfinished).settles later.settles
        · exact ih (first.unfinished_or unfinished) ⟨other, member, named, policy⟩
      · exact (ended.settles first.settles).settles later.settles

/-- An unfinished job outlives the ends of owners, by induction on them. -/
theorem OwnersEnd.unfinished (ends : OwnersEnd now b owners after) (unfinished : b.Unfinished id)
    : after.Unfinished id := by
  induction ends with
  | nil => exact unfinished
  | cons first pruned _ ih =>
      obtain ⟨card, found, alive⟩ := unfinished
      obtain ⟨_, shown, more, rfl⟩ := first.card_after found
      exact ih (pruned.unfinished ⟨_, shown, alive⟩)

end Board

-----------------------------------------------------------------------------------------
-- The course of an operation that fails jobs for good
-----------------------------------------------------------------------------------------

namespace InMemoryJobQueueState

/-- The job is retained, and the operation fails it for good. -/
def FailsForGood (s : InMemoryJobQueueState) (op : Op) (job : Job) : Prop :=
  s.jobs.get job.id = some job
    ∧ ((∃ lockToken error now allowRetry,
          op.endsLease = some (job.id, lockToken)
          ∧ op.reportsFailure = some (error, now, allowRetry)
          ∧ job.state = .active
          ∧ job.lockToken = some lockToken
          ∧ failsTerminally job allowRetry = true)
      ∨ ∃ now,
          op = .recoverStalledJobs now
          ∧ leaseExpired now job = true
          ∧ stallsTerminally job = true)

/-- The phases of an operation that fails jobs for good: they are moved and removed, what was kept
for them is admitted, and their failures are reported.
-/
structure FailureCourse (s : InMemoryJobQueueState) (op : Op) (now : DateTime)
    (owners reported : List Job) (settled ended after : Board)
    : Prop where
  fail : ∀ owner, s.FailsForGood op owner ↔ owner ∈ owners
  finishes
    : ∀ owner flag,
        s.Finishes op now owner flag
        ↔ owner ∈ owners ∧ flag = owner.options.removesFailedImmediately
  retires
    : s.board.Retires owners (fun owner => owner.options.removesFailedImmediately) settled
  failed : ∀ owner ∈ owners, settled.FailedOrGone owner.id
  ends : Board.OwnersEnd now settled owners ended
  members : ∀ owner, owner ∈ reported ↔ owner ∈ owners
  reports : Board.FailuresReported ended reported after

variable {cron : Cron} {find : Find} {queue : QueueName} {s : InMemoryJobQueueState} {op : Op}
  {job first : Job} {now : DateTime} {id : JobId}

theorem FailsForGood.finishes (fails : s.FailsForGood op job)
    : ∃ now, s.Finishes op now job job.options.removesFailedImmediately := by
  obtain ⟨found, ⟨lockToken, error, now, allowRetry, ends, reports, active, own, terminal⟩
    | ⟨now, rfl, expired, terminal⟩⟩ := fails
  · exact ⟨now, .fails ends reports (requireOwnedActive_of_owned "fail" found active own) terminal⟩
  · exact ⟨now, .stalls found expired terminal⟩

theorem failsForGood_recoverStalledJobs
    : s.FailsForGood (.recoverStalledJobs now) job ↔ job ∈ s.stalledForGood now := by
  rw [mem_stalledForGood]
  constructor
  · rintro ⟨found, ⟨_, _, _, _, ends, _⟩ | ⟨_, same, expired, terminal⟩⟩
    · cases ends
    · obtain rfl := Op.recoverStalledJobs.inj same
      exact ⟨found, expired, terminal⟩
  · rintro ⟨found, expired, terminal⟩
    exact ⟨found, .inr ⟨now, rfl, expired, terminal⟩⟩

theorem failsForGood_reported {lockToken : JobLockToken} {error : String} {allowRetry : Bool}
    (fails : s.FailsForGood op job) (ends : op.endsLease = some (job.id, lockToken))
    (reports : op.reportsFailure = some (error, now, allowRetry))
    (accepted : s.requireOwnedActive job.id lockToken "fail" = .ok job)
    (terminal : failsTerminally job allowRetry = true) (owner : Job)
    : s.FailsForGood op owner ↔ owner ∈ [job] := by
  constructor
  · intro ownerFails
    obtain ⟨time, finishes⟩ := ownerFails.finishes
    have same := (finishes.time).symm.trans (Finishes.fails ends reports accepted terminal).time
    obtain rfl := Option.some.inj same
    exact ((finishes_reported ends reports accepted terminal owner _).mp finishes).1
  · intro member
    obtain rfl := List.mem_singleton.mp member
    exact fails

/-- An operation that reports a failure is one of the two calls for it. -/
theorem step_of_reports {jobId : JobId} {lockToken : JobLockToken} {error : String}
    {allowRetry : Bool} (ends : op.endsLease = some (jobId, lockToken))
    (reports : op.reportsFailure = some (error, now, allowRetry))
    : step cron find queue s op = (s.failActiveJob jobId lockToken error now allowRetry).1 := by
  cases op <;> simp only [Op.reportsFailure, Option.some.injEq, Prod.mk.injEq, reduceCtorEq]
    at reports
  · obtain ⟨rfl, rfl, rfl⟩ := reports
    cases ends
    rfl
  · obtain ⟨rfl, rfl, rfl⟩ := reports
    cases ends
    rfl

/-- A board whose swept jobs have failed. -/
theorem failedOrGone_sweep {b : Board} {owners : List Job} {ready : List JobId} {ids : Set JobId}
    {owner : Job} (member : owner ∈ owners)
    : ((b.sweep (owners.map Job.id) ready).without ids).FailedOrGone owner.id := by
  intro card found
  obtain ⟨_, shown⟩ := Board.without_cards_some found
  simp only [Board.sweep, if_pos (List.mem_map_of_mem member)] at shown
  obtain ⟨old, _, rfl⟩ := Option.map_eq_some_iff.mp shown
  rfl

/-- Every operation that fails a job for good takes this course. -/
theorem failureCourse_step (cron : Cron) (find : Find) (queue : QueueName)
    (fails : s.FailsForGood op first)
    : ∃ now owners reported settled ended,
        s.FailureCourse op now owners reported settled ended
          (step cron find queue s op).board := by
  have failing := fails
  obtain ⟨found, ⟨lockToken, error, now, allowRetry, ends, reports, active, own, terminal⟩
    | ⟨now, rfl, expired, terminal⟩⟩ := failing
  · rw [step_of_reports ends reports]
    have accepted := requireOwnedActive_of_owned "fail" found active own
    have outcome : _ ∨ _ ∧ ∃ _ _ _, _ ∧ _ ∧ _ ∧ Board.FailureReported _ _
        (s.failActiveJob first.id lockToken error now allowRetry).1.board :=
      board_failActiveJob_of_owned accepted
    rcases outcome with ⟨retried, _⟩ | ⟨_, settled, admitted, ended, pruned, gone, owner, reported⟩
    · rw [terminal] at retried
      cases retried
    · have finishes := Finishes.fails ends reports accepted terminal
      refine ⟨now, [first], [first], settled, ended,
        failsForGood_reported fails ends reports accepted terminal,
        finishes_reported ends reports accepted terminal,
        Board.retires_of_move rfl finishes.unfinished pruned gone, ?_, ownersEnd_single owner,
        fun _ => Iff.rfl, .cons reported (.nil _)⟩
      intro owner member
      obtain rfl := List.mem_singleton.mp member
      exact Board.failedOrGone_of_move pruned
  · obtain ⟨ended, owners, reported⟩ := board_recoverStalledJobs s now
    exact ⟨now, s.stalledForGood now, reportedFailures (s.stalledForGood now), _, ended,
      fun _ => failsForGood_recoverStalledJobs, fun _ _ => finishes_recoverStalledJobs,
      retires_recoverStalledJobs s now, fun owner => failedOrGone_sweep, owners,
      fun _ => mem_reportedFailures, reported⟩

end InMemoryJobQueueState

end Lane
