import Lane.Board.Changes
import Lane.Life.Operations

/-! The turns of claims, completions, failures and stalled recovery, and of every operation. -/

namespace Lane

/-- The token that an operation hands out. -/
def Op.claimToken : Op → Option JobLockToken
  | .claimNext _ _ _ lockToken => some lockToken
  | _ => none

/-- The job that an operation retries. -/
def Op.retriedId : Op → Option JobId
  | .retry jobId _ => some jobId
  | _ => none

/-- The job that an operation completes, if it is accepted. -/
def Op.completedId : Op → Option JobId
  | .completeJob jobId _ _ _ _ => some jobId
  | _ => none

namespace InMemoryJobQueueState

variable {o : Occasion} {s t u : InMemoryJobQueueState} {job : Job} {jobId parentId : JobId}
  {now : DateTime}

-----------------------------------------------------------------------------------------
-- Claim
-----------------------------------------------------------------------------------------

/-- The claim order's first waiting job. -/
def firstWaiting (s : InMemoryJobQueueState) : Option Job :=
  minBy compareClaimOrder (s.jobs.values.filter (fun job => job.state == .waiting))

theorem firstWaiting_some (first : s.firstWaiting = some job)
    : s.jobs.get job.id = some job ∧ job.state = .waiting := by
  have member := List.mem_filter.mp (minBy_mem first)
  exact ⟨JobMap.mem_values.mp member.1, by simpa using member.2⟩

theorem firstWaiting_none
    : s.firstWaiting = none ↔ ∀ id job, s.jobs.get id = some job → job.state ≠ .waiting := by
  have empty : s.firstWaiting = none
      ↔ s.jobs.values.filter (fun job => job.state == .waiting) = [] := by
    unfold firstWaiting
    cases s.jobs.values.filter (fun job => job.state == .waiting) <;> simp [minBy]
  rw [empty, List.filter_eq_nil_iff]
  constructor
  · intro idle id job found waiting
    exact idle job (JobMap.mem_values_of_get found) (by simp [waiting])
  · intro idle job member waiting
    exact idle job.id job (JobMap.mem_values.mp member) (by simpa using waiting)

/-- A claim on an unpaused queue leases the first waiting job once the due ones have entered. -/
theorem claimNext_unpaused (unpaused : s.paused = false) (workerId : JobWorkerId)
    (leaseFor : Duration) (now : DateTime) (lockToken : JobLockToken)
    : (s.claimNext workerId leaseFor now lockToken).2
        = .ok ((s.promoteDueLocked now).1.firstWaiting.map
            (claimedJob · workerId leaseFor now lockToken)) := by
  unfold claimNext firstWaiting
  simp only [unpaused, Bool.false_eq_true, if_false]
  split
  · next least => rw [least]; rfl
  · next job least => rw [least]; rfl

/-- The claim after the promotions is one turn. -/
theorem turned_claimNext (s : InMemoryJobQueueState) (workerId : JobWorkerId)
    (leaseFor : Duration) (lockToken : JobLockToken) (reads : o.reads now)
    (claims : o.claims lockToken)
    : s.Turned o (s.claimNext workerId leaseFor now lockToken).1 := by
  have promoted : s.Turned o (s.promoteDueLocked now).1 := ⟨_, turns_promoteDueLocked s reads⟩
  unfold claimNext
  split
  · exact .refl s
  · simp only
    split
    · exact promoted
    · next job least =>
        obtain ⟨found, waiting⟩ := firstWaiting_some least
        refine promoted.trans (Turned.shown (Turned.single [] ?_) (emitEventLocked_lives _ _ _ _ _ _))
        rw [lives_setJob]
        exact .claimed (lives_of_get found) waiting claims

-----------------------------------------------------------------------------------------
-- Completion
-----------------------------------------------------------------------------------------

/-- The removal or the retention of a finished job. -/
theorem turned_removalOrRetention (s : InMemoryJobQueueState) (immediately : Bool)
    (jobId : JobId) (retention : Option JobRetention) (state : JobState) (now : DateTime)
    : s.Turned o
        (if immediately then
          (s.removeJobRecordLocked jobId).1
        else
          match retention with
          | none => s
          | some retention => s.applyFinishedRetentionLocked state retention now) := by
  split
  · exact turned_removeJobRecordLocked s jobId
  · split
    · exact .refl s
    · exact turned_applyFinishedRetentionLocked s _ _ _

theorem turned_settleCompleted (found : s.jobs.get job.id = some job)
    (active : job.state = .active) (value : Value) (now : DateTime) (completes : o.completes job.id)
    : s.Turned o (s.settleCompleted (completedJob job value now) now) := by
  have completed : s.Turned o (s.setJob (completedJob job value now)) := by
    refine Turned.single [] ?_
    rw [lives_setJob]
    exact .completed (lives_of_get found) active ⟨rfl, rfl, rfl⟩ ⟨rfl, rfl, rfl⟩ completes
  generalize completedJob job value now = ended at completed ⊢
  have recorded := completed.shown (recordTerminalChild_lives _ ended.parentId ended)
  unfold settleCompleted
  exact recorded.trans (turned_removalOrRetention _ _ _ _ _ _)

theorem turned_finishCompletion (s : InMemoryJobQueueState) (completed : Job)
    (reads : o.reads now)
    : s.Turned o (s.finishCompletion completed now) := by
  unfold finishCompletion
  simp only
  refine Turned.shown ?_ ((emitDrainedEventIfNeededLocked_lives _ _).trans
    (emitEventLocked_lives _ _ _ _ _ _))
  split
  · exact .refl s
  · exact turned_releaseParentIfReadyLocked s _ reads

theorem starts_nextRepeatJob {cron : Cron} {uuid : JobId} {next : Job} (reads : o.reads now)
    (repeats : nextRepeatJob cron job now uuid = .ok (some next))
    : next.Starts o := by
  unfold nextRepeatJob at repeats
  split at repeats
  · cases repeats
  · simp only at repeats
    split at repeats
    · cases repeats
    · split at repeats
      · cases repeats
      · cases repeats
      · next scheduledAt _ =>
          split at repeats
          · cases repeats
          · cases repeats
            exact ⟨⟨⟨rfl, rfl, rfl⟩, rfl, rfl⟩, (due_stateAfterDependencies _ reads).imp_right Or.inl⟩

theorem turned_completeLocked (cron : Cron) (found : s.jobs.get job.id = some job)
    (active : job.state = .active) (value : Value) (uuid : JobId) (reads : o.reads now)
    (completes : o.completes job.id)
    : s.Turned o (s.completeLocked cron job value now uuid).1 := by
  have settled := turned_settleCompleted found active value now completes
  unfold completeLocked
  simp only
  generalize completedJob job value now = completed at settled ⊢
  have kept := settled.trans (turned_enqueueKeptNext _ completed reads)
  split
  · next outcome =>
      rw [outcome] at kept
      exact kept.trans (turned_finishCompletion _ completed reads)
  · next t outcome =>
      rw [outcome] at kept
      split
      · exact kept
      · exact kept.trans (turned_finishCompletion _ completed reads)
      · next nextJob repeats =>
          have inserted : t.Turned o (t.insertCreated nextJob now).1 := by
            unfold Turned
            rw [lives_insertCreated]
            exact turns_admit_over (starts_nextRepeatJob reads repeats)
          exact (kept.trans inserted).trans (turned_finishCompletion _ completed reads)

theorem turned_completeJob (cron : Cron) (s : InMemoryJobQueueState) (jobId : JobId)
    (lockToken : JobLockToken) (value : Value) (uuid : JobId) (reads : o.reads now)
    (completes : o.completes jobId)
    : s.Turned o (s.completeJob cron jobId lockToken value now uuid).1 := by
  unfold completeJob
  split
  · exact .refl s
  · next job accepted =>
      obtain ⟨found, active, _⟩ := requireCompletable_ok accepted
      obtain rfl := JobMap.get_id found
      exact turned_completeLocked cron found active value uuid reads completes

-----------------------------------------------------------------------------------------
-- Failure
-----------------------------------------------------------------------------------------

theorem turned_settleParentOfFailed (s : InMemoryJobQueueState) (failed : Job)
    (parentId : JobId) (reads : o.reads now)
    : s.Turned o (s.settleParentOfFailed failed parentId now) := by
  unfold settleParentOfFailed
  split
  · exact turned_deferParentFailureAfterChildFailureLocked s _ _ reads
  · split
    · exact turned_continueParentAfterChildFailureLocked s _ reads
    · split
      · exact turned_releaseParentIfReadyLocked s _ reads
      · exact turned_failWaitingParentLocked s _ _

theorem turned_settleTerminalFailure (s : InMemoryJobQueueState) (failed : Job)
    (reads : o.reads now)
    : s.Turned o (s.settleTerminalFailure failed now) := by
  have recorded : s.Turned o _ := .of_eq (recordTerminalChild_lives s failed.parentId failed)
  have settled : s.Turned o (s.settleFailed failed now) :=
    recorded.trans (turned_removalOrRetention _ _ _ _ _ _)
  have kept := settled.trans (turned_enqueueKeptNext _ failed reads)
  unfold settleTerminalFailure
  simp only
  split
  · exact kept
  · exact kept.trans (turned_settleParentOfFailed _ failed _ reads)

/-- A failed attempt is one turn: to delayed when it is retried, to failed otherwise. -/
theorem turned_failedJob (found : s.jobs.get job.id = some job) (isActive : job.state = .active)
    (error : String) (now : DateTime) (allowRetry : Bool)
    : s.Turned o (s.setJob (failedJob job error now allowRetry)) := by
  have active : job.life.state = .active := isActive
  have alive : job.life.state.isTerminal = false := by
    rw [active]
    rfl
  refine Turned.single [] ?_
  rw [lives_setJob]
  unfold failedJob
  simp only
  split
  · exact .shelved (lives_of_get found) alive
      ⟨.inl ⟨rfl, rfl, rfl⟩, .inl rfl, .inr ⟨alive, rfl⟩, rfl, rfl, rfl⟩ (.inl rfl)
  · exact .failed (lives_of_get found) alive ⟨rfl, rfl, rfl⟩ ⟨rfl, rfl, rfl⟩

theorem turned_failActiveJob (s : InMemoryJobQueueState) (jobId : JobId)
    (lockToken : JobLockToken) (error : String) (allowRetry : Bool) (reads : o.reads now)
    : s.Turned o (s.failActiveJob jobId lockToken error now allowRetry).1 := by
  unfold failActiveJob
  split
  · exact .refl s
  · next job accepted =>
      obtain ⟨found, active, _⟩ := requireOwnedActive_ok accepted
      obtain rfl := JobMap.get_id found
      have failed := turned_failedJob (o := o) found active error now allowRetry
      simp only
      generalize failedJob job error now allowRetry = after at failed ⊢
      split
      · have settled := failed.trans (turned_settleTerminalFailure _ after reads)
        refine settled.shown ((emitDrainedEventIfNeededLocked_lives _ _).trans ?_)
        split
        · exact (emitRetriesExhaustedEventLocked_lives _ _ _).trans
            (emitEventLocked_lives _ _ _ _ _ _)
        · exact emitEventLocked_lives _ _ _ _ _ _
      · refine failed.shown ?_
        split
        · exact (emitRetriesExhaustedEventLocked_lives _ _ _).trans
            (emitEventLocked_lives _ _ _ _ _ _)
        · exact emitEventLocked_lives _ _ _ _ _ _

-----------------------------------------------------------------------------------------
-- Stalled recovery
-----------------------------------------------------------------------------------------

/-- A stalled job fails for good or enters the waiting order again. -/
theorem turned_stalledJob (found : s.jobs.get job.id = some job) (isActive : job.state = .active)
    (now : DateTime)
    : let recovered := stalledJob job now
      (recovered.state = .failed → s.Turned o (s.setJob recovered))
        ∧ (recovered.state ≠ .failed
          → s.Turned o
              (s.nextWaitingSequence.1.setJob
                { recovered with enqueuedSeq := s.nextWaitingSequence.2 })) := by
  have active : job.life.state = .active := isActive
  have alive : job.life.state.isTerminal = false := by
    rw [active]
    rfl
  intro recovered
  have shape : recovered = stalledJob job now := rfl
  unfold stalledJob at shape
  simp only at shape
  split at shape
  · refine ⟨fun _ => ?_, fun alive => ?_⟩
    · refine Turned.single [] ?_
      rw [lives_setJob, shape]
      exact .failed (lives_of_get found) alive ⟨rfl, rfl, rfl⟩ ⟨rfl, rfl, rfl⟩
    · exact absurd (by rw [shape]) alive
  · refine ⟨fun ended => ?_, fun _ => ?_⟩
    · rw [shape] at ended
      cases ended
    · refine Turned.single [.enters job.id] ?_
      rw [lives_setJob, shape]
      exact .queued (lives_of_get found) (.inl alive)
        ⟨.inl ⟨rfl, rfl, rfl⟩, .inr ⟨alive, rfl⟩, .inr ⟨alive, rfl⟩, rfl, rfl, rfl⟩ rfl
        (.inr ⟨active, rfl⟩) rfl

/-- The first loop is one turn for each stalled job, by induction on them. -/
theorem turned_sweepStalled (now : DateTime) (s : InMemoryJobQueueState) {stalled : List Job}
    (retained : ∀ job ∈ stalled, s.jobs.get job.id = some job)
    (active : ∀ job ∈ stalled, job.state = .active) (distinct : (stalled.map Job.id).Nodup)
    : s.Turned o (sweepStalled now s stalled).1 := by
  induction stalled generalizing s with
  | nil => exact .refl s
  | cons job rest ih =>
      rw [List.map_cons, List.nodup_cons] at distinct
      have found := retained job List.mem_cons_self
      have sameId := (stalledJob_ties job now).id
      obtain ⟨fails, enters⟩ :=
        turned_stalledJob (o := o) found (active job List.mem_cons_self) now
      have later {t : InMemoryJobQueueState} {written : Job} (writtenId : written.id = job.id)
          (jobs : t.jobs = s.jobs)
          : (t.setJob written).Turned o (sweepStalled now (t.setJob written) rest).1 := by
        refine ih _ ?_ (fun other member => active other (List.mem_cons_of_mem _ member))
          distinct.2
        intro other member
        simp only [setJob, jobs]
        rw [JobMap.get_insert, if_neg]
        · exact retained other (List.mem_cons_of_mem job member)
        · intro same
          exact distinct.1 (by rw [← writtenId, ← same]; exact List.mem_map_of_mem member)
      unfold sweepStalled
      simp only [found]
      generalize stalledJob job now = recovered at sameId fails enters ⊢
      split
      · next ended => exact (fails ended).trans (later sameId rfl)
      · next alive => exact (enters alive).trans (later sameId rfl)

theorem turned_settleStalledFailure (s : InMemoryJobQueueState) (failed : Job)
    (reads : o.reads now)
    : s.Turned o (settleStalledFailure now s failed) := by
  have recorded : s.Turned o _ := .of_eq (recordTerminalChild_lives s failed.parentId failed)
  have kept := recorded.trans (turned_enqueueKeptNext _ failed reads)
  unfold settleStalledFailure
  simp only
  split
  · exact kept
  · exact kept.trans (turned_applyFinishedRetentionLocked _ _ _ _)

theorem turned_settleStalledParent (s : InMemoryJobQueueState) (failed : Job)
    (reads : o.reads now)
    : s.Turned o (settleStalledParent now s failed) := by
  unfold settleStalledParent
  split
  · exact .refl s
  · exact turned_settleParentOfFailed s failed _ reads

/-- A loop whose passes are turns is turns, by induction on what it visits. -/
theorem turned_foldl {pass : InMemoryJobQueueState → Job → InMemoryJobQueueState}
    (turned : ∀ (s : InMemoryJobQueueState) (job : Job), s.Turned o (pass s job))
    (s : InMemoryJobQueueState) (jobs : List Job)
    : s.Turned o (jobs.foldl pass s) := by
  induction jobs generalizing s with
  | nil => exact .refl s
  | cons job rest ih => exact (turned s job).trans (ih _)

theorem turned_recoverStalledJobs (s : InMemoryJobQueueState) (reads : o.reads now)
    : s.Turned o (s.recoverStalledJobs now).1 := by
  have parents (s : InMemoryJobQueueState) (failed : List Job)
      : s.Turned o (failed.foldl (settleStalledParent now) s) :=
    turned_foldl (fun s failed => turned_settleStalledParent s failed reads) s failed
  have swept : s.Turned o (sweepStalled now s (s.stalledJobs now)).1 := by
    refine turned_sweepStalled now s (fun job member => (mem_stalledJobs.mp member).1) ?_
      (stalledJobs_ids_nodup s now)
    intro job member
    have expired := (mem_stalledJobs.mp member).2
    unfold leaseExpired at expired
    simp only [Bool.and_eq_true, beq_iff_eq] at expired
    exact expired.1
  unfold recoverStalledJobs
  simp only
  generalize sweepStalled now s (s.stalledJobs now) = outcome at swept ⊢
  obtain ⟨t, failures, events⟩ := outcome
  have removed := swept.trans (turned_removeJobRecords t
    ((failures.filter (fun job => job.options.removesFailedImmediately)).map Job.id))
  have settled := removed.trans
    (turned_foldl (fun s failed => turned_settleStalledFailure s failed reads) _ failures)
  have told (s : InMemoryJobQueueState) (job : Job) : s.Turned o (emitStalledEvents now s job) := by
    unfold emitStalledEvents
    exact .of_eq (by simp)
  refine Turned.trans ?_ (turned_foldl told _ events)
  exact (((settled.trans (parents _ _)).trans (parents _ _)).trans (parents _ _)).trans
    (parents _ _)

-----------------------------------------------------------------------------------------
-- All operations
-----------------------------------------------------------------------------------------

/-- The times that an operation reads. A drain reads the clock once for each parent. -/
def Reads (find : Find) (s : InMemoryJobQueueState) (op : Op) (now : DateTime) : Prop :=
  match op with
  | .drain includeDelayed clock =>
      ∃ i < ((s.drainableJobs find includeDelayed).filterMap Job.parentId).length, clock i = now
  | op => op.time = some now

/-- What an operation brings to the turns of its jobs. -/
def occasion (find : Find) (s : InMemoryJobQueueState) (op : Op) : Occasion where
  reads := s.Reads find op
  claims token := op.claimToken = some token
  retries id := op.retriedId = some id
  completes id := op.completedId = some id

/-- Every operation is a sequence of turns, by cases on the operation. -/
theorem turned_step (cron : Cron) (find : Find) (queue : QueueName) (s : InMemoryJobQueueState)
    (op : Op)
    : s.Turned (s.occasion find op) (step cron find queue s op) := by
  cases op with
  | addAt name payload options now uuid => exact turned_addAt cron find queue s _ _ _ _ rfl
  | addManyAt specs now => exact turned_addManyAt cron find queue s _ rfl
  | addFlowAt parent children now => exact turned_addFlowAt cron find queue s _ _ rfl
  | addFlowChildrenAt parentId lockToken children now =>
      exact turned_addFlowChildrenAt cron find queue s _ _ _ rfl
  | removeUnprocessedChildren parentId now => exact turned_removeUnprocessedChildren s _ rfl
  | removeChildDependency childId now => exact turned_removeChildDependency s _ rfl
  | remove jobId clock => exact turned_remove s _ rfl
  | removeDeduplicationKey deduplicationId clock =>
      exact .of_eq (lives_removeDeduplicationKey find s _ _)
  | upsertRepeat spec now => exact turned_upsertRepeat cron find queue s _ rfl
  | removeRepeat repeatKey clock => exact turned_removeRepeat find s _ rfl
  | promote jobId now => exact turned_promote s _ rfl
  | reschedule jobId delay now => exact turned_reschedule s _ _ _
  | retry jobId now => exact turned_retry find s _ rfl rfl
  | renew jobId lockToken leaseFor now => exact turned_renew s _ _ _ _
  | delayActive jobId lockToken delay now => exact turned_delayActive s _ _ _ _
  | releaseActive jobId lockToken now => exact turned_releaseActive s _ _ rfl
  | setPriorityOrder jobId priority lifo => exact turned_setPriorityOrder s _ _ _
  | setData jobId payload => exact .of_eq (lives_setData s _ _)
  | setProgress jobId progress clock => exact .of_eq (lives_setProgress s _ _ _)
  | saveStacktrace jobId stacktrace failedReason => exact .of_eq (lives_saveStacktrace s _ _ _)
  | log jobId line keep now => exact .of_eq (lives_log s _ _ _ _)
  | clearLogs jobId keep => exact .of_eq (lives_clearLogs s _ _)
  | clean state grace limit now => exact turned_clean s _ _ _ rfl
  | drain includeDelayed clock => exact turned_drain find s _ _ (fun i bound => ⟨i, bound, rfl⟩)
  | obliterate force => exact turned_obliterate s _
  | claimNext workerId leaseFor now lockToken => exact turned_claimNext s _ _ _ rfl rfl
  | completeJob jobId lockToken value now uuid => exact turned_completeJob cron s _ _ _ _ rfl rfl
  | failJob jobId lockToken error now => exact turned_failActiveJob s _ _ _ _ rfl
  | failJobDiscardingRetry jobId lockToken error now => exact turned_failActiveJob s _ _ _ _ rfl
  | trimEvents maxLen => exact .of_eq (trimEventsLocked_lives s maxLen)
  | promoteDueJobs now => exact ⟨_, turns_promoteDueLocked s rfl⟩
  | recoverStalledJobs now => exact turned_recoverStalledJobs s rfl
  | pause clock => exact .of_eq (emitEventLocked_lives _ _ _ _ _ _)
  | resume clock => exact .of_eq (emitEventLocked_lives _ _ _ _ _ _)

end InMemoryJobQueueState

end Lane
