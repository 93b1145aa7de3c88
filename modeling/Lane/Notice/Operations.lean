import Lane.Board.Processing
import Lane.Notice.Silent

/-! No operation but the failure of the job itself reports that its retries are exhausted. -/

namespace Lane

namespace InMemoryJobQueueState

namespace Silent

variable {id : JobId} {old : List JobEvent} {s : InMemoryJobQueueState} {now : DateTime}

-----------------------------------------------------------------------------------------
-- Submissions
-----------------------------------------------------------------------------------------

theorem insertUnlessRepeated (silent : s.Silent id old) (find : Find) (job : Job)
    (now : DateTime)
    : (s.insertUnlessRepeated InMemoryJobQueueState.insertCreated find job now).1.Silent id
        old := by
  unfold InMemoryJobQueueState.insertUnlessRepeated
  split
  · exact silent
  · exact silent.insertCreated _ now

theorem replaceDelayedOwner (silent : s.Silent id old) (job existing : Job) (now : DateTime)
    : (s.replaceDelayedOwner job existing now).Silent id old := by
  have removed := silent.removeJobRecordLocked existing.id
  unfold InMemoryJobQueueState.replaceDelayedOwner
  split
  · next same => rw [same] at removed; exact removed
  · next same =>
      rw [same] at removed
      exact (removed.emitRemovedEventLocked _ _).emitReplacedDeduplicatedOwnerEventsLocked _ _ _

theorem coalesceDuplicate (silent : s.Silent id old) (job existing : Job) (now : DateTime)
    : (s.coalesceDuplicate job existing now).1.Silent id old := by
  have kept := (silent.storeDeduplicatedNextLocked job existing)
    |>.extendDeduplicationExpirationLocked job existing.id now
  unfold InMemoryJobQueueState.coalesceDuplicate
  simp only
  split
  · exact kept.emitDeduplicatedEventsLocked _ _ _
  · exact kept

theorem submitLocked (silent : s.Silent id old) (find : Find) (job : Job) (now : DateTime)
    : (s.submitLocked InMemoryJobQueueState.insertCreated find job now).1.Silent id old := by
  unfold InMemoryJobQueueState.submitLocked
  split
  · exact silent
  · split
    · exact silent.insertUnlessRepeated find _ now
    · split
      · exact (silent.replaceDelayedOwner _ _ now).insertUnlessRepeated find _ now
      · exact silent.coalesceDuplicate _ _ now

/-- The loop of a batch, by induction on the jobs. -/
theorem submitAllLocked (silent : s.Silent id old) (find : Find) (now : DateTime)
    (jobs : List Job)
    : (s.submitAllLocked find now jobs).1.Silent id old := by
  induction jobs generalizing s with
  | nil => exact silent
  | cons job rest ih =>
      have first := silent.submitLocked find job now
      rw [← insertSequenced_eq_insertCreated] at first
      exact ih first

theorem addChild {d : FlowDeduplication} (silent : d.state.Silent id old) (child : Job)
    (find : Find) (now : DateTime) (submittedParent : Bool) (duplicated : Finset JobId)
    : (d.addChild find now submittedParent duplicated child).1.state.Silent id old := by
  unfold FlowDeduplication.addChild
  split
  · exact silent
  · split
    · exact silent
    · split
      · next existing _ =>
          split
          · have stored := silent.storeDeduplicatedNextLocked child existing
            split
            · next same => rw [same] at stored; exact stored
            · next same => rw [same] at stored; exact stored
          · exact silent.extendDeduplicationExpirationLocked child existing.id now
      · split <;> exact silent

/-- The deduplication loop, by induction on the children. -/
theorem addChildren {d : FlowDeduplication} (silent : d.state.Silent id old) (find : Find)
    (now : DateTime) (submittedParent : Bool) (duplicated : Finset JobId) (children : List Job)
    : (d.addChildren find now submittedParent duplicated children).1.state.Silent id old := by
  induction children generalizing d with
  | nil => exact silent
  | cons child rest ih =>
      have first := silent.addChild child find now submittedParent duplicated
      unfold FlowDeduplication.addChildren
      split
      · next same => rw [same] at first; exact first
      · next same =>
          rw [same] at first
          exact ih first

theorem storeFlowChild (silent : s.Silent id old) (child : Job) (parentId : JobId)
    (now : DateTime) (owner : JobId → Option Job) (duplicated : Finset JobId)
    : (s.storeFlowChild parentId now owner duplicated child).1.Silent id old := by
  unfold InMemoryJobQueueState.storeFlowChild
  split
  · exact silent.emitDeduplicatedEventsLocked _ _ _
  · split
    · split
      · exact silent
      · simp only
        refine emitDuplicatedEventLocked ?_ _ _
        refine recordTerminalChildDependencyLocked ?_ _ _
        exact silent
    · exact silent.insertSequenced _ now

/-- The children are stored one after the other, by induction on them. -/
theorem storeFlowChildren (silent : s.Silent id old) (parentId : JobId) (now : DateTime)
    (owner : JobId → Option Job) (duplicated : Finset JobId) (children : List Job)
    : (InMemoryJobQueueState.storeFlowChildren parentId now owner duplicated s children).1.Silent
        id old := by
  induction children generalizing s with
  | nil => exact silent
  | cons child rest ih => exact ih (silent.storeFlowChild child parentId now owner duplicated)

theorem releaseUnlessNext (silent : s.Silent id old) (d : FlowDeduplication) (parentId : JobId)
    (now : DateTime)
    : (s.releaseUnlessNext d parentId now).Silent id old := by
  unfold InMemoryJobQueueState.releaseUnlessNext
  split
  · exact silent.releaseParentIfReadyLocked parentId now
  · exact silent

theorem attachToExistingParent (silent : s.Silent id old) (existingParent : Job)
    (children : List Job) (duplicated : Finset JobId) (d : FlowDeduplication) (now : DateTime)
    : (s.attachToExistingParent existingParent children duplicated d now).1.Silent id old := by
  unfold InMemoryJobQueueState.attachToExistingParent
  simp only
  refine releaseUnlessNext (storeFlowChildren ?_ _ _ _ _ _) _ _ _
  split <;> exact silent

theorem addFlowForExistingParentLocked (silent : s.Silent id old) (find : Find)
    (existingParent : Job) (children : List Job) (now : DateTime)
    : (s.addFlowForExistingParentLocked find existingParent children now).1.Silent id old := by
  have shown := silent.emitDuplicatedEventLocked existingParent now
  unfold InMemoryJobQueueState.addFlowForExistingParentLocked
  simp only
  split
  · exact shown
  · next duplicated _ =>
      have joined := addChildren
        (d := {
          state := s.emitDuplicatedEventLocked existingParent now
          childIds := []
          flowDeduplicationIds := ∅ })
        shown find now false duplicated children
      split
      · next same => rw [same] at joined; exact joined
      · next d same =>
          rw [same] at joined
          split
          · exact joined
          · exact joined.attachToExistingParent existingParent children duplicated d now

theorem coalesceFlow (silent : s.Silent id old) (candidate : JobFlow) (existing : Job)
    (now : DateTime)
    : (s.coalesceFlow candidate existing now).1.Silent id old := by
  have stored := silent.storeDeduplicatedNextFlowLocked candidate existing
  unfold InMemoryJobQueueState.coalesceFlow
  split
  · next same =>
      rw [same] at stored
      exact stored.emitDeduplicatedEventsLocked _ _ _
  · next same =>
      rw [same] at stored
      refine emitDeduplicatedEventsLocked ?_ _ _ _
      exact stored.extendDeduplicationExpirationLocked _ _ _

theorem insertFlow (silent : s.Silent id old) (parent : Job) (children : List Job)
    (duplicated : Finset JobId) (d : FlowDeduplication) (now : DateTime)
    : (s.insertFlow parent children duplicated d now).1.Silent id old := by
  unfold InMemoryJobQueueState.insertFlow
  exact ((silent.insertSequenced parent now).storeFlowChildren _ _ _ _ children)
    |>.releaseUnlessNext _ _ _

theorem addNewFlowLocked (silent : s.Silent id old) (find : Find) (parent : Job)
    (children : List Job) (now : DateTime)
    : (s.addNewFlowLocked find parent children now).1.Silent id old := by
  unfold InMemoryJobQueueState.addNewFlowLocked
  split
  · exact silent
  · next duplicated _ =>
      have joined := addChildren
        (d := {
          state := s
          childIds := parent.childIds
          flowDeduplicationIds := (activeDeduplicationId parent now).elim ∅ (fun id => {id}) })
        silent find now true duplicated children
      simp only
      split
      · next same => rw [same] at joined; exact joined
      · next d same =>
          rw [same] at joined
          split
          · exact joined
          · exact joined.insertFlow _ children duplicated d now

theorem addFlowLocked (silent : s.Silent id old) (find : Find) (parent : Job)
    (children : List Job) (now : DateTime)
    : (s.addFlowLocked find parent children now).1.Silent id old := by
  unfold InMemoryJobQueueState.addFlowLocked
  split
  · exact silent.addFlowForExistingParentLocked find _ children now
  · split
    · exact silent.coalesceFlow _ _ now
    · exact silent.addNewFlowLocked find parent children now

theorem fanOut (silent : s.Silent id old) (parent : Job) (children : List Job)
    (duplicated : Finset JobId) (d : FlowDeduplication) (now : DateTime)
    : (s.fanOut parent children duplicated d now).1.Silent id old := by
  unfold InMemoryJobQueueState.fanOut
  simp only
  refine releaseUnlessNext ?_ _ _ _
  refine emitOther ?_ (by decide) _ _ _ _
  refine storeFlowChildren ?_ _ _ _ _ children
  exact silent

theorem addFlowChildrenLocked (silent : s.Silent id old) (find : Find) (parentId : JobId)
    (lockToken : JobLockToken) (children : List Job) (now : DateTime)
    : (s.addFlowChildrenLocked find parentId lockToken children now).1.Silent id old := by
  unfold InMemoryJobQueueState.addFlowChildrenLocked
  split
  · exact silent
  · split
    · exact silent
    · next duplicated _ =>
        have joined := addChildren
          (d := { state := s, childIds := [], flowDeduplicationIds := ∅ }) silent find now false
          duplicated children
        simp only
        split
        · next same => rw [same] at joined; exact joined
        · next d same =>
            rw [same] at joined
            split
            · exact joined
            · split
              · exact joined
              · exact joined.fanOut _ children duplicated d now

theorem addAt (silent : s.Silent id old) (cron : Cron) (find : Find) (queue : QueueName)
    (name : String) (payload : Value) (options : JobOptions) (now : DateTime) (uuid : JobId)
    : (s.addAt cron find queue name payload options now uuid).1.Silent id old := by
  unfold InMemoryJobQueueState.addAt
  split
  · exact silent
  · exact silent.submitLocked find _ now

theorem addManyAt (silent : s.Silent id old) (cron : Cron) (find : Find) (queue : QueueName)
    (specs : List (JobSpec × JobId)) (now : DateTime)
    : (s.addManyAt cron find queue specs now).1.Silent id old := by
  unfold InMemoryJobQueueState.addManyAt
  split
  · exact silent
  · exact silent.submitAllLocked find now _

theorem addFlowAt (silent : s.Silent id old) (cron : Cron) (find : Find) (queue : QueueName)
    (parent : JobSpec × JobId) (children : List (JobSpec × JobId)) (now : DateTime)
    : (s.addFlowAt cron find queue parent children now).1.Silent id old := by
  unfold InMemoryJobQueueState.addFlowAt
  split
  · exact silent
  · simp only
    split
    · exact silent
    · exact silent.addFlowLocked find _ _ now

theorem addFlowChildrenAt (silent : s.Silent id old) (cron : Cron) (find : Find)
    (queue : QueueName) (parentId : JobId) (lockToken : JobLockToken)
    (children : List (JobSpec × JobId)) (now : DateTime)
    : (s.addFlowChildrenAt cron find queue parentId lockToken children now).1.Silent id old := by
  unfold InMemoryJobQueueState.addFlowChildrenAt
  split
  · exact silent
  · split
    · exact silent
    · simp only
      split
      · exact silent
      · exact silent.addFlowChildrenLocked find parentId lockToken _ now

-----------------------------------------------------------------------------------------
-- Management
-----------------------------------------------------------------------------------------

theorem removeWithEvents (silent : s.Silent id old) (now : DateTime) (ids : List JobId)
    : (s.removeWithEvents now ids).1.Silent id old := by
  induction ids generalizing s with
  | nil => exact silent
  | cons first rest ih =>
      have removed := silent.removeJobRecordLocked first
      unfold InMemoryJobQueueState.removeWithEvents
      split
      · next same => rw [same] at removed; exact ih removed
      · next same =>
          rw [same] at removed
          exact ih (removed.emitRemovedEventLocked _ _)

theorem removeUnprocessedChildren (silent : s.Silent id old) (parentId : JobId)
    (now : DateTime)
    : (s.removeUnprocessedChildren parentId now).1.Silent id old := by
  unfold InMemoryJobQueueState.removeUnprocessedChildren
  split
  · exact silent
  · exact (silent.removeWithEvents now _).releaseParentIfReadyLocked parentId now

theorem detachChild (silent : s.Silent id old) (parent child : Job)
    : (s.detachChild parent child).Silent id old := by
  have detached
      : (s.setJob { parent with childIds := parent.childIds.filter (· != child.id) }).Silent id
          old :=
    silent
  have cleared := detached.clearChildDependencySideIndexLocked parent.id child.id
  unfold InMemoryJobQueueState.detachChild
  simp only
  split <;> exact cleared

theorem removeChildDependency (silent : s.Silent id old) (childId : JobId) (now : DateTime)
    : (s.removeChildDependency childId now).1.Silent id old := by
  unfold InMemoryJobQueueState.removeChildDependency
  split
  · exact silent
  · split
    · exact silent
    · split
      · exact silent
      · split
        · exact silent
        · exact (silent.detachChild _ _).releaseParentIfReadyLocked _ now

theorem removeAndRelease (silent : s.Silent id old) (jobId : JobId) (now : DateTime)
    : (s.removeAndRelease jobId now).1.Silent id old := by
  have removed := silent.removeJobRecordLocked jobId
  unfold InMemoryJobQueueState.removeAndRelease
  split
  · next same => rw [same] at removed; exact removed
  · next same =>
      rw [same] at removed
      refine emitRemovedEventLocked ?_ _ _
      split
      · exact removed
      · exact removed.releaseParentIfReadyLocked _ now

theorem remove (silent : s.Silent id old) (jobId : JobId) (clock : DateTime)
    : (s.remove jobId clock).1.Silent id old := by
  unfold InMemoryJobQueueState.remove
  split
  · exact silent
  · split
    · exact silent
    · exact silent.removeAndRelease jobId clock

theorem removeDeduplicationKey (silent : s.Silent id old) (find : Find)
    (deduplicationId : String) (clock : DateTime)
    : (s.removeDeduplicationKey find deduplicationId clock).1.Silent id old := by
  unfold InMemoryJobQueueState.removeDeduplicationKey
  split
  · exact silent
  · split <;> exact silent

theorem upsertRepeat (silent : s.Silent id old) (cron : Cron) (find : Find) (queue : QueueName)
    (spec : JobSpec × JobId) (now : DateTime)
    : (s.upsertRepeat cron find queue spec now).1.Silent id old := by
  unfold InMemoryJobQueueState.upsertRepeat
  split
  · exact silent
  · split
    · exact silent
    · simp only
      split
      · exact silent
      · unfold InMemoryJobQueueState.upsertRepeatLocked
        simp only
        split
        · exact silent
        · refine insertCreated ?_ _ now
          split
          · exact silent
          · exact silent.removeJobRecordLocked _

theorem removeRepeat (silent : s.Silent id old) (find : Find) (repeatKey : String)
    (clock : DateTime)
    : (s.removeRepeat find repeatKey clock).1.Silent id old := by
  unfold InMemoryJobQueueState.removeRepeat
  split
  · exact silent
  · split
    · exact silent
    · exact silent.removeAndRelease _ clock

theorem promote (silent : s.Silent id old) (jobId : JobId) (now : DateTime)
    : (s.promote jobId now).1.Silent id old := by
  unfold InMemoryJobQueueState.promote
  split
  · exact silent
  · split
    · exact silent
    · refine emitOther ?_ (by decide) _ _ _ _
      exact silent

theorem reschedule (silent : s.Silent id old) (jobId : JobId) (delay : Duration)
    (now : DateTime)
    : (s.reschedule jobId delay now).1.Silent id old := by
  unfold InMemoryJobQueueState.reschedule
  split
  · exact silent
  · split
    · exact silent
    · split
      · exact silent
      · refine emitOther ?_ (by decide) _ _ _ _
        exact silent

theorem retry (silent : s.Silent id old) (find : Find) (jobId : JobId) (now : DateTime)
    : (s.retry find jobId now).1.Silent id old := by
  unfold InMemoryJobQueueState.retry
  split
  · exact silent
  · next current _ =>
      split
      · exact silent
      · split
        · exact silent
        · have forgotten := silent.forgetReleasedDeduplicationOwnerLocked current
          simp only
          split
          · refine emitOther ?_ (by decide) _ _ _ _
            exact forgotten
          · refine restoreParentDependencyAfterChildRetryLocked ?_ _ _ _
            refine emitOther ?_ (by decide) _ _ _ _
            exact forgotten

theorem renew (silent : s.Silent id old) (jobId : JobId) (lockToken : JobLockToken)
    (leaseFor : Duration) (now : DateTime)
    : (s.renew jobId lockToken leaseFor now).1.Silent id old := by
  unfold InMemoryJobQueueState.renew
  split <;> exact silent

theorem delayActive (silent : s.Silent id old) (jobId : JobId) (lockToken : JobLockToken)
    (delay : Duration) (now : DateTime)
    : (s.delayActive jobId lockToken delay now).1.Silent id old := by
  unfold InMemoryJobQueueState.delayActive
  split
  · exact silent
  · refine emitOther ?_ (by decide) _ _ _ _
    exact silent

theorem releaseActive (silent : s.Silent id old) (jobId : JobId) (lockToken : JobLockToken)
    (now : DateTime)
    : (s.releaseActive jobId lockToken now).1.Silent id old := by
  unfold InMemoryJobQueueState.releaseActive
  split
  · exact silent
  · refine emitOther ?_ (by decide) _ _ _ _
    exact silent

theorem setPriorityOrder (silent : s.Silent id old) (jobId : JobId) (priority : JobPriority)
    (lifo : Option Bool)
    : (s.setPriorityOrder jobId priority lifo).1.Silent id old := by
  unfold InMemoryJobQueueState.setPriorityOrder
  split
  · exact silent
  · split
    · exact silent
    · simp only
      split <;> exact silent

theorem setData (silent : s.Silent id old) (jobId : JobId) (payload : Value)
    : (s.setData jobId payload).1.Silent id old := by
  unfold InMemoryJobQueueState.setData
  split <;> exact silent

theorem setProgress (silent : s.Silent id old) (jobId : JobId) (progress : Value)
    (clock : DateTime)
    : (s.setProgress jobId progress clock).1.Silent id old := by
  unfold InMemoryJobQueueState.setProgress
  split
  · exact silent
  · refine emitOther ?_ (by decide) _ _ _ _
    exact silent

theorem saveStacktrace (silent : s.Silent id old) (jobId : JobId) (stacktrace : List String)
    (failedReason : String)
    : (s.saveStacktrace jobId stacktrace failedReason).1.Silent id old := by
  unfold InMemoryJobQueueState.saveStacktrace
  split <;> exact silent

theorem log (silent : s.Silent id old) (jobId : JobId) (line : String) (keep : Nat)
    (now : DateTime)
    : (s.log jobId line keep now).1.Silent id old := by
  unfold InMemoryJobQueueState.log
  split <;> exact silent

theorem clearLogs (silent : s.Silent id old) (jobId : JobId) (keep : Nat)
    : (s.clearLogs jobId keep).1.Silent id old := by
  unfold InMemoryJobQueueState.clearLogs
  split <;> exact silent

theorem clean (silent : s.Silent id old) (state : JobState) (grace : Duration) (limit : Nat)
    (now : DateTime)
    : (s.clean state grace limit now).1.Silent id old := by
  unfold InMemoryJobQueueState.clean
  split
  · exact silent
  · refine emitOther ?_ (by decide) _ _ _ _
    exact (silent.removeJobRecords _).releaseParents _

theorem drain (silent : s.Silent id old) (find : Find) (includeDelayed : Bool)
    (clock : Nat → DateTime)
    : (s.drain find includeDelayed clock).1.Silent id old := by
  unfold InMemoryJobQueueState.drain
  exact (silent.removeJobRecords _).releaseParents _

theorem obliterate (silent : s.Silent id old) (force : Bool)
    : (s.obliterate force).1.Silent id old := by
  unfold InMemoryJobQueueState.obliterate
  simp only
  split <;> exact silent

-----------------------------------------------------------------------------------------
-- Processing
-----------------------------------------------------------------------------------------

theorem claimNext (silent : s.Silent id old) (workerId : JobWorkerId) (leaseFor : Duration)
    (now : DateTime) (lockToken : JobLockToken)
    : (s.claimNext workerId leaseFor now lockToken).1.Silent id old := by
  have promoted := silent.promoteDueLocked now
  unfold InMemoryJobQueueState.claimNext
  split
  · exact silent
  · simp only
    split
    · exact promoted
    · refine emitOther ?_ (by decide) _ _ _ _
      exact promoted

theorem settleCompleted (silent : s.Silent id old) (completed : Job) (now : DateTime)
    : (s.settleCompleted completed now).Silent id old := by
  have stored : (s.setJob completed).Silent id old := silent
  unfold InMemoryJobQueueState.settleCompleted
  exact (stored.recordTerminalChild completed.parentId completed).removalOrRetention _ _ _ _ _

theorem finishCompletion (silent : s.Silent id old) (completed : Job) (now : DateTime)
    : (s.finishCompletion completed now).Silent id old := by
  unfold InMemoryJobQueueState.finishCompletion
  simp only
  refine emitDrainedEventIfNeededLocked (emitOther ?_ (by decide) _ _ _ _) _
  split
  · exact silent
  · exact silent.releaseParentIfReadyLocked _ now

theorem completeJob (silent : s.Silent id old) (cron : Cron) (jobId : JobId)
    (lockToken : JobLockToken) (value : Value) (now : DateTime) (uuid : JobId)
    : (s.completeJob cron jobId lockToken value now uuid).1.Silent id old := by
  unfold InMemoryJobQueueState.completeJob
  split
  · exact silent
  · next job _ =>
      unfold InMemoryJobQueueState.completeLocked
      simp only
      generalize completedJob job value now = completed
      have kept := (silent.settleCompleted completed now).enqueueKeptNext completed now
      split
      · next same => rw [same] at kept; exact kept.finishCompletion completed now
      · next same =>
          rw [same] at kept
          split
          · exact kept
          · exact kept.finishCompletion completed now
          · exact (kept.insertCreated _ now).finishCompletion completed now

theorem settleParentOfFailed (silent : s.Silent id old) (failed : Job) (parentId : JobId)
    (now : DateTime)
    : (s.settleParentOfFailed failed parentId now).Silent id old := by
  unfold InMemoryJobQueueState.settleParentOfFailed
  split
  · exact silent.deferParentFailureAfterChildFailureLocked _ _ _
  · split
    · exact silent.continueParentAfterChildFailureLocked _ _
    · split
      · exact silent.releaseParentIfReadyLocked _ _
      · exact silent.failWaitingParentLocked _ _ _

theorem settleTerminalFailure (silent : s.Silent id old) (failed : Job) (now : DateTime)
    : (s.settleTerminalFailure failed now).Silent id old := by
  have settled : (s.settleFailed failed now).Silent id old := by
    unfold InMemoryJobQueueState.settleFailed
    exact (silent.recordTerminalChild failed.parentId failed).removalOrRetention _ _ _ _ _
  have kept := settled.enqueueKeptNext failed now
  unfold InMemoryJobQueueState.settleTerminalFailure
  simp only
  split
  · exact kept
  · exact kept.settleParentOfFailed failed _ now

/-- The events of a failure report exhausted retries of the failed job only. -/
theorem reportFailure (silent : s.Silent id old) {failed : Job}
    (quiet : failed.id ≠ id ∨ retriesExhausted failed = false) (now : DateTime)
    : (let s :=
        s.emitEventLocked (jobEventForState failed.state) (some failed) (some .active) now
          (failedReasonFields failed)
      if retriesExhausted failed then s.emitRetriesExhaustedEventLocked failed now else s).Silent id
        old := by
  have ended := silent.emitOther (jobEventForState_ne failed.state) (some failed)
    (some .active) now (failedReasonFields failed)
  simp only
  split
  · next exhausted =>
      refine ended.emitEventLocked (.inr ?_) _ _ _
      rcases quiet with other | retried
      · simpa using other
      · rw [retried] at exhausted
        cases exhausted
  · exact ended

/-- A failure reports exhausted retries of its own job only, and of none while it is retried. -/
theorem failActiveJob (silent : s.Silent id old) (jobId : JobId) (lockToken : JobLockToken)
    (error : String) (now : DateTime) (allowRetry : Bool)
    (quiet
      : ∀ job, s.requireOwnedActive jobId lockToken "fail" = .ok job →
          jobId ≠ id ∨ retriesExhausted (failedJob job error now allowRetry) = false)
    : (s.failActiveJob jobId lockToken error now allowRetry).1.Silent id old := by
  unfold InMemoryJobQueueState.failActiveJob
  split
  · exact silent
  · next job owned =>
      have sameId : (failedJob job error now allowRetry).id = jobId :=
        failedJob_ties.id.trans (JobMap.get_id (requireOwnedActive_ok owned).1)
      have about := quiet job owned
      rw [← sameId] at about
      generalize failedJob job error now allowRetry = failed at about ⊢
      have stored : (s.setJob failed).Silent id old := silent
      by_cases terminal : failed.state = .failed
      · simp only [if_pos terminal]
        refine emitDrainedEventIfNeededLocked ?_ now
        exact (stored.settleTerminalFailure failed now).reportFailure about now
      · simp only [if_neg terminal]
        exact stored.reportFailure about now

/-- The sweep over stalled jobs, by induction on them. -/
theorem sweepStalled (silent : s.Silent id old) (now : DateTime) (jobs : List Job)
    : (s.sweepStalled now jobs).1.Silent id old := by
  induction jobs generalizing s with
  | nil => exact silent
  | cons stalled rest ih =>
      unfold InMemoryJobQueueState.sweepStalled
      split
      · exact ih silent
      · simp only
        split
        · refine ih ?_
          exact silent
        · refine ih ?_
          exact silent

theorem settleStalledFailure (silent : s.Silent id old) (now : DateTime) (failed : Job)
    : (s.settleStalledFailure now failed).Silent id old := by
  have kept := (silent.recordTerminalChild failed.parentId failed).enqueueKeptNext failed now
  unfold InMemoryJobQueueState.settleStalledFailure
  simp only
  split
  · exact kept
  · exact kept.applyFinishedRetentionLocked _ _ now

theorem settleStalledParent (silent : s.Silent id old) (now : DateTime) (failed : Job)
    : (s.settleStalledParent now failed).Silent id old := by
  unfold InMemoryJobQueueState.settleStalledParent
  split
  · exact silent
  · exact silent.settleParentOfFailed failed _ now

theorem emitStalledEvents (silent : s.Silent id old) (now : DateTime) (job : Job)
    : (s.emitStalledEvents now job).Silent id old := by
  unfold InMemoryJobQueueState.emitStalledEvents
  exact (silent.emitOther (by decide) _ _ _ _).emitOther (jobEventForState_ne _) _ _ _ _

/-- A loop whose body stays silent stays silent, by induction on the list. -/
theorem foldl {body : InMemoryJobQueueState → Job → InMemoryJobQueueState}
    (silent : s.Silent id old) (jobs : List Job)
    (keeps : ∀ {s : InMemoryJobQueueState} (job : Job), s.Silent id old →
      (body s job).Silent id old)
    : (jobs.foldl body s).Silent id old := by
  induction jobs generalizing s with
  | nil => exact silent
  | cons job rest ih => exact ih (keeps job silent)

theorem recoverStalledJobs (silent : s.Silent id old) (now : DateTime)
    : (s.recoverStalledJobs now).1.Silent id old := by
  unfold InMemoryJobQueueState.recoverStalledJobs
  simp only
  have serves (failures : List Job) {s : InMemoryJobQueueState} (silent : s.Silent id old)
      : (failures.foldl (InMemoryJobQueueState.settleStalledParent now) s).Silent id old :=
    silent.foldl failures fun job kept => kept.settleStalledParent now job
  refine foldl ?_ _ fun job kept => kept.emitStalledEvents now job
  refine serves _ (serves _ (serves _ (serves _ ?_)))
  refine foldl ?_ _ fun job kept => kept.settleStalledFailure now job
  exact (silent.sweepStalled now _).removeJobRecords _

end Silent

end InMemoryJobQueueState

-----------------------------------------------------------------------------------------
-- Every operation
-----------------------------------------------------------------------------------------

/-- The job that an operation fails, if it is accepted. -/
def Op.failedId : Op → Option JobId
  | .failJob jobId _ _ _ => some jobId
  | .failJobDiscardingRetry jobId _ _ _ => some jobId
  | _ => none

open InMemoryJobQueueState

/-- Every operation that does not fail the job stays silent about it, by cases on the
operation.
-/
theorem InMemoryJobQueueState.Silent.step {id : JobId} {old : List JobEvent}
    {s : InMemoryJobQueueState} (silent : s.Silent id old) (cron : Cron) (find : Find)
    (queue : QueueName) {op : Op} (other : op.failedId ≠ some id)
    : (Lane.step cron find queue s op).Silent id old := by
  cases op with
  | addAt name payload options now uuid => exact silent.addAt cron find queue name payload _ now _
  | addManyAt specs now => exact silent.addManyAt cron find queue specs now
  | addFlowAt parent children now => exact silent.addFlowAt cron find queue parent children now
  | addFlowChildrenAt parentId lockToken children now =>
      exact silent.addFlowChildrenAt cron find queue parentId lockToken children now
  | removeUnprocessedChildren parentId now => exact silent.removeUnprocessedChildren parentId now
  | removeChildDependency childId now => exact silent.removeChildDependency childId now
  | remove jobId clock => exact silent.remove jobId clock
  | removeDeduplicationKey deduplicationId clock =>
      exact silent.removeDeduplicationKey find deduplicationId clock
  | upsertRepeat spec now => exact silent.upsertRepeat cron find queue spec now
  | removeRepeat repeatKey clock => exact silent.removeRepeat find repeatKey clock
  | promote jobId now => exact silent.promote jobId now
  | reschedule jobId delay now => exact silent.reschedule jobId delay now
  | retry jobId now => exact silent.retry find jobId now
  | renew jobId lockToken leaseFor now => exact silent.renew jobId lockToken leaseFor now
  | delayActive jobId lockToken delay now => exact silent.delayActive jobId lockToken delay now
  | releaseActive jobId lockToken now => exact silent.releaseActive jobId lockToken now
  | setPriorityOrder jobId priority lifo => exact silent.setPriorityOrder jobId priority lifo
  | setData jobId payload => exact silent.setData jobId payload
  | setProgress jobId progress clock => exact silent.setProgress jobId progress clock
  | saveStacktrace jobId stacktrace failedReason =>
      exact silent.saveStacktrace jobId stacktrace failedReason
  | log jobId line keep now => exact silent.log jobId line keep now
  | clearLogs jobId keep => exact silent.clearLogs jobId keep
  | clean state grace limit now => exact silent.clean state grace limit now
  | drain includeDelayed clock => exact silent.drain find includeDelayed clock
  | obliterate force => exact silent.obliterate force
  | claimNext workerId leaseFor now lockToken =>
      exact silent.claimNext workerId leaseFor now lockToken
  | completeJob jobId lockToken value now uuid =>
      exact silent.completeJob cron jobId lockToken value now uuid
  | failJob jobId lockToken error now =>
      refine silent.failActiveJob jobId lockToken error now true ?_
      exact fun _ _ => .inl (fun same => other (congrArg some same))
  | failJobDiscardingRetry jobId lockToken error now =>
      refine silent.failActiveJob jobId lockToken error now false ?_
      exact fun _ _ => .inl (fun same => other (congrArg some same))
  | trimEvents maxLen => exact silent.trimEventsLocked maxLen
  | promoteDueJobs now => exact silent.promoteDueLocked now
  | recoverStalledJobs now => exact silent.recoverStalledJobs now
  | pause clock =>
      refine Silent.emitOther ?_ (by decide) _ _ _ _
      exact silent
  | resume clock =>
      refine Silent.emitOther ?_ (by decide) _ _ _ _
      exact silent

end Lane
