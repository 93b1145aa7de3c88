import Lane.Board.Processing
import Lane.Life.Processing
import Lane.Stock.Submission

/-! Every operation keeps what the contents of all records have in common, provided that what it
takes in has it: the options that it submits, the result and the progress that it writes.
-/

namespace Lane

-----------------------------------------------------------------------------------------
-- What an operation takes in
-----------------------------------------------------------------------------------------

/-- The options of the jobs that an operation submits. -/
def Op.submittedOptions : Op → List JobOptions
  | .addAt _ _ options _ _ => [options]
  | .addManyAt specs _ => specs.map (fun entry => entry.1.options)
  | .addFlowAt parent children _ => (parent :: children).map (fun entry => entry.1.options)
  | .addFlowChildrenAt _ _ children _ => children.map (fun entry => entry.1.options)
  | .upsertRepeat spec _ => [spec.1.options]
  | _ => []

/-- The result that an operation completes a job with. -/
def Op.result : Op → Option Value
  | .completeJob _ _ value _ _ => some value
  | _ => none

/-- The progress that an operation reports. -/
def Op.progress : Op → Option Value
  | .setProgress _ progress _ => some progress
  | _ => none

/-- What the operation takes in keeps a property of contents. -/
structure Op.Supplies (cron : Cron) (P : Contents → Prop) (op : Op) : Prop where
  submits
    : ∀ options ∈ op.submittedOptions, ∀ now,
        validateJobOptionsAt cron options now = .ok () → P options.contents
  completes : ∀ {value}, op.result = some value → ∀ c, P c → P { c with returnValue := some value }
  progresses
    : ∀ {progress}, op.progress = some progress → ∀ c, P c → P { c with progress := some progress }

namespace InMemoryJobQueueState

namespace Stores

variable {P : Contents → Prop} {s : InMemoryJobQueueState} {job existing : Job} {now : DateTime}
  {find : Find}

-----------------------------------------------------------------------------------------
-- Removal
-----------------------------------------------------------------------------------------

theorem removeWithEvents (stores : s.Stores P) (now : DateTime) (ids : List JobId)
    : (s.removeWithEvents now ids).1.Stores P := by
  induction ids generalizing s with
  | nil => exact stores
  | cons id rest ih =>
      have removed := stores.removeJobRecordLocked id
      unfold InMemoryJobQueueState.removeWithEvents
      split
      · next same => rw [same] at removed; exact ih removed
      · next same =>
          rw [same] at removed
          exact ih (removed.of_tables (emitRemovedEventLocked_tables _ _ _))

theorem removeUnprocessedChildren (stores : s.Stores P) (parentId : JobId) (now : DateTime)
    : (s.removeUnprocessedChildren parentId now).1.Stores P := by
  unfold InMemoryJobQueueState.removeUnprocessedChildren
  split
  · exact stores
  · exact (stores.removeWithEvents now _).releaseParentIfReadyLocked parentId now

theorem detachChild (stores : s.Stores P) {parent : Job} (contents : P parent.contents)
    (child : Job)
    : (s.detachChild parent child).Stores P := by
  have detached
      : (s.setJob { parent with childIds := parent.childIds.filter (· != child.id) }).Stores P :=
    stores.setJob contents
  have cleared := detached.of_tables
    (clearChildDependencySideIndexLocked_tables _ parent.id child.id)
  unfold InMemoryJobQueueState.detachChild
  simp only
  split
  · exact cleared
  · next found => exact cleared.update found rfl

theorem removeChildDependency (stores : s.Stores P) (childId : JobId) (now : DateTime)
    : (s.removeChildDependency childId now).1.Stores P := by
  unfold InMemoryJobQueueState.removeChildDependency
  split
  · exact stores
  · split
    · exact stores
    · split
      · exact stores
      · next parent found =>
          split
          · exact stores
          · exact (stores.detachChild (stores.retained found) _).releaseParentIfReadyLocked _ now

theorem removeAndRelease (stores : s.Stores P) (id : JobId) (now : DateTime)
    : (s.removeAndRelease id now).1.Stores P := by
  have removed := stores.removeJobRecordLocked id
  unfold InMemoryJobQueueState.removeAndRelease
  split
  · next same => rw [same] at removed; exact removed
  · next same =>
      rw [same] at removed
      refine of_tables ?_ (emitRemovedEventLocked_tables _ _ _)
      split
      · exact removed
      · exact removed.releaseParentIfReadyLocked _ now

theorem remove (stores : s.Stores P) (id : JobId) (clock : DateTime)
    : (s.remove id clock).1.Stores P := by
  unfold InMemoryJobQueueState.remove
  split
  · exact stores
  · split
    · exact stores
    · exact stores.removeAndRelease id clock

theorem removeDeduplicationKey (stores : s.Stores P) (find : Find) (deduplicationId : String)
    (clock : DateTime)
    : (s.removeDeduplicationKey find deduplicationId clock).1.Stores P := by
  unfold InMemoryJobQueueState.removeDeduplicationKey
  split
  · exact stores
  · split
    · exact stores
    · have dropped := (stores.dropNext deduplicationId).dropNextFlow deduplicationId
      exact ⟨dropped.retained, dropped.next, dropped.nextParent, dropped.nextChild⟩

theorem releaseParents (stores : s.Stores P) (parents : List (JobId × DateTime))
    : (s.releaseParents parents).Stores P := by
  induction parents generalizing s with
  | nil => exact stores
  | cons parent rest ih => exact ih (stores.releaseParentIfReadyLocked parent.1 parent.2)

theorem clean (stores : s.Stores P) (state : JobState) (grace : Duration) (limit : Nat)
    (now : DateTime)
    : (s.clean state grace limit now).1.Stores P := by
  unfold InMemoryJobQueueState.clean
  split
  · exact stores
  · refine of_tables ?_ (emitCleanedEventLocked_tables _ _ _)
    exact (stores.removeJobRecords _).releaseParents _

theorem drain (stores : s.Stores P) (find : Find) (includeDelayed : Bool)
    (clock : Nat → DateTime)
    : (s.drain find includeDelayed clock).1.Stores P := by
  unfold InMemoryJobQueueState.drain
  exact (stores.removeJobRecords _).releaseParents _

theorem obliterate (stores : s.Stores P) (force : Bool) : (s.obliterate force).1.Stores P := by
  unfold InMemoryJobQueueState.obliterate
  simp only
  split
  · exact ⟨stores.retained, stores.next, stores.nextParent, stores.nextChild⟩
  · have empty := Stores.empty (P := P)
    exact ⟨empty.retained, empty.next, empty.nextParent, empty.nextChild⟩

-----------------------------------------------------------------------------------------
-- Repeat series, rescheduling and manual retry
-----------------------------------------------------------------------------------------

theorem upsertRepeat (stores : s.Stores P) {cron : Cron} {spec : JobSpec × JobId}
    (accepts
      : validateJobOptionsAt cron spec.1.options now = .ok () → P spec.1.options.contents)
    (find : Find) (queue : QueueName)
    : (s.upsertRepeat cron find queue spec now).1.Stores P := by
  unfold InMemoryJobQueueState.upsertRepeat
  split
  · exact stores
  · next valid =>
      split
      · exact stores
      · simp only
        split
        · exact stores
        · unfold InMemoryJobQueueState.upsertRepeatLocked
          simp only
          split
          · exact stores
          · refine insertCreated ?_ ?_ now
            · split
              · exact stores
              · exact stores.removeJobRecordLocked _
            · exact accepts valid

theorem removeRepeat (stores : s.Stores P) (find : Find) (repeatKey : String)
    (clock : DateTime)
    : (s.removeRepeat find repeatKey clock).1.Stores P := by
  unfold InMemoryJobQueueState.removeRepeat
  split
  · exact stores
  · split
    · exact stores
    · exact stores.removeAndRelease _ clock

theorem promote (stores : s.Stores P) (id : JobId) (now : DateTime)
    : (s.promote id now).1.Stores P := by
  unfold InMemoryJobQueueState.promote
  split
  · exact stores
  · next current found =>
      split
      · exact stores
      · refine of_tables ?_ (emitEventLocked_tables _ _ _ _ _ _)
        have drawn := stores.of_tables (nextWaitingSequence_tables s)
        exact drawn.update found rfl

theorem reschedule (stores : s.Stores P) (enduring : Enduring P) (id : JobId) (delay : Duration)
    (now : DateTime)
    : (s.reschedule id delay now).1.Stores P := by
  unfold InMemoryJobQueueState.reschedule
  split
  · exact stores
  · split
    · exact stores
    · next job found =>
        split
        · exact stores
        · refine of_tables ?_ (emitEventLocked_tables _ _ _ _ _ _)
          refine setJob stores ?_
          exact enduring.delayed _ (some delay) (stores.retained found)

theorem retry (stores : s.Stores P) (enduring : Enduring P) (find : Find) (id : JobId)
    (now : DateTime)
    : (s.retry find id now).1.Stores P := by
  unfold InMemoryJobQueueState.retry
  split
  · exact stores
  · next current found =>
      split
      · exact stores
      · split
        · exact stores
        · have forgotten := stores.forgetReleasedDeduplicationOwnerLocked current
          have drawn := forgotten.of_tables (nextWaitingSequence_tables _)
          have contents (enqueuedSeq : Nat) : P (retriedJob current enqueuedSeq now).contents := by
            exact enduring.withdrawn _ (stores.retained found)
          have moved (enqueuedSeq : Nat) := drawn.setJob (contents enqueuedSeq)
          simp only
          split
          · exact (moved _).of_tables (emitEventLocked_tables _ _ _ _ _ _)
          · refine restoreParentDependencyAfterChildRetryLocked ?_ _ _ _
            exact (moved _).of_tables (emitEventLocked_tables _ _ _ _ _ _)

-----------------------------------------------------------------------------------------
-- Updates of one record
-----------------------------------------------------------------------------------------

theorem renew (stores : s.Stores P) (id : JobId) (lockToken : JobLockToken)
    (leaseFor : Duration) (now : DateTime)
    : (s.renew id lockToken leaseFor now).1.Stores P := by
  unfold InMemoryJobQueueState.renew
  split
  · exact stores
  · next job owned => exact stores.update (requireOwnedActive_ok owned).1 rfl

theorem delayActive (stores : s.Stores P) (enduring : Enduring P) (id : JobId)
    (lockToken : JobLockToken) (delay : Duration) (now : DateTime)
    : (s.delayActive id lockToken delay now).1.Stores P := by
  unfold InMemoryJobQueueState.delayActive
  split
  · exact stores
  · next job owned =>
      refine of_tables ?_ (emitEventLocked_tables _ _ _ _ _ _)
      refine setJob stores ?_
      exact enduring.delayed _ (some delay) (stores.retained (requireOwnedActive_ok owned).1)

theorem releaseActive (stores : s.Stores P) (id : JobId) (lockToken : JobLockToken)
    (now : DateTime)
    : (s.releaseActive id lockToken now).1.Stores P := by
  unfold InMemoryJobQueueState.releaseActive
  split
  · exact stores
  · next job owned =>
      refine of_tables ?_ (emitEventLocked_tables _ _ _ _ _ _)
      exact stores.update (requireOwnedActive_ok owned).1 rfl

theorem setPriorityOrder (stores : s.Stores P) (enduring : Enduring P) (id : JobId)
    (priority : JobPriority) (lifo : Option Bool)
    : (s.setPriorityOrder id priority lifo).1.Stores P := by
  unfold InMemoryJobQueueState.setPriorityOrder
  split
  · exact stores
  · split
    · exact stores
    · next job found =>
        have ordered := enduring.ordered _ priority (lifo.getD job.options.lifo)
          (stores.retained found)
        simp only
        split
        · refine setJob (stores.of_tables (nextWaitingSequence_tables s)) ?_
          exact ordered
        · refine setJob stores ?_
          exact ordered

theorem setData (stores : s.Stores P) (id : JobId) (payload : Value)
    : (s.setData id payload).1.Stores P := by
  unfold InMemoryJobQueueState.setData
  split
  · exact stores
  · next job found => exact stores.update found rfl

theorem setProgress (stores : s.Stores P) {progress : Value}
    (writes : ∀ c, P c → P { c with progress := some progress }) (id : JobId) (clock : DateTime)
    : (s.setProgress id progress clock).1.Stores P := by
  unfold InMemoryJobQueueState.setProgress
  split
  · exact stores
  · next job found =>
      refine of_tables ?_ (emitEventLocked_tables _ _ _ _ _ _)
      refine stores.setJob ?_
      exact writes _ (stores.retained found)

theorem saveStacktrace (stores : s.Stores P) (id : JobId) (stacktrace : List String)
    (failedReason : String)
    : (s.saveStacktrace id stacktrace failedReason).1.Stores P := by
  unfold InMemoryJobQueueState.saveStacktrace
  split
  · exact stores
  · next job found => exact stores.update found rfl

theorem log (stores : s.Stores P) (id : JobId) (line : String) (keep : Nat) (now : DateTime)
    : (s.log id line keep now).1.Stores P := by
  unfold InMemoryJobQueueState.log
  split
  · exact stores
  · next job found => exact stores.update found rfl

theorem clearLogs (stores : s.Stores P) (id : JobId) (keep : Nat)
    : (s.clearLogs id keep).1.Stores P := by
  unfold InMemoryJobQueueState.clearLogs
  split
  · exact stores
  · next job found => exact stores.update found rfl

-----------------------------------------------------------------------------------------
-- Processing
-----------------------------------------------------------------------------------------

theorem claimNext (stores : s.Stores P) (workerId : JobWorkerId) (leaseFor : Duration)
    (now : DateTime) (lockToken : JobLockToken)
    : (s.claimNext workerId leaseFor now lockToken).1.Stores P := by
  have promoted := stores.promoteDueLocked now
  unfold InMemoryJobQueueState.claimNext
  split
  · exact stores
  · simp only
    split
    · exact promoted
    · next job least =>
        refine of_tables ?_ (emitEventLocked_tables _ _ _ _ _ _)
        exact promoted.update (firstWaiting_some least).1 rfl

theorem settleCompleted (stores : s.Stores P) {completed : Job} (contents : P completed.contents)
    (now : DateTime)
    : (s.settleCompleted completed now).Stores P := by
  have recorded := (stores.setJob contents).of_tables
    (recordTerminalChild_tables _ completed.parentId completed)
  unfold InMemoryJobQueueState.settleCompleted
  exact recorded.removalOrRetention _ _ _ _ _

theorem enqueueKeptNext (stores : s.Stores P) (enduring : Enduring P) (owner : Job)
    (now : DateTime)
    : (s.enqueueKeptNext owner now).1.Stores P := by
  have kept := stores.enqueueDeduplicatedNextLocked enduring owner now
  unfold InMemoryJobQueueState.enqueueKeptNext
  split
  · next same => rw [same] at kept; exact kept
  · next same =>
      rw [same] at kept
      exact kept.enqueueDeduplicatedNextFlowLocked enduring owner now

theorem finishCompletion (stores : s.Stores P) (completed : Job) (now : DateTime)
    : (s.finishCompletion completed now).Stores P := by
  unfold InMemoryJobQueueState.finishCompletion
  simp only
  refine of_tables ?_ (emitDrainedEventIfNeededLocked_tables _ _)
  refine of_tables ?_ (emitEventLocked_tables _ _ _ _ _ _)
  split
  · exact stores
  · exact stores.releaseParentIfReadyLocked _ now

/-- The next occurrence starts with the options of the completed one, without its id. -/
theorem contents_nextRepeatJob {cron : Cron} {uuid : JobId} {next : Job} (enduring : Enduring P)
    (contents : P job.contents) (repeats : nextRepeatJob cron job now uuid = .ok (some next))
    : P next.contents := by
  unfold nextRepeatJob at repeats
  split at repeats
  · cases repeats
  · simp only at repeats
    split at repeats
    · cases repeats
    · split at repeats
      · cases repeats
      · cases repeats
      · split at repeats
        · cases repeats
        · cases repeats
          exact enduring.unnamed _ (enduring.restarted _ contents)

theorem completeJob (stores : s.Stores P) (enduring : Enduring P) {value : Value}
    (writes : ∀ c, P c → P { c with returnValue := some value }) (cron : Cron) (id : JobId)
    (lockToken : JobLockToken) (now : DateTime) (uuid : JobId)
    : (s.completeJob cron id lockToken value now uuid).1.Stores P := by
  unfold InMemoryJobQueueState.completeJob
  split
  · exact stores
  · next job completable =>
      have contents : P (completedJob job value now).contents := by
        exact writes _ (stores.retained (requireCompletable_ok completable).1)
      unfold InMemoryJobQueueState.completeLocked
      simp only
      generalize completedJob job value now = completed at contents
      have kept := (stores.settleCompleted contents now).enqueueKeptNext enduring completed now
      split
      · next same => rw [same] at kept; exact kept.finishCompletion completed now
      · next same =>
          rw [same] at kept
          split
          · exact kept
          · exact kept.finishCompletion completed now
          · next next repeats =>
              exact (kept.insertCreated (contents_nextRepeatJob enduring contents repeats) now)
                |>.finishCompletion completed now

-----------------------------------------------------------------------------------------
-- Failures
-----------------------------------------------------------------------------------------

theorem contents_failedJob (error : String) (now : DateTime) (allowRetry : Bool)
    : (failedJob job error now allowRetry).contents = job.contents := by
  unfold failedJob
  simp only
  split <;> rfl

theorem settleParentOfFailed (stores : s.Stores P) (failed : Job) (parentId : JobId)
    (now : DateTime)
    : (s.settleParentOfFailed failed parentId now).Stores P := by
  unfold InMemoryJobQueueState.settleParentOfFailed
  split
  · exact stores.deferParentFailureAfterChildFailureLocked _ _ _
  · split
    · exact stores.continueParentAfterChildFailureLocked _ _
    · split
      · exact stores.releaseParentIfReadyLocked _ _
      · exact stores.failWaitingParentLocked _ _ _

theorem settleTerminalFailure (stores : s.Stores P) (enduring : Enduring P) (failed : Job)
    (now : DateTime)
    : (s.settleTerminalFailure failed now).Stores P := by
  have settled : (s.settleFailed failed now).Stores P := by
    have recorded := stores.of_tables (recordTerminalChild_tables _ failed.parentId failed)
    unfold InMemoryJobQueueState.settleFailed
    exact recorded.removalOrRetention _ _ _ _ _
  have kept := settled.enqueueKeptNext enduring failed now
  unfold InMemoryJobQueueState.settleTerminalFailure
  simp only
  split
  · exact kept
  · exact kept.settleParentOfFailed failed _ now

theorem failActiveJob (stores : s.Stores P) (enduring : Enduring P) (id : JobId)
    (lockToken : JobLockToken) (error : String) (now : DateTime) (allowRetry : Bool)
    : (s.failActiveJob id lockToken error now allowRetry).1.Stores P := by
  unfold InMemoryJobQueueState.failActiveJob
  split
  · exact stores
  · next job owned =>
      simp only
      have failed : (s.setJob (failedJob job error now allowRetry)).Stores P := by
        refine stores.setJob ?_
        rw [contents_failedJob]
        exact stores.retained (requireOwnedActive_ok owned).1
      generalize failedJob job error now allowRetry = failure at failed ⊢
      have settled
          : (if failure.state = .failed then
              (s.setJob failure).settleTerminalFailure failure now
            else
              s.setJob failure).Stores P := by
        split
        · exact failed.settleTerminalFailure enduring failure now
        · exact failed
      refine settled.of_tables ?_
      split <;> split <;> simp

/-- The sweep over stalled jobs, by induction on them. -/
theorem sweepStalled (stores : s.Stores P) (now : DateTime) (jobs : List Job)
    : (s.sweepStalled now jobs).1.Stores P := by
  induction jobs generalizing s with
  | nil => exact stores
  | cons stalled rest ih =>
      unfold InMemoryJobQueueState.sweepStalled
      split
      · exact ih stores
      · next job found =>
          have contents : P (stalledJob job now).contents := by
            have held : P job.contents := stores.retained found
            unfold stalledJob
            simp only
            split <;> exact held
          simp only
          split
          · exact ih (stores.setJob contents)
          · refine ih (setJob (stores.of_tables (nextWaitingSequence_tables s)) ?_)
            exact contents

theorem settleStalledFailure (stores : s.Stores P) (enduring : Enduring P) (now : DateTime)
    (failed : Job)
    : (s.settleStalledFailure now failed).Stores P := by
  have recorded := stores.of_tables (recordTerminalChild_tables _ failed.parentId failed)
  have kept := recorded.enqueueKeptNext enduring failed now
  unfold InMemoryJobQueueState.settleStalledFailure
  simp only
  split
  · exact kept
  · exact kept.applyFinishedRetentionLocked _ _ now

theorem settleStalledParent (stores : s.Stores P) (now : DateTime) (failed : Job)
    : (s.settleStalledParent now failed).Stores P := by
  unfold InMemoryJobQueueState.settleStalledParent
  split
  · exact stores
  · exact stores.settleParentOfFailed failed _ now

theorem emitStalledEvents (stores : s.Stores P) (now : DateTime) (job : Job)
    : (s.emitStalledEvents now job).Stores P := by
  unfold InMemoryJobQueueState.emitStalledEvents
  exact stores.of_tables (by simp)

/-- A loop whose body keeps the property keeps it, by induction on the list. -/
theorem foldl {body : InMemoryJobQueueState → Job → InMemoryJobQueueState}
    (stores : s.Stores P) (jobs : List Job)
    (keeps : ∀ {s : InMemoryJobQueueState} (job : Job), s.Stores P → (body s job).Stores P)
    : (jobs.foldl body s).Stores P := by
  induction jobs generalizing s with
  | nil => exact stores
  | cons job rest ih => exact ih (keeps job stores)

theorem recoverStalledJobs (stores : s.Stores P) (enduring : Enduring P) (now : DateTime)
    : (s.recoverStalledJobs now).1.Stores P := by
  unfold InMemoryJobQueueState.recoverStalledJobs
  simp only
  have serves (failures : List Job) {s : InMemoryJobQueueState} (stores : s.Stores P)
      : (failures.foldl (InMemoryJobQueueState.settleStalledParent now) s).Stores P :=
    stores.foldl failures fun job kept => kept.settleStalledParent now job
  refine foldl ?_ _ fun job kept => kept.emitStalledEvents now job
  refine serves _ (serves _ (serves _ (serves _ ?_)))
  refine foldl ?_ _ fun job kept => kept.settleStalledFailure enduring now job
  exact (stores.sweepStalled now _).removeJobRecords _

-----------------------------------------------------------------------------------------
-- Every operation
-----------------------------------------------------------------------------------------

/-- Every operation keeps what the contents of all records have in common, by cases on the
operation.
-/
theorem step (stores : s.Stores P) (enduring : Enduring P) {cron : Cron} {op : Op}
    (supplies : op.Supplies cron P) (find : Find) (queue : QueueName)
    : (Lane.step cron find queue s op).Stores P := by
  have accepts {specs : List (JobSpec × JobId)} {now : DateTime}
      (within : ∀ entry ∈ specs, entry.1.options ∈ op.submittedOptions)
      : ∀ entry ∈ specs,
          validateJobOptionsAt cron entry.1.options now = .ok () → P entry.1.options.contents :=
    fun entry member => supplies.submits _ (within entry member) now
  cases op with
  | addAt name payload options now uuid =>
      exact stores.addAt (supplies.submits _ List.mem_cons_self now) find queue name payload uuid
  | addManyAt specs now =>
      exact stores.addManyAt (accepts fun entry => List.mem_map_of_mem) find queue
  | addFlowAt parent children now =>
      refine stores.addFlowAt (accepts fun entry member => ?_) find queue
      exact List.mem_map.mpr ⟨entry, member, rfl⟩
  | addFlowChildrenAt parentId lockToken children now =>
      exact stores.addFlowChildrenAt (accepts fun entry => List.mem_map_of_mem) find queue parentId
        lockToken
  | removeUnprocessedChildren parentId now => exact stores.removeUnprocessedChildren parentId now
  | removeChildDependency childId now => exact stores.removeChildDependency childId now
  | remove jobId clock => exact stores.remove jobId clock
  | removeDeduplicationKey deduplicationId clock =>
      exact stores.removeDeduplicationKey find deduplicationId clock
  | upsertRepeat spec now =>
      exact stores.upsertRepeat (supplies.submits _ List.mem_cons_self now) find queue
  | removeRepeat repeatKey clock => exact stores.removeRepeat find repeatKey clock
  | promote jobId now => exact stores.promote jobId now
  | reschedule jobId delay now => exact stores.reschedule enduring jobId delay now
  | retry jobId now => exact stores.retry enduring find jobId now
  | renew jobId lockToken leaseFor now => exact stores.renew jobId lockToken leaseFor now
  | delayActive jobId lockToken delay now =>
      exact stores.delayActive enduring jobId lockToken delay now
  | releaseActive jobId lockToken now => exact stores.releaseActive jobId lockToken now
  | setPriorityOrder jobId priority lifo =>
      exact stores.setPriorityOrder enduring jobId priority lifo
  | setData jobId payload => exact stores.setData jobId payload
  | setProgress jobId progress clock =>
      exact stores.setProgress (supplies.progresses rfl) jobId clock
  | saveStacktrace jobId stacktrace failedReason =>
      exact stores.saveStacktrace jobId stacktrace failedReason
  | log jobId line keep now => exact stores.log jobId line keep now
  | clearLogs jobId keep => exact stores.clearLogs jobId keep
  | clean state grace limit now => exact stores.clean state grace limit now
  | drain includeDelayed clock => exact stores.drain find includeDelayed clock
  | obliterate force => exact stores.obliterate force
  | claimNext workerId leaseFor now lockToken =>
      exact stores.claimNext workerId leaseFor now lockToken
  | completeJob jobId lockToken value now uuid =>
      exact stores.completeJob enduring (supplies.completes rfl) cron jobId lockToken now uuid
  | failJob jobId lockToken error now =>
      exact stores.failActiveJob enduring jobId lockToken error now true
  | failJobDiscardingRetry jobId lockToken error now =>
      exact stores.failActiveJob enduring jobId lockToken error now false
  | trimEvents maxLen => exact stores.of_tables (trimEventsLocked_tables s maxLen)
  | promoteDueJobs now => exact stores.promoteDueLocked now
  | recoverStalledJobs now => exact stores.recoverStalledJobs enduring now
  | pause clock =>
      exact of_tables stores (emitEventLocked_tables _ "paused" none none clock [])
  | resume clock =>
      exact of_tables stores (emitEventLocked_tables _ "resumed" none none clock [])

end Stores

namespace Stocked

variable {P : JobOptions → Prop} {s : InMemoryJobQueueState}

/-- Options are part of the contents. -/
theorem iff_stores : s.Stocked P ↔ s.Stores (fun c => P c.options) := by
  constructor
  · rintro ⟨retained, next, nextParent, nextChild⟩
    exact ⟨retained, next, nextParent, nextChild⟩
  · rintro ⟨retained, next, nextParent, nextChild⟩
    exact ⟨retained, next, nextParent, nextChild⟩

/-- Every operation keeps what all options have in common, if validated options have it. -/
theorem step (stocked : s.Stocked P) (lasting : Lasting P) {cron : Cron}
    (accepts : ∀ options now, validateJobOptionsAt cron options now = .ok () → P options)
    (find : Find) (queue : QueueName) (op : Op)
    : (Lane.step cron find queue s op).Stocked P := by
  have supplies : op.Supplies cron (fun c => P c.options) :=
    ⟨fun options _ now => accepts options now, fun _ _ => id, fun _ _ => id⟩
  exact iff_stores.mpr ((iff_stores.mp stocked).step lasting.enduring supplies find queue)

/-- The stored options of a reachable state have what all validated options have. -/
theorem of_reachable {cron : Cron} {queue : QueueName} (lasting : Lasting P)
    (accepts : ∀ options now, validateJobOptionsAt cron options now = .ok () → P options)
    (reached : Reachable cron queue s)
    : s.Stocked P := by
  refine LabelledSystem.Run.invariant (Stocked P) reached (iff_stores.mpr Stores.empty) ?_
  rintro before call after stocked _ ⟨_, rfl⟩
  exact stocked.step lasting accepts call.find queue call.op

end Stocked

end InMemoryJobQueueState

end Lane
