import Lane.Job.Step

/-! The log of events says nothing new about exhausted retries of a job: no helper under the
lock emits such an event, because each names its own event.
-/

namespace Lane

theorem jobEventForState_ne (state : JobState) : jobEventForState state ≠ "retries-exhausted" := by
  cases state <;> simp [jobEventForState]

/-- The event reports that the retries of this job are exhausted. -/
def JobEvent.ReportsExhaustion (id : JobId) (entry : JobEvent) : Prop :=
  entry.event = "retries-exhausted" ∧ entry.jobId = some id

namespace InMemoryJobQueueState

/-- The log reports exhausted retries of this job in old events only. -/
def Silent (id : JobId) (old : List JobEvent) (s : InMemoryJobQueueState) : Prop :=
  ∀ entry ∈ s.events, entry.ReportsExhaustion id → entry ∈ old

namespace Silent

variable {id : JobId} {old : List JobEvent} {s : InMemoryJobQueueState} {now : DateTime}

/-- A log with fewer events stays silent. -/
theorem of_subset {t : InMemoryJobQueueState} (silent : s.Silent id old)
    (fewer : ∀ entry ∈ t.events, entry ∈ s.events)
    : t.Silent id old :=
  fun entry member => silent entry (fewer entry member)

-----------------------------------------------------------------------------------------
-- Events
-----------------------------------------------------------------------------------------

theorem trimEventsLocked (silent : s.Silent id old) (maxLen : Nat)
    : (s.trimEventsLocked maxLen).1.Silent id old := by
  unfold InMemoryJobQueueState.trimEventsLocked
  split
  · exact silent
  · exact silent.of_subset (fun entry => List.mem_of_mem_drop)

/-- An event of another kind, or one about another job, does not count. -/
theorem emitEventLocked (silent : s.Silent id old) {event : String} {job : Option Job}
    (other : event ≠ "retries-exhausted" ∨ job.map Job.id ≠ some id) (prev : Option JobState)
    (timestamp : DateTime) (fields : List (String × Value))
    : (s.emitEventLocked event job prev timestamp fields).Silent id old := by
  unfold InMemoryJobQueueState.emitEventLocked
  refine trimEventsLocked ?_ _
  intro entry member reports
  rcases List.mem_append.mp member with earlier | last
  · exact silent entry earlier reports
  · obtain rfl := List.mem_singleton.mp last
    rcases other with kind | about
    · exact absurd reports.1 kind
    · exact absurd reports.2 about

/-- An event of another kind does not count. -/
theorem emitOther (silent : s.Silent id old) {event : String}
    (other : event ≠ "retries-exhausted") (job : Option Job) (prev : Option JobState)
    (timestamp : DateTime) (fields : List (String × Value))
    : (s.emitEventLocked event job prev timestamp fields).Silent id old :=
  silent.emitEventLocked (.inl other) prev timestamp fields

theorem emitJobCreatedEventsLocked (silent : s.Silent id old) (job : Job) (now : DateTime)
    : (s.emitJobCreatedEventsLocked job now).Silent id old := by
  unfold InMemoryJobQueueState.emitJobCreatedEventsLocked
  exact (silent.emitOther (by decide) _ _ _ _).emitOther (jobEventForState_ne _) _ _ _ _

theorem emitRemovedEventLocked (silent : s.Silent id old) (job : Job) (timestamp : DateTime)
    : (s.emitRemovedEventLocked job timestamp).Silent id old :=
  silent.emitOther (by decide) _ _ _ _

theorem emitDuplicatedEventLocked (silent : s.Silent id old) (job : Job) (timestamp : DateTime)
    : (s.emitDuplicatedEventLocked job timestamp).Silent id old :=
  silent.emitOther (by decide) _ _ _ _

theorem emitDeduplicationEventsLocked (silent : s.Silent id old) (job : Job)
    (deduplicationId : String) (jobId : JobId) (timestamp : DateTime)
    : (s.emitDeduplicationEventsLocked job deduplicationId jobId timestamp).Silent id old := by
  unfold InMemoryJobQueueState.emitDeduplicationEventsLocked
  exact (silent.emitOther (by decide) _ _ _ _).emitOther (by decide) _ _ _ _

theorem emitDeduplicatedEventsLocked (silent : s.Silent id old) (owner candidate : Job)
    (timestamp : DateTime)
    : (s.emitDeduplicatedEventsLocked owner candidate timestamp).Silent id old := by
  unfold InMemoryJobQueueState.emitDeduplicatedEventsLocked
  split
  · exact silent
  · exact silent.emitDeduplicationEventsLocked _ _ _ _

theorem emitReplacedDeduplicatedOwnerEventsLocked (silent : s.Silent id old)
    (replacement removedOwner : Job) (timestamp : DateTime)
    : (s.emitReplacedDeduplicatedOwnerEventsLocked replacement removedOwner timestamp).Silent id
        old := by
  unfold InMemoryJobQueueState.emitReplacedDeduplicatedOwnerEventsLocked
  split
  · exact silent
  · exact silent.emitDeduplicationEventsLocked _ _ _ _

theorem emitDrainedEventIfNeededLocked (silent : s.Silent id old) (timestamp : DateTime)
    : (s.emitDrainedEventIfNeededLocked timestamp).Silent id old := by
  unfold InMemoryJobQueueState.emitDrainedEventIfNeededLocked
  simp only
  split
  · exact silent.emitOther (by decide) _ _ _ _
  · exact silent

-----------------------------------------------------------------------------------------
-- Side index, removal and retention
-----------------------------------------------------------------------------------------

theorem clearChildDependencySideIndexLocked (silent : s.Silent id old) (parentId childId : JobId)
    : (s.clearChildDependencySideIndexLocked parentId childId).1.Silent id old := by
  unfold InMemoryJobQueueState.clearChildDependencySideIndexLocked
  split
  · exact silent
  · simp only
    repeat' split
    all_goals exact silent

theorem recordTerminalChildDependencyLocked (silent : s.Silent id old) (parentId : JobId)
    (child : Job)
    : (s.recordTerminalChildDependencyLocked parentId child).Silent id old := by
  unfold InMemoryJobQueueState.recordTerminalChildDependencyLocked
  split
  · exact silent
  · split
    · exact silent
    · split
      · exact silent
      · split
        · exact silent
        · split
          · exact silent
          · split
            · exact silent.clearChildDependencySideIndexLocked _ _
            · exact silent
      · exact silent

/-- The record of a child that may have a parent. -/
theorem recordTerminalChild (silent : s.Silent id old) (parentId : Option JobId) (child : Job)
    : (match parentId with
        | none => s
        | some parentId => s.recordTerminalChildDependencyLocked parentId child).Silent id old := by
  split
  · exact silent
  · exact silent.recordTerminalChildDependencyLocked _ _

theorem forgetReleasedDeduplicationOwnerLocked (silent : s.Silent id old) (job : Job)
    : (s.forgetReleasedDeduplicationOwnerLocked job).Silent id old := by
  unfold InMemoryJobQueueState.forgetReleasedDeduplicationOwnerLocked
  split <;> exact silent

theorem removeJobRecordLocked (silent : s.Silent id old) (jobId : JobId)
    : (s.removeJobRecordLocked jobId).1.Silent id old := by
  unfold InMemoryJobQueueState.removeJobRecordLocked
  split
  · exact silent
  · refine forgetReleasedDeduplicationOwnerLocked ?_ _
    exact silent

/-- Removals in a row, by induction on the ids. -/
theorem removeJobRecords (silent : s.Silent id old) (ids : List JobId)
    : (s.removeJobRecords ids).Silent id old := by
  induction ids generalizing s with
  | nil => exact silent
  | cons first rest ih => exact ih (silent.removeJobRecordLocked first)

theorem applyFinishedRetentionLocked (silent : s.Silent id old) (state : JobState)
    (retention : JobRetention) (now : DateTime)
    : (s.applyFinishedRetentionLocked state retention now).Silent id old := by
  unfold InMemoryJobQueueState.applyFinishedRetentionLocked
  cases retention.age <;> cases retention.count
  · exact silent
  · exact silent.removeJobRecords _
  · exact silent.removeJobRecords _
  · exact (silent.removeJobRecords _).removeJobRecords _

/-- The removal or the retention of a finished job. -/
theorem removalOrRetention (silent : s.Silent id old) (immediately : Bool) (jobId : JobId)
    (retention : Option JobRetention) (state : JobState) (now : DateTime)
    : (if immediately then
        (s.removeJobRecordLocked jobId).1
      else
        match retention with
        | none => s
        | some retention => s.applyFinishedRetentionLocked state retention now).Silent id old := by
  split
  · exact silent.removeJobRecordLocked jobId
  · split
    · exact silent
    · exact silent.applyFinishedRetentionLocked _ _ _

-----------------------------------------------------------------------------------------
-- Keep-last candidates and admission
-----------------------------------------------------------------------------------------

theorem clearOwnerExpiration (silent : s.Silent id old) (ownerId : JobId)
    : (s.clearOwnerExpiration ownerId).Silent id old := by
  unfold InMemoryJobQueueState.clearOwnerExpiration
  split <;> exact silent

theorem storeDeduplicatedNextLocked (silent : s.Silent id old) (candidate existing : Job)
    : (s.storeDeduplicatedNextLocked candidate existing).1.Silent id old := by
  unfold InMemoryJobQueueState.storeDeduplicatedNextLocked
  split
  · exact silent
  · split
    · exact silent
    · simp only
      refine clearOwnerExpiration ?_ _
      exact silent

theorem storeDeduplicatedNextFlowLocked (silent : s.Silent id old) (candidate : JobFlow)
    (existing : Job)
    : (s.storeDeduplicatedNextFlowLocked candidate existing).1.Silent id old := by
  unfold InMemoryJobQueueState.storeDeduplicatedNextFlowLocked
  split
  · exact silent
  · split
    · exact silent
    · simp only
      refine clearOwnerExpiration ?_ _
      exact silent

theorem extendDeduplicationExpirationLocked (silent : s.Silent id old) (candidate : Job)
    (existingId : JobId) (now : DateTime)
    : (s.extendDeduplicationExpirationLocked candidate existingId now).1.Silent id old := by
  unfold InMemoryJobQueueState.extendDeduplicationExpirationLocked
  split
  · exact silent
  · split <;> exact silent

theorem assignWaitingOrder (silent : s.Silent id old) (job : Job)
    : (s.assignWaitingOrder job).1.Silent id old := by
  unfold InMemoryJobQueueState.assignWaitingOrder
  split <;> exact silent

theorem insertCreated (silent : s.Silent id old) (job : Job) (now : DateTime)
    : (s.insertCreated job now).1.Silent id old := by
  have drawn := (silent.forgetReleasedDeduplicationOwnerLocked job).assignWaitingOrder job
  unfold InMemoryJobQueueState.insertCreated
  refine emitJobCreatedEventsLocked ?_ _ _
  exact drawn

theorem insertSequenced (silent : s.Silent id old) (job : Job) (now : DateTime)
    : (s.insertSequenced job now).1.Silent id old := by
  rw [insertSequenced_eq_insertCreated]
  exact silent.insertCreated job now

/-- Admissions in a row, by induction on the jobs. -/
theorem insertAllCreated (silent : s.Silent id old) (now : DateTime) (jobs : List Job)
    : (s.insertAllCreated now jobs).1.Silent id old := by
  induction jobs generalizing s with
  | nil => exact silent
  | cons job rest ih => exact ih (silent.insertCreated job now)

theorem pushChildId (silent : s.Silent id old) (parentId childId : JobId)
    : (s.pushChildId parentId childId).Silent id old := by
  unfold InMemoryJobQueueState.pushChildId
  split
  · exact silent
  · split <;> exact silent

theorem enqueueDeduplicatedNextLocked (silent : s.Silent id old) (owner : Job) (now : DateTime)
    : (s.enqueueDeduplicatedNextLocked owner now).1.Silent id old := by
  unfold InMemoryJobQueueState.enqueueDeduplicatedNextLocked
  split
  · exact silent
  · split
    · exact silent
    · simp only
      split
      · exact silent
      · split
        · exact silent
        · refine insertCreated ?_ _ now
          split
          · exact silent
          · refine pushChildId ?_ _ _
            exact silent

theorem enqueueDeduplicatedNextFlowLocked (silent : s.Silent id old) (owner : Job)
    (now : DateTime)
    : (s.enqueueDeduplicatedNextFlowLocked owner now).1.Silent id old := by
  unfold InMemoryJobQueueState.enqueueDeduplicatedNextFlowLocked
  split
  · exact silent
  · split
    · exact silent
    · simp only
      split
      · exact silent
      · refine insertAllCreated (insertCreated ?_ _ now) now _
        exact silent

theorem enqueueKeptNext (silent : s.Silent id old) (owner : Job) (now : DateTime)
    : (s.enqueueKeptNext owner now).1.Silent id old := by
  have kept := silent.enqueueDeduplicatedNextLocked owner now
  unfold InMemoryJobQueueState.enqueueKeptNext
  split
  · next same => rw [same] at kept; exact kept
  · next same =>
      rw [same] at kept
      exact kept.enqueueDeduplicatedNextFlowLocked owner now

-----------------------------------------------------------------------------------------
-- Flow parents and due jobs
-----------------------------------------------------------------------------------------

theorem scheduleParent (silent : s.Silent id old) (parent : Job)
    (deferredFailure : Option String) (prev : JobState) (now : DateTime)
    : (s.scheduleParent parent deferredFailure prev now).1.Silent id old := by
  unfold InMemoryJobQueueState.scheduleParent
  simp only
  refine emitOther ?_ (jobEventForState_ne _) _ _ _ _
  split <;> exact silent

theorem deferParentFailureAfterChildFailureLocked (silent : s.Silent id old)
    (parentId childId : JobId) (now : DateTime)
    : (s.deferParentFailureAfterChildFailureLocked parentId childId now).1.Silent id old := by
  unfold InMemoryJobQueueState.deferParentFailureAfterChildFailureLocked
  split
  · exact silent
  · split
    · exact silent
    · exact silent.scheduleParent _ _ _ _

theorem continueParentAfterChildFailureLocked (silent : s.Silent id old) (parentId : JobId)
    (now : DateTime)
    : (s.continueParentAfterChildFailureLocked parentId now).1.Silent id old := by
  unfold InMemoryJobQueueState.continueParentAfterChildFailureLocked
  split
  · exact silent
  · split
    · exact silent
    · exact silent.scheduleParent _ _ _ _

theorem failWaitingParentLocked (silent : s.Silent id old) (parentId : JobId) (reason : String)
    (now : DateTime)
    : (s.failWaitingParentLocked parentId reason now).1.Silent id old := by
  unfold InMemoryJobQueueState.failWaitingParentLocked
  split
  · exact silent
  · split
    · exact silent
    · refine emitOther ?_ (by decide) _ _ _ _
      refine removalOrRetention ?_ _ _ _ _ _
      exact silent

theorem releaseParentIfReadyLocked (silent : s.Silent id old) (parentId : JobId)
    (now : DateTime)
    : (s.releaseParentIfReadyLocked parentId now).1.Silent id old := by
  unfold InMemoryJobQueueState.releaseParentIfReadyLocked
  split
  · exact silent
  · split
    · exact silent
    · split
      · exact silent
      · exact silent.deferParentFailureAfterChildFailureLocked _ _ _
      · exact silent.failWaitingParentLocked _ _ _
      · exact silent.scheduleParent _ _ _ _

theorem restoreParentDependencyAfterChildRetryLocked (silent : s.Silent id old)
    (parentId childId : JobId) (now : DateTime)
    : (s.restoreParentDependencyAfterChildRetryLocked parentId childId now).1.Silent id old := by
  unfold InMemoryJobQueueState.restoreParentDependencyAfterChildRetryLocked
  split
  · exact silent
  · split
    · exact silent
    · split
      · exact silent
      · have cleared := silent.clearChildDependencySideIndexLocked parentId childId
        simp only
        split
        · refine emitOther ?_ (by decide) _ _ _ _
          exact cleared
        · exact cleared

/-- Releases in a row, by induction on the parents. -/
theorem releaseParents (silent : s.Silent id old) (parents : List (JobId × DateTime))
    : (s.releaseParents parents).Silent id old := by
  induction parents generalizing s with
  | nil => exact silent
  | cons parent rest ih => exact ih (silent.releaseParentIfReadyLocked parent.1 parent.2)

theorem promoteDueJob (silent : s.Silent id old) (now : DateTime) (count : Nat) (due : Job)
    : (InMemoryJobQueueState.promoteDueJob now (s, count) due).1.Silent id old := by
  unfold InMemoryJobQueueState.promoteDueJob
  simp only
  split
  · exact silent
  · refine emitOther ?_ (by decide) _ _ _ _
    exact silent

/-- Promotions in a row, by induction on the due jobs. -/
theorem promoteDueLocked (silent : s.Silent id old) (now : DateTime)
    : (s.promoteDueLocked now).1.Silent id old := by
  have promoted (due : List Job)
      : ∀ (s : InMemoryJobQueueState) (count : Nat), s.Silent id old →
          (due.foldl (InMemoryJobQueueState.promoteDueJob now) (s, count)).1.Silent id old := by
    induction due with
    | nil => exact fun _ _ silent => silent
    | cons job rest ih =>
        intro s count silent
        exact ih _ _ (silent.promoteDueJob now count job)
  exact promoted _ s 0 silent

end Silent

end InMemoryJobQueueState

end Lane
