import Lane.Board.Changes
import Lane.Filing.Submission

/-! The filings of every operation, with what they come from. -/

namespace Lane

/-- The child whose results an operation takes back. -/
def Op.clearsChild : Op → Option JobId
  | .removeChildDependency childId _ => some childId
  | .retry jobId _ => some jobId
  | _ => none

namespace InMemoryJobQueueState

variable {o : Source} {s t : InMemoryJobQueueState} {job owner : Job} {id parentId : JobId}
  {now : DateTime} {find : Find}

-----------------------------------------------------------------------------------------
-- Updates of one record
-----------------------------------------------------------------------------------------

theorem shelf_promote (s : InMemoryJobQueueState) (jobId : JobId) (now : DateTime)
    : (s.promote jobId now).1.shelf = s.shelf := by
  unfold promote
  split
  · rfl
  · next current found =>
      split
      · rfl
      · simp only [emitEventLocked_shelf]
        exact shelf_update (s := s.nextWaitingSequence.1) found rfl

theorem shelf_reschedule (s : InMemoryJobQueueState) (jobId : JobId) (delay : Duration)
    (now : DateTime)
    : (s.reschedule jobId delay now).1.shelf = s.shelf := by
  unfold reschedule
  split
  · rfl
  · split
    · rfl
    · next found =>
        split
        · rfl
        · simp only [emitEventLocked_shelf]
          exact shelf_update found rfl

theorem shelf_renew (s : InMemoryJobQueueState) (jobId : JobId) (lockToken : JobLockToken)
    (leaseFor : Duration) (now : DateTime)
    : (s.renew jobId lockToken leaseFor now).1.shelf = s.shelf := by
  unfold renew
  split
  · rfl
  · next accepted => exact shelf_update (requireOwnedActive_ok accepted).1 rfl

theorem shelf_delayActive (s : InMemoryJobQueueState) (jobId : JobId)
    (lockToken : JobLockToken) (delay : Duration) (now : DateTime)
    : (s.delayActive jobId lockToken delay now).1.shelf = s.shelf := by
  unfold delayActive
  split
  · rfl
  · next accepted =>
      simp only [emitEventLocked_shelf]
      exact shelf_update (requireOwnedActive_ok accepted).1 rfl

theorem shelf_releaseActive (s : InMemoryJobQueueState) (jobId : JobId)
    (lockToken : JobLockToken) (now : DateTime)
    : (s.releaseActive jobId lockToken now).1.shelf = s.shelf := by
  unfold releaseActive
  split
  · rfl
  · next accepted =>
      simp only [emitEventLocked_shelf]
      exact shelf_update (requireOwnedActive_ok accepted).1 rfl

theorem shelf_setPriorityOrder (s : InMemoryJobQueueState) (jobId : JobId)
    (priority : JobPriority) (lifo : Option Bool)
    : (s.setPriorityOrder jobId priority lifo).1.shelf = s.shelf := by
  unfold setPriorityOrder
  split
  · rfl
  · split
    · rfl
    · next found =>
        simp only
        split
        · exact shelf_update (s := s.nextWaitingSequence.1) found rfl
        · exact shelf_update found rfl

theorem shelf_setData (s : InMemoryJobQueueState) (jobId : JobId) (payload : Value)
    : (s.setData jobId payload).1.shelf = s.shelf := by
  unfold setData
  split
  · rfl
  · next found => exact shelf_update found rfl

theorem shelf_setProgress (s : InMemoryJobQueueState) (jobId : JobId) (progress : Value)
    (clock : DateTime)
    : (s.setProgress jobId progress clock).1.shelf = s.shelf := by
  unfold setProgress
  split
  · rfl
  · next found =>
      simp only [emitEventLocked_shelf]
      exact shelf_update found rfl

theorem shelf_saveStacktrace (s : InMemoryJobQueueState) (jobId : JobId)
    (stacktrace : List String) (failedReason : String)
    : (s.saveStacktrace jobId stacktrace failedReason).1.shelf = s.shelf := by
  unfold saveStacktrace
  split
  · rfl
  · next found => exact shelf_update found rfl

theorem shelf_log (s : InMemoryJobQueueState) (jobId : JobId) (line : String) (keep : Nat)
    (now : DateTime)
    : (s.log jobId line keep now).1.shelf = s.shelf := by
  unfold log
  split
  · rfl
  · next found => exact shelf_update found rfl

theorem shelf_clearLogs (s : InMemoryJobQueueState) (jobId : JobId) (keep : Nat)
    : (s.clearLogs jobId keep).1.shelf = s.shelf := by
  unfold clearLogs
  split
  · rfl
  · next found => exact shelf_update found rfl

theorem shelf_claimNext (s : InMemoryJobQueueState) (workerId : JobWorkerId)
    (leaseFor : Duration) (now : DateTime) (lockToken : JobLockToken)
    : (s.claimNext workerId leaseFor now lockToken).1.shelf = s.shelf := by
  unfold claimNext
  split
  · rfl
  · simp only
    split
    · exact promoteDueLocked_shelf s now
    · next job least =>
        simp only [emitEventLocked_shelf]
        have member := List.mem_filter.mp (minBy_mem least)
        have found := JobMap.mem_values.mp member.1
        have sameId : (claimedJob job workerId leaseFor now lockToken).id = job.id := rfl
        exact (shelf_update found sameId).trans (promoteDueLocked_shelf s now)

theorem shelf_removeDeduplicationKey (find : Find) (s : InMemoryJobQueueState)
    (deduplicationId : String) (clock : DateTime)
    : (s.removeDeduplicationKey find deduplicationId clock).1.shelf = s.shelf := by
  unfold removeDeduplicationKey
  split
  · rfl
  · split <;> rfl

-----------------------------------------------------------------------------------------
-- Removals
-----------------------------------------------------------------------------------------

theorem files_removeAndRelease (s : InMemoryJobQueueState) (jobId : JobId) (now : DateTime)
    : Filings o s.shelf (s.removeAndRelease jobId now).1.shelf := by
  have removed := files_removeJobRecordLocked (o := o) s jobId
  unfold removeAndRelease
  split
  · next outcome =>
      rw [outcome] at removed
      exact removed
  · next outcome =>
      rw [outcome] at removed
      simp only [emitRemovedEventLocked_shelf]
      split
      · exact removed
      · exact removed.trans (files_releaseParentIfReadyLocked _ _ now)

theorem files_remove (s : InMemoryJobQueueState) (jobId : JobId) (clock : DateTime)
    : Filings o s.shelf (s.remove jobId clock).1.shelf := by
  unfold remove
  split
  · exact .refl
  · split
    · exact .refl
    · exact files_removeAndRelease s jobId clock

theorem files_removeRepeat (find : Find) (s : InMemoryJobQueueState) (repeatKey : String)
    (clock : DateTime)
    : Filings o s.shelf (s.removeRepeat find repeatKey clock).1.shelf := by
  unfold removeRepeat
  split
  · exact .refl
  · split
    · exact .refl
    · exact files_removeAndRelease s _ clock

/-- The parents of removed jobs are released in turn, by induction on them. -/
theorem files_releaseParents (s : InMemoryJobQueueState) (parentIds : List (JobId × DateTime))
    : Filings o s.shelf (s.releaseParents parentIds).shelf := by
  induction parentIds generalizing s with
  | nil => exact .refl
  | cons entry rest ih => exact (files_releaseParentIfReadyLocked s entry.1 entry.2).trans (ih _)

theorem files_clean (s : InMemoryJobQueueState) (state : JobState) (grace : Duration)
    (limit : Nat) (now : DateTime)
    : Filings o s.shelf (s.clean state grace limit now).1.shelf := by
  unfold clean
  split
  · exact .refl
  · simp only [emitCleanedEventLocked, emitEventLocked_shelf]
    exact (files_removeJobRecords s _).trans (files_releaseParents _ _)

theorem files_drain (find : Find) (s : InMemoryJobQueueState) (includeDelayed : Bool)
    (clock : Nat → DateTime)
    : Filings o s.shelf (s.drain find includeDelayed clock).1.shelf := by
  unfold drain
  exact (files_removeJobRecords s _).trans (files_releaseParents _ _)

/-- The unprocessed children are removed in turn, by induction on them. -/
theorem files_removeWithEvents (now : DateTime) (s : InMemoryJobQueueState) (ids : List JobId)
    : Filings o s.shelf (s.removeWithEvents now ids).1.shelf := by
  induction ids generalizing s with
  | nil => exact .refl
  | cons id rest ih =>
      have removed := files_removeJobRecordLocked (o := o) s id
      unfold removeWithEvents
      split
      · next outcome =>
          rw [outcome] at removed
          exact removed.trans (ih _)
      · next left job outcome =>
          rw [outcome] at removed
          have rest := ih (left.emitRemovedEventLocked job now)
          rw [emitRemovedEventLocked_shelf] at rest
          exact removed.trans rest

theorem files_removeUnprocessedChildren (s : InMemoryJobQueueState) (parentId : JobId)
    (now : DateTime)
    : Filings o s.shelf (s.removeUnprocessedChildren parentId now).1.shelf := by
  unfold removeUnprocessedChildren
  split
  · exact .refl
  · exact (files_removeWithEvents now s _).trans (files_releaseParentIfReadyLocked _ _ now)

theorem files_detachChild {parent child : Job} (found : s.jobs.get id = some parent)
    (clears : o.clears parent.id child.id)
    : Filings o s.shelf (s.detachChild parent child).shelf := by
  unfold detachChild
  simp only
  generalize written_eq
    : ({ parent with childIds := parent.childIds.filter (· != child.id) } : Job) = written
  have writtenId : written.id = parent.id := by rw [← written_eq]
  have same : (s.setJob written).shelf = s.shelf := shelf_update found writtenId
  have cleared
      : Filings o s.shelf
          ((s.setJob written).clearChildDependencySideIndexLocked parent.id child.id).1.shelf := by
    rw [← same]
    exact files_clearChildDependencySideIndexLocked clears
  split
  · exact cleared
  · next stored retained =>
      refine cleared.trans (Filings.of_eq ?_)
      exact shelf_update retained rfl

theorem files_removeChildDependency (s : InMemoryJobQueueState) {childId : JobId}
    (now : DateTime) (clears : ∀ parentId, o.clears parentId childId)
    : Filings o s.shelf (s.removeChildDependency childId now).1.shelf := by
  unfold removeChildDependency
  split
  · exact .refl
  · next child found =>
      split
      · exact .refl
      · split
        · exact .refl
        · next parent retained =>
            split
            · exact .refl
            · refine Relation.ReflTransGen.trans ?_ (files_releaseParentIfReadyLocked _ _ now)
              refine files_detachChild retained ?_
              rw [JobMap.get_id found]
              exact clears _

theorem files_restoreParentDependencyAfterChildRetryLocked (s : InMemoryJobQueueState)
    {parentId childId : JobId} (now : DateTime) (clears : o.clears parentId childId)
    : Filings o s.shelf
        (s.restoreParentDependencyAfterChildRetryLocked parentId childId now).1.shelf := by
  unfold restoreParentDependencyAfterChildRetryLocked
  split
  · exact .refl
  · next parent found =>
      split
      · exact .refl
      · split
        · exact .refl
        · have cleared := files_clearChildDependencySideIndexLocked (s := s) clears
          have known
              : (s.clearChildDependencySideIndexLocked parentId childId).1.jobs.get parentId
                = some parent := by
            rw [jobs_of_tables (clearChildDependencySideIndexLocked_tables s parentId childId)]
            exact found
          generalize s.clearChildDependencySideIndexLocked parentId childId = outcome at cleared known ⊢
          have sameId : (unleasedParent parent .waitingChildren).id = parent.id := rfl
          refine cleared.trans (Filings.of_eq ?_)
          simp only
          split
          · rw [emitEventLocked_shelf, shelf_update known sameId]
          · exact shelf_update known sameId

theorem files_retry (find : Find) (s : InMemoryJobQueueState) {jobId : JobId} (now : DateTime)
    (clears : ∀ parentId, o.clears parentId jobId)
    : Filings o s.shelf (s.retry find jobId now).1.shelf := by
  unfold retry
  split
  · exact .refl
  · next current found =>
      split
      · exact .refl
      · split
        · exact .refl
        · simp only
          generalize forgotten_eq : s.forgetReleasedDeduplicationOwnerLocked current = forgotten
          have same : forgotten.shelf = s.shelf := by
            rw [← forgotten_eq]
            exact forgetReleasedDeduplicationOwnerLocked_shelf s current
          have known : forgotten.nextWaitingSequence.1.jobs.get jobId = some current := by
            rw [← forgotten_eq, ← found]
            unfold forgetReleasedDeduplicationOwnerLocked
            split <;> rfl
          have sameId
              : (retriedJob current forgotten.nextWaitingSequence.2 now).id = current.id :=
            rfl
          have written := (shelf_update known sameId).trans same
          split
          · exact .of_eq ((emitEventLocked_shelf _ _ _ _ _ _).trans written)
          · rw [← written, ← emitEventLocked_shelf]
            exact files_restoreParentDependencyAfterChildRetryLocked _ now (clears _)

theorem files_obliterate (s : InMemoryJobQueueState) (force : Bool)
    : Filings o s.shelf (s.obliterate force).1.shelf := by
  unfold obliterate
  simp only
  split
  · exact .refl
  · exact .single .emptied

-----------------------------------------------------------------------------------------
-- The end of an owner
-----------------------------------------------------------------------------------------

theorem files_enqueueDeduplicatedNextLocked
    (enters : ∀ jobs, s.board.Candidate owner now jobs → ∀ job ∈ jobs, o.enters job.id)
    : Filings o s.shelf (s.enqueueDeduplicatedNextLocked owner now).1.shelf := by
  unfold enqueueDeduplicatedNextLocked
  split
  · exact .refl
  · next deduplicationId own =>
      split
      · exact .refl
      · next candidate stored =>
          simp only
          generalize taken_eq
            : ({ s with
                deduplicationNext := s.deduplicationNext.erase deduplicationId }
              : InMemoryJobQueueState) = taken
          have same : taken.shelf = s.shelf := by
            rw [← taken_eq]
            rfl
          split
          · exact .of_eq same
          · next repeatNextCount counted =>
              have entering
                  : o.enters (nextKeepLastJob owner candidate repeatNextCount now).id :=
                enters _ (.job own stored counted) _ (List.mem_singleton.mpr rfl)
              generalize nextKeepLastJob owner candidate repeatNextCount now = next at entering ⊢
              split
              · exact .of_eq same
              · rw [← same]
                split
                · exact files_insertCreated entering
                · next parentId _ =>
                    rw [← pushChildId_shelf taken parentId next.id]
                    exact files_insertCreated entering

theorem files_enqueueDeduplicatedNextFlowLocked
    (enters
      : ∀ {key stored},
          jobDeduplicationId owner = some key
          → s.deduplicationNextFlows.lookup key = some stored
          → let flow := prepareDeduplicatedNextFlow stored now
            ∀ job ∈ flow.parent :: flow.children, o.enters job.id)
    : Filings o s.shelf (s.enqueueDeduplicatedNextFlowLocked owner now).1.shelf := by
  unfold enqueueDeduplicatedNextFlowLocked
  split
  · exact .refl
  · next deduplicationId own =>
      split
      · exact .refl
      · next flow kept =>
          have entering := enters own kept
          simp only
          generalize taken_eq
            : ({ s with
                deduplicationNextFlows := s.deduplicationNextFlows.erase deduplicationId }
              : InMemoryJobQueueState) = taken
          have same : taken.shelf = s.shelf := by
            rw [← taken_eq]
            rfl
          split
          · exact .of_eq same
          · generalize prepareDeduplicatedNextFlow flow now = prepared at entering ⊢
            rw [← same]
            have first : Filings o taken.shelf (taken.insertCreated prepared.parent now).1.shelf :=
              files_insertCreated (entering _ List.mem_cons_self)
            exact first.trans (files_insertAllCreated _
              (fun job member => entering job (List.mem_cons_of_mem _ member)))

/-- What the end of an owner admits is what was kept for it. -/
theorem files_enqueueKeptNext
    (enters : ∀ jobs, s.board.Candidate owner now jobs → ∀ job ∈ jobs, o.enters job.id)
    : Filings o s.shelf (s.enqueueKeptNext owner now).1.shelf := by
  have first := files_enqueueDeduplicatedNextLocked enters
  unfold enqueueKeptNext
  split
  · next outcome =>
      rw [outcome] at first
      exact first
  · next left outcome =>
      have refused : (s.enqueueDeduplicatedNextLocked owner now).2 = none := by rw [outcome]
      have kept := (enqueueDeduplicatedNextLocked_none s owner now refused).2
      rw [outcome] at first kept
      refine first.trans (files_enqueueDeduplicatedNextFlowLocked ?_)
      intro key stored own found
      refine enters _ (.flow own ?_)
      rw [board_nextFlows, ← kept]
      exact found

-----------------------------------------------------------------------------------------
-- Completion and failure
-----------------------------------------------------------------------------------------

theorem files_recordTerminalChild {child : Job}
    (reports : ∀ parentId, child.parentId = some parentId → o.reports parentId child)
    : Filings o s.shelf
        (match child.parentId with
          | none => s
          | some parentId => s.recordTerminalChildDependencyLocked parentId child).shelf := by
  split
  · exact .refl
  · next parentId named => exact files_recordTerminalChildDependencyLocked (reports parentId named)

theorem files_settleCompleted {completed : Job} (found : s.jobs.get id = some job)
    (sameId : completed.id = job.id)
    (reports : ∀ parentId, completed.parentId = some parentId → o.reports parentId completed)
    : Filings o s.shelf (s.settleCompleted completed now).shelf := by
  have recorded := files_recordTerminalChild (s := s.setJob completed) reports
  rw [shelf_update found sameId] at recorded
  unfold settleCompleted
  exact recorded.trans (files_removalOrRetention _ _ _ _ _ now)

theorem files_finishCompletion (s : InMemoryJobQueueState) (completed : Job) (now : DateTime)
    : Filings o s.shelf (s.finishCompletion completed now).shelf := by
  unfold finishCompletion
  simp only [emitDrainedEventIfNeededLocked_shelf, emitEventLocked_shelf]
  split
  · exact .refl
  · exact files_releaseParentIfReadyLocked s _ now

/-- A candidate that is still kept was one before. -/
theorem candidate_of_kept {b after : Board} {jobs : List Job}
    (candidate : after.Candidate owner now jobs)
    (next : ∀ {key job}, after.next key = some job → b.next key = some job)
    (nextFlows : ∀ {key flow}, after.nextFlows key = some flow → b.nextFlows key = some flow)
    : b.Candidate owner now jobs := by
  cases candidate with
  | job own stored counted => exact .job own (next stored) counted
  | flow own stored => exact .flow own (nextFlows stored)

/-- A pruning keeps the candidates. -/
theorem candidate_of_pruned {b after : Board} {jobs : List Job} (pruned : b.Pruned after)
    (candidate : after.Candidate owner now jobs)
    : b.Candidate owner now jobs :=
  candidate_of_kept candidate (fun stored => pruned.next.1 ▸ stored)
    (fun stored => pruned.next.2 ▸ stored)

/-- The source covers what the finished jobs of an operation report and admit. -/
structure Covers (o : Source) (s : InMemoryJobQueueState) (op : Op) (now : DateTime) : Prop where
  reports
    : ∀ {job removes child parentId},
        s.Finishes op now job removes
        → child.SameTies job
        → job.parentId = some parentId
        → o.reports parentId child
  enters
    : ∀ {job removes jobs next},
        s.Finishes op now job removes
        → s.board.Candidate job now jobs
        → next ∈ jobs
        → o.enters next.id

theorem files_completeJob (cron : Cron) {jobId : JobId} {lockToken : JobLockToken}
    {value : Value} {uuid : JobId}
    (covers : Covers o s (.completeJob jobId lockToken value now uuid) now)
    (generated : o.enters uuid)
    : Filings o s.shelf (s.completeJob cron jobId lockToken value now uuid).1.shelf := by
  unfold completeJob
  split
  · exact .refl
  · next job accepted =>
      obtain ⟨found, _⟩ := requireCompletable_ok accepted
      have finishes
          : s.Finishes (.completeJob jobId lockToken value now uuid) now job
              job.options.removesCompletedImmediately :=
        .completes accepted
      have ties : (completedJob job value now).SameTies job := ⟨rfl, rfl, rfl, rfl, rfl⟩
      have settled
          : Filings o s.shelf (s.settleCompleted (completedJob job value now) now).shelf :=
        files_settleCompleted found rfl
          (fun parentId named => covers.reports finishes ties (ties.parentId ▸ named))
      have pruned := pruned_settleCompleted found value now
      have repeats (next : Job)
          (scheduled : nextRepeatJob cron (completedJob job value now) now uuid = .ok (some next))
          : o.enters next.id := by
        rw [(succeeds_nextRepeatJob scheduled).id]
        exact generated
      unfold completeLocked
      simp only
      generalize completedJob job value now = completed at ties settled pruned repeats ⊢
      have kept
          : Filings o s.shelf
              ((s.settleCompleted completed now).enqueueKeptNext completed now).1.shelf := by
        refine settled.trans (files_enqueueKeptNext ?_)
        intro jobs candidate next member
        have before := (candidate_of_pruned pruned candidate).of_sameTies ties
        exact covers.enters finishes (candidate_of_kept before id id) member
      generalize (s.settleCompleted completed now).enqueueKeptNext completed now = outcome at kept ⊢
      obtain ⟨left, enqueued⟩ := outcome
      cases enqueued with
      | true => exact kept.trans (files_finishCompletion _ completed now)
      | false =>
          simp only
          split
          · exact kept
          · exact kept.trans (files_finishCompletion _ completed now)
          · next next scheduled =>
              exact (kept.trans (files_insertCreated (repeats next scheduled))).trans
                (files_finishCompletion _ completed now)

theorem files_settleParentOfFailed (s : InMemoryJobQueueState) (failed : Job)
    (parentId : JobId) (now : DateTime)
    : Filings o s.shelf (s.settleParentOfFailed failed parentId now).shelf := by
  unfold settleParentOfFailed
  split
  · exact .of_eq (shelf_deferParentFailureAfterChildFailureLocked s _ _ now)
  · split
    · exact .of_eq (shelf_continueParentAfterChildFailureLocked s _ now)
    · split
      · exact files_releaseParentIfReadyLocked s _ now
      · exact files_failWaitingParentLocked s _ _ now

/-- What follows on the record of a failure with the parent. -/
theorem files_settleTerminalFailure {failed : Job} (finished : ¬ s.board.Unfinished failed.id)
    (enters : ∀ jobs, s.board.Candidate failed now jobs → ∀ job ∈ jobs, o.enters job.id)
    : Filings o
        (match failed.parentId with
          | none => s
          | some parentId => s.recordTerminalChildDependencyLocked parentId failed).shelf
        (s.settleTerminalFailure failed now).shelf := by
  have settled
      : Filings o
          (match failed.parentId with
            | none => s
            | some parentId => s.recordTerminalChildDependencyLocked parentId failed).shelf
          (s.settleFailed failed now).shelf := by
    unfold settleFailed
    exact files_removalOrRetention _ _ _ _ _ now
  have pruned := pruned_settleFailed s failed finished now
  have kept
      : Filings o (s.settleFailed failed now).shelf
          ((s.settleFailed failed now).enqueueKeptNext failed now).1.shelf := by
    refine files_enqueueKeptNext ?_
    intro jobs candidate
    exact enters jobs (candidate_of_pruned pruned candidate)
  unfold settleTerminalFailure
  simp only
  refine (settled.trans kept).trans ?_
  split
  · exact .refl
  · exact files_settleParentOfFailed _ failed _ now

/-- The events of a failure do not show. -/
theorem shelf_failActiveJob {jobId : JobId} {lockToken : JobLockToken} {error : String}
    {allowRetry : Bool} (accepted : s.requireOwnedActive jobId lockToken "fail" = .ok job)
    : (s.failActiveJob jobId lockToken error now allowRetry).1.shelf
      = (let failed := failedJob job error now allowRetry
          if failsTerminally job allowRetry = true then
            (s.setJob failed).settleTerminalFailure failed now
          else
            s.setJob failed).shelf := by
  have state := failedJob_state job error now allowRetry
  have fails : (failedJob job error now allowRetry).state = .failed
      ↔ failsTerminally job allowRetry = true := by
    rw [state]
    split
    · next terminal => simp [terminal]
    · next retried => simp [retried]
  unfold failActiveJob
  simp only [accepted]
  generalize failedJob job error now allowRetry = failed at fails ⊢
  simp only [← fails, emitRetriesExhaustedEventLocked]
  split <;> split <;> simp

theorem files_failActiveJob {op : Op} {jobId : JobId} {lockToken : JobLockToken}
    {error : String} {allowRetry : Bool} (ends : op.endsLease = some (jobId, lockToken))
    (reported : op.reportsFailure = some (error, now, allowRetry)) (covers : Covers o s op now)
    : Filings o s.shelf (s.failActiveJob jobId lockToken error now allowRetry).1.shelf := by
  cases accepted : s.requireOwnedActive jobId lockToken "fail" with
  | error refused =>
      unfold failActiveJob
      rw [accepted]
  | ok job =>
      obtain ⟨found, _⟩ := requireOwnedActive_ok accepted
      have ties : (failedJob job error now allowRetry).SameTies job := failedJob_ties
      have state := failedJob_state job error now allowRetry
      rw [shelf_failActiveJob accepted]
      simp only
      generalize failedJob job error now allowRetry = failed at ties state ⊢
      have written : (s.setJob failed).shelf = s.shelf := shelf_update found ties.id
      split
      · next terminal =>
          have finishes := Finishes.fails ends reported accepted terminal
          rw [if_pos terminal] at state
          have recorded
              : Filings o (s.setJob failed).shelf
                  (match failed.parentId with
                    | none => s.setJob failed
                    | some parentId =>
                        (s.setJob failed).recordTerminalChildDependencyLocked parentId failed).shelf :=
            files_recordTerminalChild
              (fun parentId named => covers.reports finishes ties (ties.parentId ▸ named))
          rw [← written]
          refine recorded.trans (files_settleTerminalFailure ?_ ?_)
          · have stored : (s.setJob failed).jobs.get failed.id = some failed := by
              simp only [setJob, JobMap.get_insert, if_pos]
            rw [board_unfinished_iff stored, state]
            exact Bool.noConfusion
          · intro jobs candidate next member
            have before := candidate.of_sameTies ties
            exact covers.enters finishes (candidate_of_kept before id id) member
      · exact .of_eq written

-----------------------------------------------------------------------------------------
-- Stalled recovery
-----------------------------------------------------------------------------------------

/-- The first loop only updates records, by induction on the stalled jobs. -/
theorem shelf_sweepStalled (now : DateTime) (s : InMemoryJobQueueState) (stalled : List Job)
    : (sweepStalled now s stalled).1.shelf = s.shelf := by
  induction stalled generalizing s with
  | nil => rfl
  | cons job rest ih =>
      unfold sweepStalled
      split
      · exact ih s
      · next stored found =>
          have sameId := (stalledJob_ties stored now).id
          simp only
          generalize stalledJob stored now = recovered at sameId ⊢
          split
          · exact (ih _).trans (shelf_update found sameId)
          · exact (ih _).trans (shelf_update (s := s.nextWaitingSequence.1) found sameId)

/-- What follows on the record of a stalled failure with the parent. -/
theorem files_settleStalledFailure {failed : Job}
    (enters : ∀ jobs, s.board.Candidate failed now jobs → ∀ job ∈ jobs, o.enters job.id)
    : Filings o
        (match failed.parentId with
          | none => s
          | some parentId => s.recordTerminalChildDependencyLocked parentId failed).shelf
        (settleStalledFailure now s failed).shelf := by
  have kept {told : InMemoryJobQueueState} (board : told.board = s.board)
      : Filings o told.shelf (told.enqueueKeptNext failed now).1.shelf := by
    refine files_enqueueKeptNext ?_
    rw [board]
    exact enters
  have recorded (parentId : JobId) :=
    board_of_tables (recordTerminalChildDependencyLocked_tables s parentId failed)
  unfold settleStalledFailure
  cases failed.parentId <;> cases failed.options.failedRetention
  · exact kept rfl
  · exact (kept rfl).trans (files_applyFinishedRetentionLocked _ _ _ now)
  · exact kept (recorded _)
  · exact (kept (recorded _)).trans (files_applyFinishedRetentionLocked _ _ _ now)

/-- The loop over the failures, by induction on them; candidates only go. -/
theorem files_settleStalledFailures {b : Board} {failures : List Job}
    (next : ∀ {key job}, s.board.next key = some job → b.next key = some job)
    (nextFlows : ∀ {key flow}, s.board.nextFlows key = some flow → b.nextFlows key = some flow)
    (reports
      : ∀ failed ∈ failures,
          ∀ parentId, failed.parentId = some parentId → o.reports parentId failed)
    (enters
      : ∀ failed ∈ failures,
          ∀ jobs, b.Candidate failed now jobs → ∀ job ∈ jobs, o.enters job.id)
    : Filings o s.shelf (failures.foldl (settleStalledFailure now) s).shelf := by
  induction failures generalizing s with
  | nil => exact .refl
  | cons failed rest ih =>
      have recorded := files_recordTerminalChild (s := s) (reports failed List.mem_cons_self)
      have first : Filings o s.shelf (settleStalledFailure now s failed).shelf :=
        recorded.trans (files_settleStalledFailure
          (fun jobs candidate =>
            enters failed List.mem_cons_self jobs (candidate_of_kept candidate next nextFlows)))
      obtain ⟨admitted, middle, ends, pruned⟩ := ownerEnds_settleStalledFailure now s failed
      refine first.trans (ih ?_ ?_ (fun other member => reports other (List.mem_cons_of_mem _ member))
        (fun other member => enters other (List.mem_cons_of_mem _ member)))
      · exact fun stored => next (ends.kept.1 (pruned.next.1 ▸ stored))
      · exact fun stored => nextFlows (ends.kept.2 (pruned.next.2 ▸ stored))

theorem files_settleStalledParents (now : DateTime) (s : InMemoryJobQueueState)
    (failures : List Job)
    : Filings o s.shelf (failures.foldl (settleStalledParent now) s).shelf := by
  induction failures generalizing s with
  | nil => exact .refl
  | cons failed rest ih =>
      refine Relation.ReflTransGen.trans ?_ (ih _)
      unfold settleStalledParent
      split
      · exact .refl
      · exact files_settleParentOfFailed s failed _ now

theorem shelf_emitStalledEvents (now : DateTime) (s : InMemoryJobQueueState)
    (events : List Job)
    : (events.foldl (emitStalledEvents now) s).shelf = s.shelf := by
  induction events generalizing s with
  | nil => rfl
  | cons job rest ih =>
      rw [List.foldl_cons, ih]
      simp [emitStalledEvents]

/-- The jobs that a recovery fails for good, as its first loop left them and in the same order. -/
def stalledFailures (s : InMemoryJobQueueState) (now : DateTime) : List Job :=
  (s.stalledForGood now).map (stalledJob · now)

/-- A recovery after its first loop and its removals. -/
def sweptStalled (s : InMemoryJobQueueState) (now : DateTime) : InMemoryJobQueueState :=
  (sweepStalled now s (s.stalledJobs now)).1.removeJobRecords
    (((s.stalledFailures now).filter (fun job => job.options.removesFailedImmediately)).map Job.id)

theorem board_sweptStalled (s : InMemoryJobQueueState) (now : DateTime)
    : (s.sweptStalled now).board
      = (s.board.sweep ((s.stalledForGood now).map Job.id) (s.requeuedIds now)).without
          {id |
            id ∈ ((s.stalledForGood now).filter
              (fun job => job.options.removesFailedImmediately)).map Job.id} := by
  have swept := (board_sweepStalled now s (fun job member => (mem_stalledJobs.mp member).1)
    (s.stalledJobs_ids_nodup now)).1
  unfold sweptStalled stalledFailures
  rw [board_removeJobRecords, swept, removedIds_stalledJob]
  rfl

/-- What precedes and what follows on the loop over the failures. -/
theorem files_aroundStalledFailures (o : Source) (s : InMemoryJobQueueState) (now : DateTime)
    : Filings o s.shelf (s.sweptStalled now).shelf
      ∧ Filings o ((s.stalledFailures now).foldl (settleStalledFailure now) (s.sweptStalled now)).shelf
          (s.recoverStalledJobs now).1.shelf := by
  have same := shelf_sweepStalled now s (s.stalledJobs now)
  have swept : (sweepStalled now s (s.stalledJobs now)).2.1 = s.stalledFailures now :=
    (board_sweepStalled now s (fun job member => (mem_stalledJobs.mp member).1)
      (s.stalledJobs_ids_nodup now)).2
  unfold sweptStalled recoverStalledJobs
  simp only
  generalize sweepStalled now s (s.stalledJobs now) = outcome at same swept ⊢
  obtain ⟨left, failures, events⟩ := outcome
  simp only at same swept ⊢
  rw [← swept, shelf_emitStalledEvents]
  have parents (u : InMemoryJobQueueState) (policy : FailurePolicy)
      : Filings o u.shelf
          ((failures.filter (fun job => failurePolicy job == policy)).foldl
            (settleStalledParent now) u).shelf :=
    files_settleStalledParents now u _
  constructor
  · rw [← same]
    exact files_removeJobRecords left _
  · refine Relation.ReflTransGen.trans ?_ (parents _ .failParent)
    refine Relation.ReflTransGen.trans ?_ (parents _ .releaseDependency)
    refine Relation.ReflTransGen.trans ?_ (parents _ .continueParent)
    exact parents _ .deferParent

/-- The jobs that a recovery fails are finished by it. -/
theorem finishes_of_stalledFailures {failed : Job} (member : failed ∈ s.stalledFailures now)
    : ∃ job,
        s.Finishes (.recoverStalledJobs now) now job job.options.removesFailedImmediately
        ∧ failed.SameTies job := by
  obtain ⟨job, isStalled, rfl⟩ := List.mem_map.mp member
  exact ⟨job, finishes_recoverStalledJobs.mpr ⟨isStalled, rfl⟩, stalledJob_ties job now⟩

theorem files_recoverStalledJobs (covers : Covers o s (.recoverStalledJobs now) now)
    : Filings o s.shelf (s.recoverStalledJobs now).1.shelf := by
  obtain ⟨before, behind⟩ := files_aroundStalledFailures o s now
  refine (before.trans (files_settleStalledFailures (b := s.board) ?_ ?_ ?_ ?_)).trans behind
  · intro key job stored
    rw [board_sweptStalled] at stored
    exact stored
  · intro key flow stored
    rw [board_sweptStalled] at stored
    exact stored
  · intro failed member parentId named
    obtain ⟨job, finishes, ties⟩ := finishes_of_stalledFailures member
    exact covers.reports finishes ties (ties.parentId ▸ named)
  · intro failed member jobs candidate next isNext
    obtain ⟨job, finishes, ties⟩ := finishes_of_stalledFailures member
    exact covers.enters finishes (candidate.of_sameTies ties) isNext

-----------------------------------------------------------------------------------------
-- Every operation
-----------------------------------------------------------------------------------------

/-- The operation may admit a kept candidate with this id when it finishes an owner. -/
def MayOffer (s : InMemoryJobQueueState) (op : Op) (id : JobId) : Prop :=
  ∃ now owner removes jobs,
    s.Finishes op now owner removes
    ∧ s.board.Candidate owner now jobs
    ∧ ∃ job ∈ jobs, job.id = id

/-- The record of a child that the operation finishes or attaches. -/
def Reporting (queue : QueueName) (s : InMemoryJobQueueState) (op : Op) (parentId : JobId)
    (child : Job)
    : Prop :=
  (∃ now job removes,
      s.Finishes op now job removes ∧ child.SameTies job ∧ job.parentId = some parentId)
    ∨ ∃ children now,
        op.flowChildren queue = some (parentId, children, now) ∧ s.Attaches parentId children child

/-- What the filings of an operation come from. A new id is not retained, or only by a childless
job that is replaced.
-/
def source (queue : QueueName) (s : InMemoryJobQueueState) (op : Op) : Source where
  enters id :=
    (∀ card, s.board.cards id = some card → card.childIds = [])
      ∨ s.MayOffer op id
      ∨ id ∈ op.generatedIds
  reports := s.Reporting queue op
  clears _ childId := op.clearsChild = some childId

theorem source_enters_of_absent {queue : QueueName} {op : Op} (absent : s.jobs.get id = none)
    : (s.source queue op).enters id := by
  refine .inl (fun card found => ?_)
  rw [board_cards_none.mpr absent] at found
  cases found

theorem covers_source (queue : QueueName) (s : InMemoryJobQueueState) (op : Op) (now : DateTime)
    : Covers (s.source queue op) s op now where
  reports finishes ties named := .inl ⟨_, _, _, finishes, ties, named⟩
  enters finishes candidate member :=
    .inr (.inl ⟨_, _, _, _, finishes, candidate, _, member, rfl⟩)

/-- Every operation is a sequence of filings, by cases on the operation. -/
theorem files_step (cron : Cron) (find : Find) (queue : QueueName) (s : InMemoryJobQueueState)
    (op : Op)
    : Filings (s.source queue op) s.shelf (step cron find queue s op).shelf := by
  have absent {op : Op} : ∀ id, s.jobs.get id = none → (s.source queue op).enters id :=
    fun _ => source_enters_of_absent
  cases op with
  | addAt name payload options now uuid => exact files_addAt cron queue name payload options uuid absent
  | addManyAt specs now => exact files_addManyAt cron queue specs (fun _ => .inl)
  | addFlowAt parent children now =>
      refine files_addFlowAt cron queue parent children absent ?_
      exact fun child attaches => .inr ⟨_, _, rfl, attaches⟩
  | addFlowChildrenAt parentId lockToken children now =>
      refine files_addFlowChildrenAt cron queue lockToken children absent ?_
      exact fun child attaches => .inr ⟨_, _, rfl, attaches⟩
  | removeUnprocessedChildren parentId now => exact files_removeUnprocessedChildren s parentId now
  | removeChildDependency childId now =>
      exact files_removeChildDependency s now (fun _ => rfl)
  | remove jobId clock => exact files_remove s jobId clock
  | removeDeduplicationKey deduplicationId clock =>
      exact .of_eq (shelf_removeDeduplicationKey find s deduplicationId clock)
  | upsertRepeat spec now => exact files_upsertRepeat cron queue spec (fun _ => .inl)
  | removeRepeat repeatKey clock => exact files_removeRepeat find s repeatKey clock
  | promote jobId now => exact .of_eq (shelf_promote s jobId now)
  | reschedule jobId delay now => exact .of_eq (shelf_reschedule s jobId delay now)
  | retry jobId now => exact files_retry find s now (fun _ => rfl)
  | renew jobId lockToken leaseFor now => exact .of_eq (shelf_renew s jobId lockToken leaseFor now)
  | delayActive jobId lockToken delay now =>
      exact .of_eq (shelf_delayActive s jobId lockToken delay now)
  | releaseActive jobId lockToken now => exact .of_eq (shelf_releaseActive s jobId lockToken now)
  | setPriorityOrder jobId priority lifo =>
      exact .of_eq (shelf_setPriorityOrder s jobId priority lifo)
  | setData jobId payload => exact .of_eq (shelf_setData s jobId payload)
  | setProgress jobId progress clock => exact .of_eq (shelf_setProgress s jobId progress clock)
  | saveStacktrace jobId stacktrace failedReason =>
      exact .of_eq (shelf_saveStacktrace s jobId stacktrace failedReason)
  | log jobId line keep now => exact .of_eq (shelf_log s jobId line keep now)
  | clearLogs jobId keep => exact .of_eq (shelf_clearLogs s jobId keep)
  | clean state grace limit now => exact files_clean s state grace limit now
  | drain includeDelayed clock => exact files_drain find s includeDelayed clock
  | obliterate force => exact files_obliterate s force
  | claimNext workerId leaseFor now lockToken =>
      exact .of_eq (shelf_claimNext s workerId leaseFor now lockToken)
  | completeJob jobId lockToken value now uuid =>
      exact files_completeJob cron (covers_source queue s _ now) (.inr (.inr List.mem_cons_self))
  | failJob jobId lockToken error now =>
      exact files_failActiveJob rfl rfl (covers_source queue s _ now)
  | failJobDiscardingRetry jobId lockToken error now =>
      exact files_failActiveJob rfl rfl (covers_source queue s _ now)
  | trimEvents maxLen => exact .of_eq (trimEventsLocked_shelf s maxLen)
  | promoteDueJobs now => exact .of_eq (promoteDueLocked_shelf s now)
  | recoverStalledJobs now => exact files_recoverStalledJobs (covers_source queue s _ now)
  | pause clock => exact .of_eq (emitEventLocked_shelf _ _ _ _ _ _)
  | resume clock => exact .of_eq (emitEventLocked_shelf _ _ _ _ _ _)

end InMemoryJobQueueState

end Lane
