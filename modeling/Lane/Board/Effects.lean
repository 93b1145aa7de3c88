import Lane.Board.Processing

/-! What one operation can do to the board, said once for all operations. -/

namespace Lane

/-- The job and the lock token with which an operation gives up a lease. -/
def Op.endsLease : Op → Option (JobId × JobLockToken)
  | .addFlowChildrenAt parentId lockToken _ _ => some (parentId, lockToken)
  | .delayActive jobId lockToken _ _ => some (jobId, lockToken)
  | .releaseActive jobId lockToken _ => some (jobId, lockToken)
  | .completeJob jobId lockToken _ _ _ => some (jobId, lockToken)
  | .failJob jobId lockToken _ _ => some (jobId, lockToken)
  | .failJobDiscardingRetry jobId lockToken _ _ => some (jobId, lockToken)
  | _ => none

/-- The error, the time and the retry permission of an operation that fails a job. -/
def Op.reportsFailure : Op → Option (String × DateTime × Bool)
  | .failJob _ _ error now => some (error, now, true)
  | .failJobDiscardingRetry _ _ error now => some (error, now, false)
  | _ => none

namespace InMemoryJobQueueState

/-- The outcomes of one operation on the board. -/
inductive Effect (cron : Cron) (find : Find) (queue : QueueName) (s : InMemoryJobQueueState)
    : Op → Board → Prop
  | quiet {op : Op} : Effect cron find queue s op s.board
  | claimed {workerId : JobWorkerId} {leaseFor : Duration} {now : DateTime}
    {lockToken : JobLockToken} {id : JobId} {card : Card}
    (found : s.board.cards id = some card) (ready : card.phase = .ready)
    : Effect cron find queue s (.claimNext workerId leaseFor now lockToken)
        (s.board.put id { card with phase := .active, lockToken := some lockToken })
  | handedBack {op : Op} {jobId : JobId} {lockToken : JobLockToken}
    (ends : op.endsLease = some (jobId, lockToken)) (leased : s.board.Leased jobId lockToken)
    : Effect cron find queue s op (s.board.move jobId .ready)
  | removed {op : Op} {ids parentIds : List JobId} {after : Board}
    (informs : s.board.InformsParents ids parentIds) (removes : s.board.Removes ids parentIds after)
    : Effect cron find queue s op after
  | removedUnprocessed {parentId : JobId} {now : DateTime} {after : Board}
    (removes : s.board.Removes (s.unprocessedIds parentId) [parentId] after)
    : Effect cron find queue s (.removeUnprocessedChildren parentId now) after
  | detached {childId parentId : JobId} {now : DateTime} {after : Board}
    (named : s.board.Names childId parentId)
    (retained : ∃ card, s.board.cards parentId = some card)
    (released : ((s.board.unlist parentId childId).orphan childId).Released parentId after)
    : Effect cron find queue s (.removeChildDependency childId now) after
  | disowned {deduplicationId : String} {clock : DateTime} {ownerId : JobId}
    (owns : s.board.Owns clock deduplicationId ownerId)
    : Effect cron find queue s (.removeDeduplicationKey deduplicationId clock)
        ((s.board.keep deduplicationId none none).disown ownerId)
  | retried {jobId : JobId} {now : DateTime} {job : Job} {enqueuedSeq : Nat} {after : Board}
    (found : s.jobs.get jobId = some job) (terminal : job.state.isTerminal = true)
    (checks : s.RetryChecks job now)
    (restored
      : let ready := s.board.put jobId (retriedJob job enqueuedSeq now).freshCard
        after = ready
          ∨ ∃ parentId card,
              job.parentId = some parentId
              ∧ ready.cards parentId = some card
              ∧ card.phase.isTerminal = false
              ∧ card.phase ≠ .active
              ∧ jobId ∈ card.childIds
              ∧ after = ready.move parentId .parked)
    : Effect cron find queue s (.retry jobId now) after
  | obliterated {force : Bool} (allowed : force = true ∨ ∀ id token, ¬ s.board.Leased id token)
    : Effect cron find queue s (.obliterate force) .empty
  | submitted {name : String} {payload : Value} {options : JobOptions} {now : DateTime}
    {uuid : JobId} {after : Board}
    (submits : s.Submits (Job.new queue name payload options now uuid) now after)
    : Effect cron find queue s (.addAt name payload options now uuid) after
  | submittedEach {specs : List (JobSpec × JobId)} {now : DateTime} {t : InMemoryJobQueueState}
    (each : SubmitsEach find now s (specs.map (jobOfSpec queue now)) t)
    : Effect cron find queue s (.addManyAt specs now) t.board
  | upserted {spec : JobSpec × JobId} {now : DateTime} {replaced : Option JobId}
    {repeatKey : String}
    (admits : s.board.Admits now replaced (jobOfSpec queue now spec))
    (own : (jobOfSpec queue now spec).repeatKey = some repeatKey)
    (carries : ∀ id, replaced = some id → s.board.Carries repeatKey id)
    : Effect cron find queue s (.upsertRepeat spec now)
        (s.board.enter replaced (jobOfSpec queue now spec))
  | flow {parent : JobSpec × JobId} {children : List (JobSpec × JobId)} {now : DateTime}
    {parentJob : Job} {childJobs : List Job} {after : Board}
    (childJobs_eq : childJobs = flowChildJobs queue (jobOfSpec queue now parent).id children now)
    (parentJob_eq : parentJob = flowParentJob queue parent childJobs now)
    (records : FlowRecords parentJob childJobs)
    (submits : s.FlowSubmits parentJob childJobs now after)
    : Effect cron find queue s (.addFlowAt parent children now) after
  | fanOut {parentId : JobId} {lockToken : JobLockToken} {children : List (JobSpec × JobId)}
    {now : DateTime} {childJobs : List Job} {after : Board}
    (childJobs_eq : childJobs = flowChildJobs queue parentId children now)
    (records : ChildRecords parentId childJobs)
    (fans : s.FansOut parentId lockToken childJobs now after)
    : Effect cron find queue s (.addFlowChildrenAt parentId lockToken children now) after
  | completed {jobId : JobId} {lockToken : JobLockToken} {value : Value} {now : DateTime}
    {uuid : JobId} {job : Job} {settled after : Board}
    (accepted : s.requireCompletable jobId lockToken = .ok job)
    (pruned : (s.board.move jobId .completed).Pruned settled)
    (gone : job.options.removesCompletedImmediately = true → settled.cards jobId = none)
    (completes : settled.Completes cron job now uuid after)
    : Effect cron find queue s (.completeJob jobId lockToken value now uuid) after
  | failed {op : Op} {jobId : JobId} {lockToken : JobLockToken} {error : String}
    {now : DateTime} {allowRetry : Bool} {job : Job} {admitted : List Job}
    {settled ended after : Board}
    (ends : op.endsLease = some (jobId, lockToken))
    (reports : op.reportsFailure = some (error, now, allowRetry))
    (accepted : s.requireOwnedActive jobId lockToken "fail" = .ok job)
    (terminal : failsTerminally job allowRetry = true)
    (pruned : (s.board.move jobId .failed).Pruned settled)
    (gone : job.options.removesFailedImmediately = true → settled.cards jobId = none)
    (owner : settled.OwnerEnds job now admitted ended)
    (reported : ended.FailureReported job after)
    : Effect cron find queue s op after
  | recovered {now : DateTime} {ended after : Board}
    (owners
      : Board.OwnersEnd now
          ((s.board.sweep ((s.stalledForGood now).map Job.id) (s.requeuedIds now)).without
            {id |
              id ∈ ((s.stalledForGood now).filter
                (fun job => job.options.removesFailedImmediately)).map Job.id})
          (s.stalledForGood now) ended)
    (reported : Board.FailuresReported ended (reportedFailures (s.stalledForGood now)) after)
    : Effect cron find queue s (.recoverStalledJobs now) after

variable {cron : Cron} {find : Find} {queue : QueueName} {s : InMemoryJobQueueState}

theorem effect_quiet {op : Op} {after : Board} (same : after = s.board)
    : s.Effect cron find queue op after := by
  rw [same]
  exact .quiet

theorem effect_failActiveJob {op : Op} {jobId : JobId} {lockToken : JobLockToken}
    {error : String} {now : DateTime} {allowRetry : Bool}
    (ends : op.endsLease = some (jobId, lockToken))
    (reports : op.reportsFailure = some (error, now, allowRetry))
    : s.Effect cron find queue op
        (s.failActiveJob jobId lockToken error now allowRetry).1.board := by
  rcases board_failActiveJob s jobId lockToken error now allowRetry with same | ⟨job, accepted⟩
  · exact effect_quiet same
  · obtain ⟨found, active, token⟩ := requireOwnedActive_ok accepted
    rcases board_failActiveJob_of_owned accepted with
      ⟨_, board⟩ | ⟨terminal, _, _, _, pruned, gone, owner, reported⟩
    · rw [board]
      exact .handedBack ends (board_leased_iff.mpr ⟨job, found, active, token⟩)
    · exact .failed ends reports accepted terminal pruned gone owner reported

/-- Every operation has one of the listed outcomes, by cases on the operation. -/
theorem effect_step (cron : Cron) (find : Find) (queue : QueueName)
    (s : InMemoryJobQueueState) (op : Op)
    : s.Effect cron find queue op (step cron find queue s op).board := by
  cases op with
  | addAt name payload options now uuid =>
      exact .submitted (submits_addAt cron find queue s name payload options now uuid)
  | addManyAt specs now =>
      rcases submits_addManyAt cron find queue s specs now with same | each
      · exact effect_quiet (congrArg board same)
      · exact .submittedEach each
  | addFlowAt parent children now =>
      rcases flowSubmits_addFlowAt cron find queue s parent children now with
        same | ⟨records, submits, _⟩
      · exact effect_quiet same
      · exact .flow rfl rfl records submits
  | addFlowChildrenAt parentId lockToken children now =>
      rcases fansOut_addFlowChildrenAt cron find queue s parentId lockToken children now with
        same | ⟨records, fans⟩
      · exact effect_quiet same
      · exact .fanOut rfl records fans
  | removeUnprocessedChildren parentId now =>
      exact .removedUnprocessed (removes_removeUnprocessedChildren s parentId now)
  | removeChildDependency childId now =>
      rcases board_removeChildDependency s childId now with
        same | ⟨parentId, named, retained, released⟩
      · exact effect_quiet same
      · exact .detached named retained released
  | remove jobId clock =>
      obtain ⟨parentIds, informs, removes⟩ := removes_remove s jobId clock
      exact .removed informs removes
  | removeDeduplicationKey deduplicationId clock =>
      rcases board_removeDeduplicationKey find s deduplicationId clock with
        same | ⟨ownerId, owns, board⟩
      · exact effect_quiet same
      · change s.Effect cron find queue _ (s.removeDeduplicationKey find deduplicationId clock).1.board
        rw [board]
        exact .disowned owns
  | upsertRepeat spec now =>
      rcases board_upsertRepeat cron find queue s spec now with
        same | ⟨replaced, repeatKey, admits, own, carries, board⟩
      · exact effect_quiet same
      · change s.Effect cron find queue _ (s.upsertRepeat cron find queue spec now).1.board
        rw [board]
        exact .upserted admits own carries
  | removeRepeat repeatKey clock =>
      obtain ⟨parentIds, informs, removes⟩ := removes_removeRepeat find s repeatKey clock
      exact .removed informs removes
  | promote jobId now => exact effect_quiet (board_promote s jobId now)
  | reschedule jobId delay now => exact effect_quiet (board_reschedule s jobId delay now)
  | retry jobId now =>
      rcases board_retry find s jobId now with
        same | ⟨job, enqueuedSeq, found, terminal, checks, restored⟩
      · exact effect_quiet same
      · exact .retried found terminal checks restored
  | renew jobId lockToken leaseFor now =>
      exact effect_quiet (board_renew s jobId lockToken leaseFor now)
  | delayActive jobId lockToken delay now =>
      rcases board_delayActive s jobId lockToken delay now with same | ⟨leased, board⟩
      · exact effect_quiet same
      · change s.Effect cron find queue _ (s.delayActive jobId lockToken delay now).1.board
        rw [board]
        exact .handedBack rfl leased
  | releaseActive jobId lockToken now =>
      rcases board_releaseActive s jobId lockToken now with same | ⟨leased, board⟩
      · exact effect_quiet same
      · change s.Effect cron find queue _ (s.releaseActive jobId lockToken now).1.board
        rw [board]
        exact .handedBack rfl leased
  | setPriorityOrder jobId priority lifo =>
      exact effect_quiet (board_setPriorityOrder s jobId priority lifo)
  | setData jobId payload => exact effect_quiet (board_setData s jobId payload)
  | setProgress jobId progress clock => exact effect_quiet (board_setProgress s jobId progress clock)
  | saveStacktrace jobId stacktrace failedReason =>
      exact effect_quiet (board_saveStacktrace s jobId stacktrace failedReason)
  | log jobId line keep now => exact effect_quiet (board_log s jobId line keep now)
  | clearLogs jobId keep => exact effect_quiet (board_clearLogs s jobId keep)
  | clean state grace limit now =>
      obtain ⟨parentIds, informs, removes⟩ := removes_clean s state grace limit now
      exact .removed informs removes
  | drain includeDelayed clock =>
      obtain ⟨parentIds, informs, removes⟩ := removes_drain find s includeDelayed clock
      exact .removed informs removes
  | obliterate force =>
      rcases board_obliterate s force with same | ⟨allowed, board⟩
      · exact effect_quiet same
      · change s.Effect cron find queue _ (s.obliterate force).1.board
        rw [board]
        exact .obliterated allowed
  | claimNext workerId leaseFor now lockToken =>
      rcases board_claimNext s workerId leaseFor now lockToken with
        same | ⟨id, card, found, ready, board⟩
      · exact effect_quiet same
      · change s.Effect cron find queue _ (s.claimNext workerId leaseFor now lockToken).1.board
        rw [board]
        exact .claimed found ready
  | completeJob jobId lockToken value now uuid =>
      rcases board_completeJob cron s jobId lockToken value now uuid with
        same | ⟨job, settled, accepted, pruned, gone, completes⟩
      · exact effect_quiet same
      · exact .completed accepted pruned gone completes
  | failJob jobId lockToken error now => exact effect_failActiveJob rfl rfl
  | failJobDiscardingRetry jobId lockToken error now => exact effect_failActiveJob rfl rfl
  | trimEvents maxLen => exact effect_quiet (board_of_tables (trimEventsLocked_tables s maxLen))
  | promoteDueJobs now => exact effect_quiet (board_promoteDueLocked s now)
  | recoverStalledJobs now =>
      obtain ⟨ended, owners, reported⟩ := board_recoverStalledJobs s now
      exact .recovered owners reported
  | pause clock => exact effect_quiet (board_of_tables (emitEventLocked_tables _ _ _ _ _ _))
  | resume clock => exact effect_quiet (board_of_tables (emitEventLocked_tables _ _ _ _ _ _))

end InMemoryJobQueueState

end Lane
