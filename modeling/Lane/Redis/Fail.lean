import Lane.Redis.Transitions

/-! The script that fails an active job: the job is delayed until its retry, or it fails for good
and its parent takes its turn. Whether the job retries was decided before, on a record that the
caller had read.
-/

namespace Lane

/-- What `fail_job_with_retry_control` passes to the script. -/
structure FailArgs where
  jobId : JobId
  lockToken : JobLockToken
  now : DateTime
  error : String
  retryAt : Option DateTime
  removeOnFail : Bool

/-- When the job of the record retries. -/
def retryAt (job : Job) (now : DateTime) (allowRetry : Bool) : Option DateTime :=
  if allowRetry && shouldRetry job then
    some (addDuration now (job.options.retryPolicy.delayForAttempt job.attemptsMade))
  else
    none

namespace Keyspace

open Redis

/-- The record of a job whose worker reported an error. -/
def reportedJob (args : FailArgs) (job : Job) : Job :=
  { job with
    workerId := none
    leaseExpiresAt := none
    deferredFailure := none
    failedReason := some args.error }

/-- The job waits for its retry. -/
def delayRetry (keys : Keyspace) (jobId : JobId) (job : Job) (retryAt : DateTime)
    : Keyspace × Job :=
  let job := { job with state := .delayed, scheduledAt := retryAt, finishedAt := none }
  let keys := keys.setJob jobId job
  ({ keys with delayed := keys.delayed.add (timestampMillis retryAt) jobId }, job)

/-- A waiting parent enters the queue after its child failed. -/
def releaseAfterFailure (keys : Keyspace) (parentId : JobId) (parent : Job) (childId : JobId)
    (failed : Job) (now : DateTime)
    : Keyspace :=
  let keys := { keys with waitingChildren := keys.waitingChildren.erase parentId }
  let parent :=
    { unleased parent with
      finishedAt := none
      deferredFailure :=
        if failed.options.failParentOnFailure then
          some s!"child job {childId} failed"
        else
          none }
  let parentScheduledMillis := timestampMillis parent.scheduledAt
  if parentScheduledMillis ≤ timestampMillis now then
    keys.enqueueWaitingJob { parent with state := .waiting } parentId parent.priority
  else
    let keys := keys.setJob parentId { parent with state := .delayed }
    { keys with delayed := keys.delayed.add parentScheduledMillis parentId }

/-- The parent's turn after its child failed. -/
def settleFailure (keys : Keyspace) (childId : JobId) (failed : Job) (now : DateTime) : Keyspace :=
  match failed.parentId with
  | none => keys
  | some parentId =>
      match keys.jobs parentId with
      | none => keys
      | some parent =>
          let timestamp := timestampMillis now
          let keys := keys.recordFailedChild parentId childId failed timestamp
          if parent.state = .waitingChildren then
            match keys.parentTurn parentId parent childId failed timestamp with
            | (keys, .wait) => keys
            | (keys, .release) => keys.releaseAfterFailure parentId parent childId failed now
            | (keys, .fail failedChildId reason) =>
                keys.failParent parentId parent failedChildId reason now
          else
            keys

/-- The writes about a job that fails for good. -/
def recordFailureOf (keys : Keyspace) (args : FailArgs) (failed : Job) : Keyspace :=
  let timestamp := timestampMillis args.now
  let keys := keys.releaseDeduplicationKeyOnFinalization failed args.jobId
  let keys := keys.releaseRepeatKey failed args.jobId
  let (keys, _) := keys.enqueueDeduplicatedNext failed args.now
  let retention :=
    retentionOptions (args.removeOnFail || failed.options.removeOnFail)
      failed.options.failureRetention
  let keys := keys.storeFinished args.jobId failed timestamp retention .failed
  keys.collectMetrics .failed timestamp

/-- The job fails for good. -/
def failForGood (keys : Keyspace) (args : FailArgs) (job : Job) : Keyspace × Job :=
  let failed := { job with state := .failed, finishedAt := some args.now }
  let keys := keys.recordFailureOf args failed
  (keys.settleFailure args.jobId failed args.now, failed)

/-- `FAIL_SCRIPT`. -/
def fail (keys : Keyspace) (args : FailArgs) : Keyspace × TransitionReply :=
  match keys.lockRejection args.jobId args.lockToken, keys.jobs args.jobId with
  | some reply, _ => (keys, reply)
  | none, none => (keys, .missing)
  | none, some job =>
      let keys := keys.releaseLock args.jobId
      let job := reportedJob args job
      match args.retryAt with
      | some retryAt =>
          let (keys, updated) := keys.delayRetry args.jobId job retryAt
          (keys, .ok updated)
      | none =>
          let (keys, updated) := keys.failForGood args job
          (keys, .ok updated)

end Keyspace

end Lane
