import Lane.Redis.Finalization

/-! The script that completes an active job, with its replies. -/

namespace Lane

/-- What `complete_job` passes to the script. -/
structure CompleteArgs where
  jobId : JobId
  lockToken : JobLockToken
  now : DateTime
  value : Value
  removeOnComplete : Bool
  repeatNext : Option Job

/-- The reply of the script. -/
inductive CompleteReply where
  | missing
  | state (state : JobState)
  | lockMissing
  | lockMismatch
  | pendingDependencies
  | failedDependencies
  | ok (updated : Job)

namespace Keyspace

open Redis

/-- A retained child that failed and blocks its parent. -/
def hasFailedChild (keys : Keyspace) (job : Job) : Bool :=
  job.childIds.any (fun childId =>
    (keys.jobs childId).any (fun child => child.state == .failed && !releasesParent child))

/-- The checks before the first write. -/
def completeRejection (keys : Keyspace) (args : CompleteArgs) : Option CompleteReply :=
  match keys.jobs args.jobId with
  | none => some .missing
  | some job =>
      if job.state ≠ .active then
        some (.state job.state)
      else if keys.locks args.jobId = none then
        some .lockMissing
      else if keys.locks args.jobId ≠ some args.lockToken then
        some .lockMismatch
      else if 0 < (keys.dependencies args.jobId).card then
        some .pendingDependencies
      else if 0 < (keys.unsuccessful args.jobId).card then
        some .failedDependencies
      else if keys.hasFailedChild job then
        some .failedDependencies
      else
        none

/-- The completed record. -/
def completedJob (args : CompleteArgs) (job : Job) : Job :=
  { job with
    state := .completed
    finishedAt := some args.now
    workerId := none
    leaseExpiresAt := none
    deferredFailure := none
    returnValue := some args.value }

def releaseLock (keys : Keyspace) (jobId : JobId) : Keyspace :=
  { keys with
    locks := Function.update keys.locks jobId none
    stalled := keys.stalled.erase jobId
    active := keys.active.erase jobId }

/-- The completed child leaves the dependency set of its parent. -/
def recordProcessedChild (keys : Keyspace) (parentId : JobId) (args : CompleteArgs) : Keyspace :=
  if keys.hasDependencies parentId then
    if args.jobId ∈ keys.dependencies parentId then
      (keys.removeDependency parentId args.jobId).setProcessed parentId args.jobId args.value
    else
      keys
  else
    keys

/-- Where a completed child leaves its waiting parent. -/
def parentStatus (keys : Keyspace) (parentId : JobId) (parent : Job) (args : CompleteArgs)
    (updated : Job)
    : ChildrenStatus :=
  if keys.hasDependencies parentId then
    let keys := keys.recordProcessedChild parentId args
    if 0 < (keys.dependencies parentId).card then .pending else .done
  else
    keys.childrenStatus args.jobId updated parent.childIds

/-- All dependencies of a waiting parent are done: it becomes waiting or delayed. -/
def releaseParent (keys : Keyspace) (parentId : JobId) (parent : Job) (now : DateTime) : Keyspace :=
  let keys := keys.deleteDependencies parentId
  let keys := { keys with waitingChildren := keys.waitingChildren.erase parentId }
  let parent :=
    { parent with
      processedAt := none
      finishedAt := none
      workerId := none
      lockToken := none
      leaseExpiresAt := none
      deferredFailure := none
      failedReason := none }
  let parentScheduledMillis := timestampMillis parent.scheduledAt
  if parentScheduledMillis ≤ timestampMillis now then
    keys.enqueueWaitingJob { parent with state := .waiting } parentId parent.priority
  else
    let keys := keys.setJob parentId { parent with state := .delayed }
    { keys with delayed := keys.delayed.add parentScheduledMillis parentId }

/-- The parent's turn after a child completed. -/
def settleParent (keys : Keyspace) (args : CompleteArgs) (updated : Job) : Keyspace :=
  match updated.parentId with
  | none => keys
  | some parentId =>
      match keys.jobs parentId with
      | none => keys
      | some parent =>
          let status := keys.parentStatus parentId parent args updated
          let keys := keys.recordProcessedChild parentId args
          if parent.state = .waitingChildren then
            match status with
            | .failed childId reason => keys.failParent parentId parent childId reason args.now
            | .pending => keys
            | .done => keys.releaseParent parentId parent args.now
          else
            keys

/-- The regular successor of a repeat job; it is inserted unless its id is taken. -/
def enqueueRepeatNext (keys : Keyspace) (repeatNext : Job) : Keyspace :=
  if keys.hasJob repeatNext.id then
    keys
  else
    let scheduledMillis := timestampMillis repeatNext.scheduledAt
    let keys := keys.setJob repeatNext.id repeatNext
    let keys := keys.setDeduplicationKey repeatNext repeatNext.id
    let keys := keys.setRepeatKey repeatNext repeatNext.id scheduledMillis
    match repeatNext.state with
    | .waiting => keys.enqueueWaitingJob repeatNext repeatNext.id repeatNext.priority
    | .delayed => { keys with delayed := keys.delayed.add scheduledMillis repeatNext.id }
    | .waitingChildren =>
        { keys with waitingChildren := keys.waitingChildren.add scheduledMillis repeatNext.id }
    | _ => keys

/-- The finished job is stored, removed or retained, and counted. -/
def storeCompleted (keys : Keyspace) (args : CompleteArgs) (updated : Job) : Keyspace :=
  let timestamp := timestampMillis args.now
  let retention :=
    retentionOptions (args.removeOnComplete || updated.options.removeOnComplete)
      updated.options.completionRetention
  let keys := keys.storeFinished args.jobId updated timestamp retention .completed
  keys.collectMetrics .completed timestamp

/-- The waiting parent that fails when its child completes: another child had failed. -/
def parentFailedByCompletion (keys : Keyspace) (args : CompleteArgs) (updated : Job)
    : Option (JobId × Job) := do
  let parentId ← updated.parentId
  let parent ← keys.jobs parentId
  if parent.state = .waitingChildren then
    match keys.parentStatus parentId parent args updated with
    | .failed _ _ => some (parentId, parent)
    | _ => none
  else
    none

/-- The writes about the job itself; the flag says that the keep-last candidate came in. -/
def recordCompletion (keys : Keyspace) (args : CompleteArgs) (job : Job) : Keyspace × Bool :=
  let updated := completedJob args job
  let keys := keys.releaseLock args.jobId
  let keys := keys.releaseDeduplicationKeyOnFinalization updated args.jobId
  let (keys, enqueuedDeduplicatedNext) := keys.enqueueDeduplicatedNext updated args.now
  (keys.storeCompleted args updated, enqueuedDeduplicatedNext)

/-- The completion of a job that passed the checks. -/
def finishCompletion (keys : Keyspace) (args : CompleteArgs) (job : Job) : Keyspace :=
  let updated := completedJob args job
  let (keys, enqueuedDeduplicatedNext) := keys.recordCompletion args job
  let keys := keys.settleParent args updated
  let keys :=
    match args.repeatNext with
    | none => keys
    | some repeatNext =>
        if enqueuedDeduplicatedNext then keys else keys.enqueueRepeatNext repeatNext
  keys.releaseRepeatKey updated args.jobId

/-- `COMPLETE_SCRIPT`. -/
def complete (keys : Keyspace) (args : CompleteArgs) : Keyspace × CompleteReply :=
  match keys.completeRejection args with
  | some reply => (keys, reply)
  | none =>
      match keys.jobs args.jobId with
      | none => (keys, .missing)
      | some job => (keys.finishCompletion args job, .ok (completedJob args job))

end Keyspace

end Lane
