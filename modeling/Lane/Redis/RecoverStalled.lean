import Lane.Redis.Finalization

/-! The script that recovers stalled jobs. It works through the ids that it popped from the
stalled set, and an error in one turn ends the script with the writes made so far.
-/

namespace Lane

/-- How a turn of the recovery loop ends. -/
inductive RecoverTurn where
  | skipped
  | recovered
  | aborted
deriving DecidableEq

/-- What a failed child means for its waiting parent. -/
inductive ParentTurn where
  | wait
  | release
  | fail (childId : JobId) (reason : String)

namespace Keyspace

open Redis

/-- The record of a job whose lease expired. -/
def stalledJob (job : Job) : Job :=
  { job with
    stalledCount := job.stalledCount + 1
    workerId := none
    lockToken := none
    leaseExpiresAt := none
    deferredFailure := none
    failedReason := some "job stalled after worker lease expired" }

/-- The record of a job that stalled too often. -/
def failedJob (job : Job) (now : DateTime) : Job :=
  { stalledJob job with state := .failed, finishedAt := some now }

/-- `is_current_repeat_scheduler_job`; it restores a missing owner key of the series. -/
def isCurrentRepeatSchedulerJob (keys : Keyspace) (job : Job) (jobId : JobId) : Keyspace × Bool :=
  match repeatKey job with
  | none => (keys, false)
  | some key =>
      let ownerId := keys.repeatOwner key
      if ownerId = some jobId then
        (keys, true)
      else if (keys.repeatMeta key).map RepeatMeta.jid = some jobId then
        if ownerId = none then
          ({ keys with repeatOwner := Function.update keys.repeatOwner key (some jobId) }, true)
        else
          (keys, true)
      else
        (keys, false)

/-- The job has a failure policy under which its parent does not fail at once. -/
def releasesDependencyAfterFailure (job : Job) : Bool :=
  releasesParent job || job.options.failParentOnFailure

/-- The failed child leaves an existing dependency set, under each policy but the default. -/
def recordFailedChild (keys : Keyspace) (parentId childId : JobId) (job : Job) (timestamp : Int)
    : Keyspace :=
  if releasesDependencyAfterFailure job ∧ keys.hasDependencies parentId then
    if childId ∈ keys.dependencies parentId then
      let keys := keys.removeDependency parentId childId
      if job.options.failParentOnFailure then
        keys.addUnsuccessful parentId childId timestamp
      else if job.options.ignoreDependencyOnFailure || job.options.continueParentOnFailure then
        keys.setIgnored parentId childId (job.failedReason.getD "")
      else
        keys
    else
      keys
  else
    keys

/-- The decision for a waiting parent, with the writes that come before it. -/
def parentTurn (keys : Keyspace) (parentId : JobId) (parent : Job) (childId : JobId) (job : Job)
    (timestamp : Int)
    : Keyspace × ParentTurn :=
  let reason := job.failedReason.getD ""
  if releasesDependencyAfterFailure job then
    if job.options.failParentOnFailure then
      let keys := keys.removeDependency parentId childId
      (keys.addUnsuccessful parentId childId timestamp, .release)
    else if job.options.continueParentOnFailure then
      let keys := keys.removeDependency parentId childId
      (keys.setIgnored parentId childId reason, .release)
    else if keys.hasDependencies parentId then
      let keys := keys.removeDependency parentId childId
      let keys :=
        if job.options.ignoreDependencyOnFailure then
          keys.setIgnored parentId childId reason
        else
          keys
      if 0 < (keys.dependencies parentId).card then
        (keys, .wait)
      else
        (keys.deleteDependencies parentId, .release)
    else
      match keys.childrenStatus childId job parent.childIds with
      | .failed failedChildId failedReason => (keys, .fail failedChildId failedReason)
      | .pending => (keys, .wait)
      | .done => (keys.deleteDependencies parentId, .release)
  else
    (keys, .fail childId reason)

/-- The parent's turn after a child failed for good; the flag says that the script aborts.
A released parent needs `iso_to_millis`, which this script does not define: it ends there,
with the parent out of the waiting-children set and its record as it was.
-/
def settleFailedChild (keys : Keyspace) (childId : JobId) (job : Job) (now : DateTime)
    : Keyspace × Bool :=
  match job.parentId with
  | none => (keys, false)
  | some parentId =>
      match keys.jobs parentId with
      | none => (keys, false)
      | some parent =>
          let timestamp := timestampMillis now
          let keys := keys.recordFailedChild parentId childId job timestamp
          if parent.state = .waitingChildren then
            let (keys, turn) := keys.parentTurn parentId parent childId job timestamp
            match turn with
            | .wait => (keys, false)
            | .release => ({ keys with waitingChildren := keys.waitingChildren.erase parentId }, true)
            | .fail failedChildId reason =>
                (keys.failParent parentId parent failedChildId reason now, false)
          else
            (keys, false)

/-- The waiting parent that fails with its child. -/
def parentFailedByFailure (keys : Keyspace) (childId : JobId) (job : Job) (now : DateTime)
    : Option (JobId × Job) := do
  let parentId ← job.parentId
  let parent ← keys.jobs parentId
  let timestamp := timestampMillis now
  let keys := keys.recordFailedChild parentId childId job timestamp
  if parent.state = .waitingChildren then
    match (keys.parentTurn parentId parent childId job timestamp).2 with
    | .fail _ _ => some (parentId, parent)
    | _ => none
  else
    none

/-- The failed job is stored, removed or retained, and counted. -/
def storeFailed (keys : Keyspace) (jobId : JobId) (failed : Job) (now : DateTime) : Keyspace :=
  let timestamp := timestampMillis now
  let retention := retentionOptions failed.options.removeOnFail failed.options.failureRetention
  let keys := keys.storeFinished jobId failed timestamp retention .failed
  keys.collectMetrics .failed timestamp

/-- The writes about the failed job itself. -/
def recordFailure (keys : Keyspace) (jobId : JobId) (failed : Job) (now : DateTime) : Keyspace :=
  let keys := keys.deleteDependencies jobId
  let keys := keys.releaseDeduplicationKeyOnFinalization failed jobId
  let keys := keys.releaseRepeatKey failed jobId
  let (keys, _) := keys.enqueueDeduplicatedNext failed now
  keys.storeFailed jobId failed now

/-- A job that stalled too often fails for good. -/
def failStalled (keys : Keyspace) (jobId : JobId) (job : Job) (now : DateTime) : Keyspace × Bool :=
  let failed := failedJob job now
  let keys := keys.recordFailure jobId failed now
  keys.settleFailedChild jobId failed now

/-- A job that may stall again goes back to the waiting set. -/
def requeueStalled (keys : Keyspace) (jobId : JobId) (job : Job) : Keyspace :=
  let job := { stalledJob job with state := .waiting, processedAt := none }
  keys.enqueueWaitingJob job jobId job.priority

/-- `ZREM` on the active set. -/
def leaveActive (keys : Keyspace) (jobId : JobId) : Keyspace :=
  { keys with active := keys.active.erase jobId }

/-- One turn of the loop. -/
def recoverJob (keys : Keyspace) (jobId : JobId) (now : DateTime) : Keyspace × RecoverTurn :=
  let unlisted := keys.leaveActive jobId
  match keys.jobs jobId with
  | none => (unlisted, .skipped)
  | some job =>
      if job.state ≠ .active then
        (unlisted, .skipped)
      else if (keys.locks jobId).isSome then
        (keys, .skipped)
      else if (stalledJob job).stalledCount ≤ job.options.maxStalledCount then
        (unlisted.requeueStalled jobId job, .recovered)
      else
        let (keys, current) := unlisted.isCurrentRepeatSchedulerJob (stalledJob job) jobId
        if current then
          (keys.requeueStalled jobId job, .recovered)
        else
          let (keys, aborted) := keys.failStalled jobId job now
          (keys, if aborted then .aborted else .recovered)

/-- The loop over the popped ids; `none` is the error reply of an aborted script. -/
def recoverJobs (keys : Keyspace) (now : DateTime) : List JobId → Keyspace × Option Nat
  | [] => (keys, some 0)
  | jobId :: rest =>
      match keys.recoverJob jobId now with
      | (keys, .aborted) => (keys, none)
      | (keys, .skipped) => keys.recoverJobs now rest
      | (keys, .recovered) =>
          let (keys, recovered) := keys.recoverJobs now rest
          (keys, recovered.map (fun recovered => recovered + 1))

/-- `RECOVER_STALLED_SCRIPT`, when `SPOP` gives the ids `popped`. -/
def recoverStalled (keys : Keyspace) (popped : List JobId) (now : DateTime)
    : Keyspace × Option Nat :=
  let keys := { keys with stalled := keys.stalled \ popped.toFinset }
  match keys.recoverJobs now popped with
  | (keys, none) => (keys, none)
  | (keys, some recovered) =>
      ({ keys with stalled := keys.stalled ∪ keys.active.keys.toFinset }, some recovered)

end Keyspace

end Lane
