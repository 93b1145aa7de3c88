import Lane.Redis.Complete
import Lane.Redis.RecoverStalled

/-! The scripts that move one job between the sorted sets, and those that only edit its record.
Each checks the record, and those of a worker the lock, before its first write.
-/

namespace Lane

/-- The reply of a script about one job. -/
inductive TransitionReply where
  | missing
  | state (state : JobState)
  | indexMissing
  | lockMissing
  | lockMismatch
  | ok (updated : Job)

/-- A call on an active job was accepted. -/
def TransitionReply.isOk : TransitionReply → Bool
  | .ok _ => true
  | _ => false

namespace Keyspace

open Redis

-----------------------------------------------------------------------------------------
-- Repeat schedulers and locks
-----------------------------------------------------------------------------------------

/-- `sync_repeat_scheduler`: the owner of a series writes its scheduler entry anew, and takes a
key that nobody owns.
-/
def syncRepeatScheduler (keys : Keyspace) (job : Job) (jobId : JobId) (scheduledMillis : Int)
    : Keyspace :=
  match repeatKey job with
  | none => keys
  | some key =>
      let ownerId := keys.repeatOwner key
      let schedulerOwnerId := (keys.repeatMeta key).map RepeatMeta.jid
      if ownerId.any (· ≠ jobId) then
        keys
      else if ownerId = none ∧ schedulerOwnerId.any (· ≠ jobId) then
        keys
      else
        let keys :=
          if ownerId = none then
            { keys with repeatOwner := Function.update keys.repeatOwner key (some jobId) }
          else
            keys
        keys.storeRepeatScheduler job jobId scheduledMillis

/-- `SET` on a lock key. -/
def setLock (keys : Keyspace) (jobId : JobId) (lockToken : JobLockToken) : Keyspace :=
  { keys with locks := Function.update keys.locks jobId (some lockToken) }

/-- The checks of a worker's call, in order. -/
def lockRejection (keys : Keyspace) (jobId : JobId) (lockToken : JobLockToken)
    : Option TransitionReply :=
  match keys.jobs jobId with
  | none => some .missing
  | some job =>
      if job.state ≠ .active then
        some (.state job.state)
      else
        match keys.locks jobId with
        | none => some .lockMissing
        | some held => if held ≠ lockToken then some .lockMismatch else none

/-- A record without its worker. -/
def unleased (job : Job) : Job :=
  { job with
    processedAt := none
    workerId := none
    lockToken := none
    leaseExpiresAt := none
    deferredFailure := none
    failedReason := none }

-----------------------------------------------------------------------------------------
-- Lease renewal
-----------------------------------------------------------------------------------------

/-- The writes of a renewal. -/
def renewLock (keys : Keyspace) (jobId : JobId) (job : Job) (lockToken : JobLockToken)
    (leaseExpiresAt : DateTime)
    : Keyspace :=
  let keys := keys.setLock jobId lockToken
  let keys := { keys with stalled := keys.stalled.erase jobId }
  let keys := keys.setJob jobId { job with leaseExpiresAt := some leaseExpiresAt }
  { keys with active := keys.active.add (timestampMillis leaseExpiresAt) jobId }

/-- `RENEW_LEASE_SCRIPT`. -/
def renewLease (keys : Keyspace) (jobId : JobId) (lockToken : JobLockToken)
    (leaseExpiresAt : DateTime)
    : Keyspace × TransitionReply :=
  match keys.lockRejection jobId lockToken, keys.jobs jobId with
  | some reply, _ => (keys, reply)
  | none, none => (keys, .missing)
  | none, some job =>
      (keys.renewLock jobId job lockToken leaseExpiresAt,
        .ok { job with leaseExpiresAt := some leaseExpiresAt })

/-- One turn of `RENEW_LEASES_SCRIPT`; it also asks the active set. -/
def renewOne (keys : Keyspace) (jobId : JobId) (lockToken : JobLockToken)
    (leaseExpiresAt : DateTime)
    : Keyspace × Bool :=
  match keys.jobs jobId with
  | none => (keys, false)
  | some job =>
      if job.state = .active ∧ (keys.active.lookup jobId).isSome
          ∧ keys.locks jobId = some lockToken then
        (keys.renewLock jobId job lockToken leaseExpiresAt, true)
      else
        (keys, false)

-----------------------------------------------------------------------------------------
-- Giving an active job back
-----------------------------------------------------------------------------------------

/-- The writes that a rejected `delay_active_job` or `release_active_job` still makes. -/
def clearRejected (keys : Keyspace) (jobId : JobId) : TransitionReply → Keyspace
  | .missing => keys.releaseLock jobId
  | .state _ => keys.leaveActive jobId
  | _ => keys

/-- `DELAY_ACTIVE_JOB_SCRIPT`. -/
def delayActive (keys : Keyspace) (jobId : JobId) (lockToken : JobLockToken) (delay : Duration)
    (scheduledAt : DateTime)
    : Keyspace × TransitionReply :=
  match keys.lockRejection jobId lockToken, keys.jobs jobId with
  | some reply, _ => (keys.clearRejected jobId reply, reply)
  | none, none => (keys, .missing)
  | none, some job =>
      if (keys.active.lookup jobId).isNone then
        (keys, .indexMissing)
      else
        let keys := keys.releaseLock jobId
        let job :=
          { unleased job with
            state := .delayed
            scheduledAt
            options := { job.options with delay := some delay } }
        let keys := keys.setJob jobId job
        let keys := { keys with delayed := keys.delayed.add (timestampMillis scheduledAt) jobId }
        (keys.syncRepeatScheduler job jobId (timestampMillis scheduledAt), .ok job)

/-- `push_back_waiting_job`: a released job goes before all others of its priority. -/
def pushBackWaitingJob (keys : Keyspace) (job : Job) (jobId : JobId) (priority : JobPriority)
    : Keyspace :=
  let keys := keys.setJob jobId { job with enqueuedSeq := 0 }
  { keys with waiting := keys.waiting.add (pushBackWaitingScore priority waitingScoreBucket) jobId }

/-- `RELEASE_ACTIVE_JOB_SCRIPT`. -/
def releaseActive (keys : Keyspace) (jobId : JobId) (lockToken : JobLockToken) (now : DateTime)
    : Keyspace × TransitionReply :=
  match keys.lockRejection jobId lockToken, keys.jobs jobId with
  | some reply, _ => (keys.clearRejected jobId reply, reply)
  | none, none => (keys, .missing)
  | none, some job =>
      if (keys.active.lookup jobId).isNone then
        (keys, .indexMissing)
      else
        let keys := keys.releaseLock jobId
        let job := { unleased job with state := .waiting, scheduledAt := now, enqueuedSeq := 0 }
        let keys := keys.pushBackWaitingJob job jobId job.priority
        (keys.syncRepeatScheduler job jobId (timestampMillis now), .ok job)

-----------------------------------------------------------------------------------------
-- Delayed jobs
-----------------------------------------------------------------------------------------

/-- `ZREM` on the delayed set. -/
def leaveDelayed (keys : Keyspace) (jobId : JobId) : Keyspace :=
  { keys with delayed := keys.delayed.erase jobId }

/-- The due members of the delayed set, at most `limit` of them, earliest first. -/
def dueIds (keys : Keyspace) (nowMillis : Int) (limit : Nat) : List JobId :=
  ((keys.delayed.ranked.filter (fun entry => entry.2 ≤ nowMillis)).map Prod.fst).take limit

/-- One turn of the promotion loop, and whether it promoted the job. -/
def promoteDueJob (keys : Keyspace) (jobId : JobId) : Keyspace × Bool :=
  let unlisted := keys.leaveDelayed jobId
  match keys.jobs jobId with
  | none => (unlisted, false)
  | some job =>
      if job.state = .delayed then
        let job := { job with state := .waiting }
        let keys := unlisted.enqueueWaitingJob job jobId job.priority
        (keys.syncRepeatScheduler job jobId (timestampMillis job.scheduledAt), true)
      else
        (unlisted, false)

/-- The promotion loop. -/
def promoteDueJobs (keys : Keyspace) : List JobId → Keyspace × Nat
  | [] => (keys, 0)
  | jobId :: rest =>
      let (keys, promoted) := keys.promoteDueJob jobId
      let (keys, others) := keys.promoteDueJobs rest
      (keys, others + if promoted then 1 else 0)

/-- How many jobs one script promotes at most. -/
def promotionLimit : Nat := 1000

/-- `PROMOTE_DUE_JOBS_SCRIPT`. -/
def promoteDue (keys : Keyspace) (nowMillis : Int) : Keyspace × Nat :=
  keys.promoteDueJobs (keys.dueIds nowMillis promotionLimit)

/-- The check of the scripts on one delayed job; the job leaves the set in any case. -/
def takeDelayed (keys : Keyspace) (jobId : JobId) : Keyspace × Except TransitionReply Job :=
  let unlisted := keys.leaveDelayed jobId
  match keys.jobs jobId with
  | none => (unlisted, .error .missing)
  | some job =>
      if job.state ≠ .delayed then
        (unlisted, .error (.state job.state))
      else if (keys.delayed.lookup jobId).isNone then
        (unlisted, .error .indexMissing)
      else
        (unlisted, .ok job)

/-- `PROMOTE_JOB_SCRIPT`. -/
def promoteJob (keys : Keyspace) (jobId : JobId) (now : DateTime) : Keyspace × TransitionReply :=
  match keys.takeDelayed jobId with
  | (keys, .error reply) => (keys, reply)
  | (keys, .ok job) =>
      let job := { job with state := .waiting, scheduledAt := now }
      let keys := keys.enqueueWaitingJob job jobId job.priority
      (keys.syncRepeatScheduler { job with enqueuedSeq := keys.sequence } jobId
        (timestampMillis now), .ok { job with enqueuedSeq := keys.sequence })

/-- `RESCHEDULE_JOB_SCRIPT`. -/
def rescheduleJob (keys : Keyspace) (jobId : JobId) (delay : Duration) (scheduledAt : DateTime)
    : Keyspace × TransitionReply :=
  match keys.takeDelayed jobId with
  | (keys, .error reply) => (keys, reply)
  | (keys, .ok job) =>
      let job := { job with scheduledAt, options := { job.options with delay := some delay } }
      let keys := { keys with delayed := keys.delayed.add (timestampMillis scheduledAt) jobId }
      let keys := keys.setJob jobId job
      (keys.syncRepeatScheduler job jobId (timestampMillis scheduledAt), .ok job)

-----------------------------------------------------------------------------------------
-- Editing a record
-----------------------------------------------------------------------------------------

/-- The record with its new priority; without `lifo` the order within the priority stays. -/
def prioritized (job : Job) (priority : JobPriority) (lifo : Option Bool) : Job :=
  { job with
    priority
    options := { job.options with priority, lifo := lifo.getD job.options.lifo } }

/-- `UPDATE_PRIORITY_SCRIPT`: a waiting job draws a new sequence number. -/
def updatePriority (keys : Keyspace) (jobId : JobId) (priority : JobPriority) (lifo : Option Bool)
    : Keyspace × TransitionReply :=
  match keys.jobs jobId with
  | none => ({ keys with waiting := keys.waiting.erase jobId }, .missing)
  | some job =>
      let job := prioritized job priority lifo
      if job.state = .waiting then
        let keys := keys.enqueueWaitingJob job jobId priority
        (keys, .ok { job with enqueuedSeq := keys.sequence })
      else
        let keys := { keys with waiting := keys.waiting.erase jobId }
        (keys.setJob jobId job, .ok job)

/-- The scripts that write some fields of an existing record. -/
def editJob (keys : Keyspace) (jobId : JobId) (edit : Job → Job) : Keyspace × TransitionReply :=
  match keys.jobs jobId with
  | none => (keys, .missing)
  | some job => (keys.setJob jobId (edit job), .ok (edit job))

/-- `UPDATE_DATA_SCRIPT`. -/
def updateData (keys : Keyspace) (jobId : JobId) (payload : Value) : Keyspace × TransitionReply :=
  keys.editJob jobId (fun job => { job with payload })

/-- `UPDATE_PROGRESS_SCRIPT`. -/
def updateProgress (keys : Keyspace) (jobId : JobId) (progress : Value)
    : Keyspace × TransitionReply :=
  keys.editJob jobId (fun job => { job with progress := some progress })

/-- `SAVE_STACKTRACE_SCRIPT`. -/
def saveStacktrace (keys : Keyspace) (jobId : JobId) (stacktrace : List String)
    (failedReason : String)
    : Keyspace × TransitionReply :=
  keys.editJob jobId (fun job => { job with stacktrace, failedReason := some failedReason })

end Keyspace

end Lane
