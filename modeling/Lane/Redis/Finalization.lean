import Lane.Redis.Keyspace
import Lane.Redis.WaitingScore

/-! The functions that the completion script and the stalled-recovery script share: ownership
keys, retention, metrics and the keep-last candidate. Dates are timestamps here; the scripts
write them with millisecond precision.
-/

namespace Lane

-----------------------------------------------------------------------------------------
-- Fields of a job
-----------------------------------------------------------------------------------------

namespace Redis

/-- The deduplication id of a job; an empty one counts as absent. -/
def deduplicationId (job : Job) : Option String :=
  (jobDeduplicationId job).filter (fun id => id ≠ "")

/-- The repeat key of a job; an empty one counts as absent. -/
def repeatKey (job : Job) : Option String := job.repeatKey.filter (fun key => key ≠ "")

/-- Whole milliseconds of a setting; less than one counts as absent. -/
def durationMillis (duration : Option Duration) : Option Nat :=
  (duration.map (fun duration => duration / nanosPerMilli)).filter (fun millis => 0 < millis)

def deduplicationTtlMillis (job : Job) : Option Nat :=
  match job.options.deduplication with
  | none => none
  | some deduplication =>
      if deduplication.keepLastIfActive then none else durationMillis deduplication.ttl

/-- The date that the scripts write for a number of milliseconds. -/
def millisToIso (millis : Int) : DateTime := millis * nanosPerMilli

/-- `repeat_keep_last_next_count`: `none` drops the candidate (`false`), `some none` goes on
without a series (`nil`).
-/
def repeatKeepLastNextCount (ownerJob nextJob : Job) : Option (Option Nat) :=
  match repeatKey nextJob with
  | none => if (repeatKey ownerJob).isSome then none else some none
  | some nextRepeatKey =>
      if repeatKey ownerJob ≠ some nextRepeatKey then
        none
      else
        let nextCount := ownerJob.repeatCount + 1
        let limit := ((ownerJob.options.repeatOptions.bind RepeatOptions.limit).getD 0)
        if 0 < limit ∧ limit ≤ nextCount then none else some (some nextCount)

/-- `prepare_deduplicated_next_job`, with the score under which the job is scheduled. -/
def prepareDeduplicatedNextJob (job : Job) (now : DateTime) : Job × Int :=
  let nowMillis := timestampMillis now
  let scheduledMillis := nowMillis + ((durationMillis job.options.delay).getD 0 : Nat)
  let job :=
    { job with
      createdAt := now
      scheduledAt := millisToIso scheduledMillis
      state := if scheduledMillis > nowMillis then .delayed else .waiting
      attemptsMade := 0
      stalledCount := 0
      processedAt := none
      finishedAt := none
      workerId := none
      lockToken := none
      leaseExpiresAt := none
      deferredFailure := none
      failedReason := none
      returnValue := none
      progress := none
      logs := []
      deduplicationExpiresAt :=
        (deduplicationTtlMillis job).map (fun ttl => millisToIso (nowMillis + ttl)) }
  (job, scheduledMillis)

/-- The candidate goes on with the series of the finished job. -/
def continueSeries (ownerJob nextJob : Job) (repeatNextCount : Option Nat) : Job :=
  match repeatNextCount with
  | none => nextJob
  | some repeatCount => { nextJob with repeatKey := ownerJob.repeatKey, repeatCount }

/-- `retention_options`: the shorthand removes the job at once. -/
def retentionOptions (removesAtOnce : Bool) (retention : Option JobRetention) : Option JobRetention :=
  if removesAtOnce then some { count := some 0 } else retention

def retentionCount (retention : Option JobRetention) : Option Nat := retention.bind JobRetention.count

def retentionAgeMillis (retention : JobRetention) : Option Nat := durationMillis retention.age

def retentionLimit (retention : JobRetention) : Nat :=
  let limit := retention.limit.getD 1000
  if limit = 0 then 1000 else limit

/-- A failed child does not block its parent under these policies. -/
def releasesParent (child : Job) : Bool := childFailureReleasesDependency child

end Redis

namespace Keyspace

open Redis

-----------------------------------------------------------------------------------------
-- Deduplication and repeat keys
-----------------------------------------------------------------------------------------

/-- A finished job gives its deduplication key up unless a TTL keeps it; an expiring key in its
last millisecond goes whoever owns it.
-/
def releaseDeduplicationKeyOnFinalization (keys : Keyspace) (job : Job) (jobId : JobId) : Keyspace :=
  match deduplicationId job with
  | none => keys
  | some id =>
      match keys.deduplication id with
      | none => keys
      | some { pttl := some 0, .. } => keys.deleteOwner id
      | some { pttl := some _, .. } => keys
      | some { jobId := owner, pttl := none } =>
          if owner = jobId then keys.deleteOwner id else keys

def setDeduplicationKey (keys : Keyspace) (job : Job) (jobId : JobId) : Keyspace :=
  match deduplicationId job with
  | none => keys
  | some id => keys.setOwner id { jobId, pttl := deduplicationTtlMillis job }

def storeRepeatScheduler (keys : Keyspace) (job : Job) (jobId : JobId) (scheduledMillis : Int)
    : Keyspace :=
  match repeatKey job with
  | none => keys
  | some key =>
      let entry : RepeatMeta :=
        { jid := jobId
          name := job.name
          next := scheduledMillis
          state := job.state
          count := job.repeatCount
          opts := job.options.repeatOptions
          key }
      { keys with
        repeatScheduler := keys.repeatScheduler.add scheduledMillis key
        repeatMeta := Function.update keys.repeatMeta key (some entry) }

/-- `set_repeat_key` and the scheduler entry that each script writes with it. -/
def setRepeatKey (keys : Keyspace) (job : Job) (jobId : JobId) (scheduledMillis : Int) : Keyspace :=
  match repeatKey job with
  | none => keys
  | some key =>
      let keys := { keys with repeatOwner := Function.update keys.repeatOwner key (some jobId) }
      keys.storeRepeatScheduler job jobId scheduledMillis

def releaseRepeatKey (keys : Keyspace) (job : Job) (jobId : JobId) : Keyspace :=
  match repeatKey job with
  | none => keys
  | some key =>
      let ownerMatches := keys.repeatOwner key == some jobId
      let keys :=
        if ownerMatches then
          { keys with repeatOwner := Function.update keys.repeatOwner key none }
        else
          keys
      let schedulerOwnerId := (keys.repeatMeta key).map RepeatMeta.jid
      if schedulerOwnerId = some jobId ∨ ownerMatches ∧ schedulerOwnerId = none then
        { keys with
          repeatScheduler := keys.repeatScheduler.erase key
          repeatMeta := Function.update keys.repeatMeta key none }
      else
        keys

-----------------------------------------------------------------------------------------
-- Retention and metrics
-----------------------------------------------------------------------------------------

def removeDependencyKeys (keys : Keyspace) (jobId : JobId) : Keyspace :=
  { keys with
    dependencies := Function.update keys.dependencies jobId ∅
    processed := Function.update keys.processed jobId ∅
    ignored := Function.update keys.ignored jobId ∅
    unsuccessful := Function.update keys.unsuccessful jobId ∅ }

def removeFinishedJob (keys : Keyspace) (jobId : JobId) : Keyspace :=
  let keys :=
    match keys.jobs jobId with
    | none => keys
    | some removed => keys.releaseRepeatKey removed jobId
  (keys.deleteJob jobId).removeDependencyKeys jobId

def removeFinishedJobs (keys : Keyspace) (jobIds : List JobId) : Keyspace :=
  jobIds.foldl removeFinishedJob keys

def setFinished (keys : Keyspace) (finish : Finish) (set : SortedSet) : Keyspace :=
  { keys with finished := Function.update keys.finished finish set }

def removeFinishedJobsByMaxAge (keys : Keyspace) (timestamp : Int) (retention : JobRetention)
    (finish : Finish)
    : Keyspace :=
  match retentionAgeMillis retention with
  | none => keys
  | some maxAge =>
      let maxLimit := retentionLimit retention
      let start := timestamp - maxAge
      let jobIds := (keys.finished finish).revRangeByScore start maxLimit
      let keys := keys.removeFinishedJobs jobIds
      if jobIds.length < maxLimit then
        keys.setFinished finish ((keys.finished finish).removeRangeByScore start)
      else
        keys.setFinished finish ((keys.finished finish).removeAll jobIds)

def removeFinishedJobsByMaxCount (keys : Keyspace) (maxCount : Option Nat) (finish : Finish)
    : Keyspace :=
  match maxCount with
  | none => keys
  | some 0 => keys
  | some maxCount =>
      let keys := keys.removeFinishedJobs ((keys.finished finish).revRange maxCount)
      keys.setFinished finish ((keys.finished finish).removeRangeByRank maxCount)

def applyFinishedRetention (keys : Keyspace) (timestamp : Int) (retention : Option JobRetention)
    (finish : Finish)
    : Keyspace :=
  match retention with
  | none => keys
  | some settings =>
      let keys := keys.removeFinishedJobsByMaxAge timestamp settings finish
      keys.removeFinishedJobsByMaxCount (retentionCount retention) finish

/-- Stores a finished job and applies its retention, or removes it at once. -/
def storeFinished (keys : Keyspace) (jobId : JobId) (job : Job) (timestamp : Int)
    (retention : Option JobRetention) (finish : Finish)
    : Keyspace :=
  if retentionCount retention = some 0 then
    keys.removeFinishedJob jobId
  else
    let keys := keys.setJob jobId job
    let keys := keys.setFinished finish ((keys.finished finish).add timestamp jobId)
    keys.applyFinishedRetention timestamp retention finish

end Keyspace

/-- `collect_metrics`: minutes that ended since the last call get their counts, newest first. -/
def collectMetrics (metrics : Metrics) (maxDataPoints : Nat) (timestamp : Int) : Metrics :=
  if maxDataPoints = 0 then
    metrics
  else
    let count := metrics.count
    let metrics := { metrics with count := count + 1 }
    match metrics.prev with
    | none => { metrics with prev := some (timestamp, 0) }
    | some (prevTs, prevCount) =>
        let n := min (Int.fdiv timestamp 60000 - Int.fdiv prevTs 60000) maxDataPoints
        if 0 < n then
          -- `LPUSH` puts the delta in first, so the empty minutes end up before it
          let points := (count - prevCount : Int) :: List.replicate (n.toNat - 1) 0
          { metrics with
            prev := some (timestamp, count)
            data := (points.reverse ++ metrics.data).take maxDataPoints }
        else
          metrics

namespace Keyspace

open Redis

/-- The retained number of metric minutes. -/
def metricsRetention : Nat := 10000

def collectMetrics (keys : Keyspace) (finish : Finish) (timestamp : Int) : Keyspace :=
  { keys with
    metrics :=
      Function.update keys.metrics finish
        (Lane.collectMetrics (keys.metrics finish) metricsRetention timestamp) }

-----------------------------------------------------------------------------------------
-- Enqueueing
-----------------------------------------------------------------------------------------

def enqueueWaitingJob (keys : Keyspace) (job : Job) (jobId : JobId) (priority : JobPriority)
    : Keyspace :=
  let sequence := keys.sequence + 1
  let job := { job with enqueuedSeq := sequence }
  let keys := { keys with sequence }
  let keys := keys.setJob jobId job
  { keys with
    waiting := keys.waiting.add (waitingScoreFor priority sequence job waitingScoreBucket) jobId }

def enqueuePreparedJob (keys : Keyspace) (job : Job) (scheduledMillis : Int) : Keyspace :=
  match job.state with
  | .waiting => keys.enqueueWaitingJob job job.id job.priority
  | .delayed =>
      let keys := keys.setJob job.id job
      { keys with delayed := keys.delayed.add scheduledMillis job.id }
  | .waitingChildren =>
      let keys := keys.setJob job.id job
      { keys with waitingChildren := keys.waitingChildren.add scheduledMillis job.id }
  | _ => keys.setJob job.id job

/-- One child of a keep-last flow. -/
def enqueueNextFlowChild (keys : Keyspace) (parentId : JobId) (child : Job) (now : DateTime)
    : Keyspace :=
  let (prepared, scheduledMillis) := Redis.prepareDeduplicatedNextJob child now
  let prepared := { prepared with parentId := some parentId, childIds := [] }
  let keys := keys.addDependency parentId child.id
  let keys := keys.setDeduplicationKey prepared child.id
  keys.enqueuePreparedJob prepared scheduledMillis

/-- The jobs of a keep-last flow enter the queue, the parent first. -/
def insertNextFlow (keys : Keyspace) (parent : Job) (children : List Job) (now : DateTime)
    : Keyspace :=
  let (prepared, scheduledMillis) := Redis.prepareDeduplicatedNextJob parent now
  let prepared := { prepared with parentId := none, childIds := children.map Job.id }
  let prepared :=
    { prepared with state := if children.isEmpty then prepared.state else .waitingChildren }
  let keys := keys.setDeduplicationKey prepared parent.id
  let keys := keys.enqueuePreparedJob prepared scheduledMillis
  let keys := if children.isEmpty then keys else keys.deleteDependencies parent.id
  children.foldl (fun keys child => keys.enqueueNextFlowChild parent.id child now) keys

/-- `enqueue_deduplicated_next_flow` on the candidate under `id`. -/
def enqueueDeduplicatedNextFlow (keys : Keyspace) (id : String) (parent : Option Job)
    (children : List Job) (now : DateTime)
    : Keyspace × Bool :=
  match parent with
  | none => (keys.deleteNext id, false)
  | some parent =>
      if keys.hasJob parent.id || children.any (fun child => keys.hasJob child.id) then
        (keys.deleteNext id, false)
      else
        ((keys.insertNextFlow parent children now).deleteNext id, true)

/-- The materialized child is listed by its parent and counted as a dependency. -/
def registerNextChild (keys : Keyspace) (nextJob : Job) : Keyspace :=
  match nextJob.parentId with
  | none => keys
  | some parentId =>
      match keys.jobs parentId with
      | none => keys
      | some parent =>
          let keys :=
            if nextJob.id ∈ parent.childIds then
              keys
            else
              keys.setJob parentId { parent with childIds := parent.childIds ++ [nextJob.id] }
          keys.addDependency parentId nextJob.id

/-- A keep-last job enters the queue, carrying on the series of the finished job. -/
def insertNextJob (keys : Keyspace) (ownerJob nextJob : Job) (repeatNextCount : Option Nat)
    (now : DateTime)
    : Keyspace :=
  let (prepared, scheduledMillis) := Redis.prepareDeduplicatedNextJob nextJob now
  let prepared := continueSeries ownerJob prepared repeatNextCount
  let keys := keys.setDeduplicationKey prepared nextJob.id
  let keys :=
    if repeatNextCount.isSome then
      keys.setRepeatKey prepared nextJob.id scheduledMillis
    else
      keys
  let keys := keys.enqueuePreparedJob prepared scheduledMillis
  keys.registerNextChild prepared

/-- `enqueue_deduplicated_next`: the candidate stored under the finished job's deduplication id
becomes the next job, and the owner of that id. Whether the finished job owned the id is not
asked.
-/
def enqueueDeduplicatedNext (keys : Keyspace) (ownerJob : Job) (now : DateTime) : Keyspace × Bool :=
  match deduplicationId ownerJob with
  | none => (keys, false)
  | some id =>
      match keys.deduplicationNext id with
      | none => (keys, false)
      | some (.flow parent children) => keys.enqueueDeduplicatedNextFlow id parent children now
      | some (.job nextJob) =>
          if keys.hasJob nextJob.id then
            (keys.deleteNext id, false)
          else
            match Redis.repeatKeepLastNextCount ownerJob nextJob with
            | none => (keys.deleteNext id, false)
            | some repeatNextCount =>
                ((keys.insertNextJob ownerJob nextJob repeatNextCount now).deleteNext id, true)

-----------------------------------------------------------------------------------------
-- Flow parents
-----------------------------------------------------------------------------------------

/-- A parent fails because a child failed; it gives its own keys up. -/
def failParent (keys : Keyspace) (parentId : JobId) (parent : Job) (failedChildId : JobId)
    (failedReason : String) (now : DateTime)
    : Keyspace :=
  let keys := keys.deleteDependencies parentId
  let keys := { keys with waitingChildren := keys.waitingChildren.erase parentId }
  let parent :=
    { parent with
      state := .failed
      finishedAt := some now
      workerId := none
      lockToken := none
      leaseExpiresAt := none
      deferredFailure := none
      failedReason := some s!"child job {failedChildId} failed: {failedReason}" }
  let keys := keys.releaseDeduplicationKeyOnFinalization parent parentId
  let keys := keys.releaseRepeatKey parent parentId
  let retention := retentionOptions parent.options.removeOnFail parent.options.failureRetention
  let keys := keys.storeFinished parentId parent (timestampMillis now) retention .failed
  keys.collectMetrics .failed (timestampMillis now)

/-- Where the children that are still retained leave a parent without a dependency set. -/
inductive ChildrenStatus where
  | failed (childId : JobId) (reason : String)
  | pending
  | done
deriving DecidableEq

/-- The loop over `child_ids`; the child that just finished is read from `updated`. -/
def childrenStatus (keys : Keyspace) (finishedId : JobId) (updated : Job)
    : List JobId → ChildrenStatus
  | [] => .done
  | childId :: rest =>
      match if childId = finishedId then some updated else keys.jobs childId with
      | none => keys.childrenStatus finishedId updated rest
      | some child =>
          if child.state = .failed ∧ !releasesParent child then
            .failed childId (child.failedReason.getD "unknown error")
          else if child.state ≠ .completed ∧ child.state ≠ .failed then
            .pending
          else
            keys.childrenStatus finishedId updated rest

end Keyspace

end Lane
