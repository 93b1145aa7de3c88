import Lane.Job.Management

/-! Claiming, completing, failing and recovering jobs. -/

namespace Lane

/-- Claim order within one priority: released jobs first by id, then LIFO jobs newest first,
then FIFO jobs oldest first.
-/
def compareWaitingOrder (a b : Job) : Ordering :=
  match a.enqueuedSeq == 0, b.enqueuedSeq == 0 with
  | true, true => compare a.id b.id
  | true, false => .lt
  | false, true => .gt
  | false, false =>
      match a.options.lifo, b.options.lifo with
      | true, true => compare b.enqueuedSeq a.enqueuedSeq
      | true, false => .lt
      | false, true => .gt
      | false, false => compare a.enqueuedSeq b.enqueuedSeq

def compareClaimOrder (a b : Job) : Ordering :=
  (compare a.priority b.priority)
    |>.then (compareWaitingOrder a b)
    |>.then (compare a.scheduledAt b.scheduledAt)
    |>.then (compare a.createdAt b.createdAt)
    |>.then (compare a.id b.id)

/-- `Iterator::min_by`: the first of the least elements. -/
def minBy (order : Job → Job → Ordering) : List Job → Option Job
  | [] => none
  | job :: rest =>
      some (rest.foldl (fun best next => if order best next = .gt then next else best) job)

namespace InMemoryJobQueueState

-----------------------------------------------------------------------------------------
-- Claim
-----------------------------------------------------------------------------------------

/-- `lockToken` is the generated token of the new lease. -/
def claimedJob (job : Job) (workerId : JobWorkerId) (leaseFor : Duration) (now : DateTime)
    (lockToken : JobLockToken)
    : Job :=
  { job with
    state := .active
    attemptsMade := saturatingSucc32 job.attemptsMade
    processedAt := some now
    workerId := some workerId
    lockToken := some lockToken
    leaseExpiresAt := some (addDuration now leaseFor)
    failedReason := none }

def claimNext (s : InMemoryJobQueueState) (workerId : JobWorkerId) (leaseFor : Duration)
    (now : DateTime) (lockToken : JobLockToken)
    : InMemoryJobQueueState × Result (Option Job) :=
  if s.paused then
    (s, .ok none)
  else
    let s := (s.promoteDueLocked now).1
    match minBy compareClaimOrder (s.jobs.values.filter (fun job => job.state == .waiting)) with
    | none => (s, .ok none)
    | some job =>
        let claimed := claimedJob job workerId leaseFor now lockToken
        let s := s.setJob claimed
        (s.emitEventLocked "active" (some claimed) (some .waiting) now [], .ok (some claimed))

-----------------------------------------------------------------------------------------
-- Completion
-----------------------------------------------------------------------------------------

def requireCompletable (s : InMemoryJobQueueState) (jobId : JobId)
    (lockToken : JobLockToken)
    : Result Job :=
  match s.jobs.get jobId with
  | none => .error (.jobNotFound jobId)
  | some job => do
      requireActive job "complete"
      requireLockToken job lockToken
      ensureFlowDependenciesAreResolved job s.jobs (s.flowDependencies.lookup jobId) "complete"
      return job

def completedJob (job : Job) (value : Value) (now : DateTime) : Job :=
  { job with
    state := .completed
    finishedAt := some now
    workerId := none
    lockToken := none
    leaseExpiresAt := none
    deferredFailure := none
    returnValue := some value }

/-- Stores a finished job: its parent's side index and its own removal or retention. -/
def settleCompleted (s : InMemoryJobQueueState) (completed : Job) (now : DateTime)
    : InMemoryJobQueueState :=
  let s := s.setJob completed
  let s :=
    match completed.parentId with
    | none => s
    | some parentId => s.recordTerminalChildDependencyLocked parentId completed
  if completed.options.removesCompletedImmediately then
    (s.removeJobRecordLocked completed.id).1
  else
    match completed.options.completedRetention with
    | none => s
    | some retention => s.applyFinishedRetentionLocked .completed retention now

/-- Materializes what was kept for the end of `owner`: a job, else a flow. The flag tells
whether one of them was enqueued.
-/
def enqueueKeptNext (s : InMemoryJobQueueState) (owner : Job) (now : DateTime)
    : InMemoryJobQueueState × Bool :=
  match s.enqueueDeduplicatedNextLocked owner now with
  | (s, some _) => (s, true)
  | (s, none) =>
      let (s, flow) := s.enqueueDeduplicatedNextFlowLocked owner now
      (s, flow.isSome)

/-- The end of a completion, after the successors are in place. -/
def finishCompletion (s : InMemoryJobQueueState) (completed : Job) (now : DateTime)
    : InMemoryJobQueueState :=
  let s :=
    match completed.parentId with
    | none => s
    | some parentId => (s.releaseParentIfReadyLocked parentId now).1
  let fields :=
    match completed.returnValue with
    | none => []
    | some value => [("returnvalue", value)]
  let s := s.emitEventLocked "completed" (some completed) (some .active) now fields
  s.emitDrainedEventIfNeededLocked now

/-- The completion of `job` after its checks. A failure of the repeat schedule comes after
the completion was stored. `uuid` is the id generated for the next occurrence.
-/
def completeLocked (cron : Cron) (s : InMemoryJobQueueState) (job : Job) (value : Value)
    (now : DateTime) (uuid : JobId)
    : InMemoryJobQueueState × Result Job :=
  let completed := completedJob job value now
  let s := s.settleCompleted completed now
  match s.enqueueKeptNext completed now with
  | (s, true) => (s.finishCompletion completed now, .ok completed)
  | (s, false) =>
      match nextRepeatJob cron completed now uuid with
      | .error error => (s, .error error)
      | .ok none => (s.finishCompletion completed now, .ok completed)
      | .ok (some nextJob) =>
          let s := (s.insertCreated nextJob now).1
          (s.finishCompletion completed now, .ok completed)

def completeJob (cron : Cron) (s : InMemoryJobQueueState) (jobId : JobId)
    (lockToken : JobLockToken) (value : Value) (now : DateTime) (uuid : JobId)
    : InMemoryJobQueueState × Result Job :=
  match s.requireCompletable jobId lockToken with
  | .error error => (s, .error error)
  | .ok job => s.completeLocked cron job value now uuid

-----------------------------------------------------------------------------------------
-- Failure
-----------------------------------------------------------------------------------------

/-- The record of a failed attempt: delayed for a retry, or terminally failed. -/
def failedJob (job : Job) (error : String) (now : DateTime) (allowRetry : Bool) : Job :=
  let job :=
    { job with
      workerId := none
      lockToken := none
      leaseExpiresAt := none
      deferredFailure := none
      failedReason := some error }
  if allowRetry && shouldRetry job then
    { job with
      state := .delayed
      scheduledAt := addDuration now (job.options.retryPolicy.delayForAttempt job.attemptsMade)
      finishedAt := none }
  else
    { job with state := .failed, finishedAt := some now }

/-- What a child's terminal failure does to its parent, by the child's failure policy. -/
def settleParentOfFailed (s : InMemoryJobQueueState) (failed : Job) (parentId : JobId)
    (now : DateTime)
    : InMemoryJobQueueState :=
  if failed.options.failParentOnFailure then
    (s.deferParentFailureAfterChildFailureLocked parentId failed.id now).1
  else if failed.options.continueParentOnFailure then
    (s.continueParentAfterChildFailureLocked parentId now).1
  else if childFailureReleasesDependency failed then
    (s.releaseParentIfReadyLocked parentId now).1
  else
    (s.failWaitingParentLocked parentId (childFailedReason failed.id failed.failedReason) now).1

/-- The record of a terminally failed job, its parent's side index, removal and retention. -/
def settleFailed (s : InMemoryJobQueueState) (failed : Job) (now : DateTime)
    : InMemoryJobQueueState :=
  let s :=
    match failed.parentId with
    | none => s
    | some parentId => s.recordTerminalChildDependencyLocked parentId failed
  if failed.options.removesFailedImmediately then
    (s.removeJobRecordLocked failed.id).1
  else
    match failed.options.failedRetention with
    | none => s
    | some retention => s.applyFinishedRetentionLocked .failed retention now

/-- The consequences of a terminal failure for successors and parent. -/
def settleTerminalFailure (s : InMemoryJobQueueState) (failed : Job) (now : DateTime)
    : InMemoryJobQueueState :=
  let s := s.settleFailed failed now
  let s := (s.enqueueKeptNext failed now).1
  match failed.parentId with
  | none => s
  | some parentId => s.settleParentOfFailed failed parentId now

def failedReasonFields (job : Job) : List (String × Value) :=
  match job.failedReason with
  | none => []
  | some reason => [("failedReason", .string reason)]

def failActiveJob (s : InMemoryJobQueueState) (jobId : JobId) (lockToken : JobLockToken)
    (error : String) (now : DateTime) (allowRetry : Bool)
    : InMemoryJobQueueState × Result Job :=
  match s.requireOwnedActive jobId lockToken "fail" with
  | .error error => (s, .error error)
  | .ok job =>
      let failed := failedJob job error now allowRetry
      let s := s.setJob failed
      let s := if failed.state = .failed then s.settleTerminalFailure failed now else s
      let s :=
        s.emitEventLocked (jobEventForState failed.state) (some failed) (some .active) now
          (failedReasonFields failed)
      let s :=
        if retriesExhausted failed then s.emitRetriesExhaustedEventLocked failed now else s
      let s := if failed.state = .failed then s.emitDrainedEventIfNeededLocked now else s
      (s, .ok failed)

def failJob (s : InMemoryJobQueueState) (jobId : JobId) (lockToken : JobLockToken)
    (error : String) (now : DateTime)
    : InMemoryJobQueueState × Result Job :=
  s.failActiveJob jobId lockToken error now true

def failJobDiscardingRetry (s : InMemoryJobQueueState) (jobId : JobId)
    (lockToken : JobLockToken) (error : String) (now : DateTime)
    : InMemoryJobQueueState × Result Job :=
  s.failActiveJob jobId lockToken error now false

-----------------------------------------------------------------------------------------
-- Stalled recovery
-----------------------------------------------------------------------------------------

/-- Absent times come first. -/
def timeOrder : Option DateTime → Option DateTime → Ordering
  | none, none => .eq
  | none, some _ => .lt
  | some _, none => .gt
  | some left, some right => compare left right

/-- Earliest expired lease first, then start of processing, then id. -/
def stalledOrder (left right : Job) : Prop :=
  (((timeOrder left.leaseExpiresAt right.leaseExpiresAt).then
    (timeOrder left.processedAt right.processedAt)).then
    (compare left.id right.id)) ≠ .gt

instance : DecidableRel stalledOrder := fun _ _ => inferInstanceAs (Decidable (_ ≠ _))

/-- The lease of an active job has run out. -/
def leaseExpired (now : DateTime) (job : Job) : Bool :=
  job.state == .active && job.leaseExpiresAt.any (· ≤ now)

def stalledJobs (s : InMemoryJobQueueState) (now : DateTime) : List Job :=
  (s.jobs.values.filter (leaseExpired now)).insertionSort stalledOrder

/-- A stalled job fails for good past its tolerance, unless it owns a repeat series. -/
def stallsTerminally (job : Job) : Bool :=
  decide (saturatingSucc32 job.stalledCount > job.options.maxStalledCount)
    && !isRepeatSchedulerJob job

/-- The record after one more stall, before its new waiting sequence is drawn. -/
def stalledJob (job : Job) (now : DateTime) : Job :=
  let stalled :=
    { job with
      stalledCount := saturatingSucc32 job.stalledCount
      workerId := none
      lockToken := none
      leaseExpiresAt := none
      deferredFailure := none
      failedReason := some "job stalled after worker lease expired" }
  if stallsTerminally job then
    { stalled with state := .failed, finishedAt := some now }
  else
    { stalled with state := .waiting, processedAt := none }

/-- The first loop of stalled recovery; it collects the terminal failures in order and the
jobs whose stall is reported.
-/
def sweepStalled (now : DateTime)
    : InMemoryJobQueueState → List Job → InMemoryJobQueueState × List Job × List Job
  | s, [] => (s, [], [])
  | s, stalled :: rest =>
      match s.jobs.get stalled.id with
      | none => sweepStalled now s rest
      | some job =>
          let recovered := stalledJob job now
          if recovered.state = .failed then
            let (s, failures, events) := sweepStalled now (s.setJob recovered) rest
            (s, recovered :: failures, recovered :: events)
          else
            let (s, enqueuedSeq) := s.nextWaitingSequence
            let recovered := { recovered with enqueuedSeq }
            let (s, failures, events) := sweepStalled now (s.setJob recovered) rest
            (s, failures, recovered :: events)

/-- The loop over terminal failures: side index, keep-last successor, retention. -/
def settleStalledFailure (now : DateTime) (s : InMemoryJobQueueState) (failed : Job)
    : InMemoryJobQueueState :=
  let s :=
    match failed.parentId with
    | none => s
    | some parentId => s.recordTerminalChildDependencyLocked parentId failed
  let s := (s.enqueueKeptNext failed now).1
  match failed.options.failedRetention with
  | none => s
  | some retention => s.applyFinishedRetentionLocked .failed retention now

/-- Serves one failed child's parent. -/
def settleStalledParent (now : DateTime) (s : InMemoryJobQueueState) (failed : Job)
    : InMemoryJobQueueState :=
  match failed.parentId with
  | none => s
  | some parentId => s.settleParentOfFailed failed parentId now

def emitStalledEvents (now : DateTime) (s : InMemoryJobQueueState) (job : Job)
    : InMemoryJobQueueState :=
  let fields := failedReasonFields job
  let s := s.emitEventLocked "stalled" (some job) (some .active) now fields
  s.emitEventLocked (jobEventForState job.state) (some job) (some .active) now fields

def recoverStalledJobs (s : InMemoryJobQueueState) (now : DateTime)
    : InMemoryJobQueueState × Result Nat :=
  let stalled := s.stalledJobs now
  let (s, failures, events) := s.sweepStalled now stalled
  let removed := failures.filter (fun job => job.options.removesFailedImmediately)
  let s := s.removeJobRecords (removed.map Job.id)
  let s := failures.foldl (settleStalledFailure now) s
  let serve (policy : FailurePolicy) (s : InMemoryJobQueueState) :=
    (failures.filter (fun job => failurePolicy job == policy)).foldl (settleStalledParent now) s
  let s := serve .deferParent s
  let s := serve .continueParent s
  let s := serve .releaseDependency s
  let s := serve .failParent s
  (events.foldl (emitStalledEvents now) s, .ok stalled.length)

end InMemoryJobQueueState

end Lane
