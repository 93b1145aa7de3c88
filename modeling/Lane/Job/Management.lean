import Lane.Job.Submission

/-! Operations on retained jobs other than processing: removal, repeats, retry, rescheduling,
cleaning and the updates of one record.
-/

namespace Lane

-----------------------------------------------------------------------------------------
-- Recursive collection of unprocessed children
-----------------------------------------------------------------------------------------

/-- `collect_removable_unprocessed_children`: ids in removal order and the ids seen so far.
The fuel bounds the depth of the recursion; `removableUnprocessedChildren` gives enough.
-/
def collectRemovableUnprocessedChildren (jobs : JobMap)
    : Nat → List JobId → List JobId × Finset JobId → List JobId × Finset JobId
  | 0, _, collected => collected
  | fuel + 1, childIds, collected =>
      childIds.foldl
        (fun collected childId =>
          let (out, seen) := collected
          if childId ∈ seen then
            collected
          else
            let seen := insert childId seen
            match jobs.get childId with
            | none => (out, seen)
            | some child =>
                if child.state = .active ∨ child.state.isTerminal then
                  (out, seen)
                else
                  let (out, seen) :=
                    collectRemovableUnprocessedChildren jobs fuel child.childIds (out, seen)
                  (out ++ [child.id], seen))
        collected

/-- Every level of the recursion marks a retained job as seen, so the depth is bounded by
the number of retained jobs.
-/
def removableUnprocessedChildren (jobs : JobMap) (childIds : List JobId) : List JobId :=
  (collectRemovableUnprocessedChildren jobs (jobs.values.length + 1) childIds ([], ∅)).1

namespace InMemoryJobQueueState

-----------------------------------------------------------------------------------------
-- Removal
-----------------------------------------------------------------------------------------

/-- The removal loop of `remove_unprocessed_children`. -/
def removeWithEvents (now : DateTime)
    : InMemoryJobQueueState → List JobId → InMemoryJobQueueState × List Job
  | s, [] => (s, [])
  | s, id :: rest =>
      match s.removeJobRecordLocked id with
      | (s, none) => removeWithEvents now s rest
      | (s, some job) =>
          let (s, removed) := removeWithEvents now (s.emitRemovedEventLocked job now) rest
          (s, job :: removed)

def removeUnprocessedChildren (s : InMemoryJobQueueState) (parentId : JobId)
    (now : DateTime)
    : InMemoryJobQueueState × Result (Option (List Job)) :=
  match s.jobs.get parentId with
  | none => (s, .ok none)
  | some parent =>
      let ids := removableUnprocessedChildren s.jobs parent.childIds
      let (s, removed) := s.removeWithEvents now ids
      let s := (s.releaseParentIfReadyLocked parentId now).1
      (s, .ok (some removed))

/-- Takes a child off its parent's list and clears its parent, without releasing. -/
def detachChild (s : InMemoryJobQueueState) (parent child : Job) : InMemoryJobQueueState :=
  let s := s.setJob { parent with childIds := parent.childIds.filter (· != child.id) }
  let s := (s.clearChildDependencySideIndexLocked parent.id child.id).1
  match s.jobs.get child.id with
  | none => s
  | some child => s.setJob { child with parentId := none }

def removeChildDependency (s : InMemoryJobQueueState) (childId : JobId) (now : DateTime)
    : InMemoryJobQueueState × Result Bool :=
  match s.jobs.get childId with
  | none => (s, .error (.jobNotFound childId))
  | some child =>
      match child.parentId with
      | none => (s, .ok false)
      | some parentId =>
          match s.jobs.get parentId with
          | none => (s, .error (.jobNotFound parentId))
          | some parent =>
              if childId ∉ parent.childIds
                  ∧ !s.hasChildDependencySideIndexLocked parentId childId then
                (s, .ok false)
              else
                let s := s.detachChild parent child
                ((s.releaseParentIfReadyLocked parentId now).1, .ok true)

/-- Removes a record, releases its parent and emits the removal. -/
def removeAndRelease (s : InMemoryJobQueueState) (jobId : JobId) (now : DateTime)
    : InMemoryJobQueueState × Option Job :=
  match s.removeJobRecordLocked jobId with
  | (s, none) => (s, none)
  | (s, some removed) =>
      let s :=
        match removed.parentId with
        | none => s
        | some parentId => (s.releaseParentIfReadyLocked parentId now).1
      (s.emitRemovedEventLocked removed now, some removed)

/-- `clock` is the reading of the wall clock under the lock. -/
def remove (s : InMemoryJobQueueState) (jobId : JobId) (clock : DateTime)
    : InMemoryJobQueueState × Result (Option Job) :=
  match s.jobs.get jobId with
  | none => (s, .ok none)
  | some job =>
      match requireRemovable job with
      | .error error => (s, .error error)
      | .ok () =>
          let (s, removed) := s.removeAndRelease jobId clock
          (s, .ok removed)

/-- Releases a deduplication id from its owner and drops the candidates stored under it. -/
def removeDeduplicationKey (find : Find) (s : InMemoryJobQueueState)
    (deduplicationId : String) (clock : DateTime)
    : InMemoryJobQueueState × Result Bool :=
  if deduplicationId.isEmpty then
    (s, .ok false)
  else
    match findActiveDeduplicationId find s.jobs s.releasedDeduplicationOwners deduplicationId
        clock with
    | none => (s, .ok false)
    | some owner =>
        ({ s with
            releasedDeduplicationOwners :=
              insert (deduplicationId, owner.id) s.releasedDeduplicationOwners
            deduplicationNext := s.deduplicationNext.erase deduplicationId
            deduplicationNextFlows := s.deduplicationNextFlows.erase deduplicationId },
          .ok true)

-----------------------------------------------------------------------------------------
-- Repeat series
-----------------------------------------------------------------------------------------

/-- The current owner of an upserted series must be free to go. -/
def requireReplaceable (repeatKey : String) : Option Job → Result Unit
  | none => .ok ()
  | some owner =>
      match requireRemovable owner with
      | .error error => .error error
      | .ok () =>
          if owner.parentId.isSome ∨ !owner.childIds.isEmpty then
            let text := s!"cannot upsert repeat key `{repeatKey}`"
            .error
              (.jobStateConflict s!"{text}; current owner {owner.id} has flow dependencies")
          else
            .ok ()

/-- The id of an upserted job may only be retained by the current owner. -/
def requireFreeJobId (s : InMemoryJobQueueState) (job : Job) (currentOwner : Option Job)
    : Result Unit :=
  match s.jobs.get job.id with
  | none => .ok ()
  | some existing =>
      if currentOwner.map Job.id ≠ some existing.id then
        .error (.configError s!"job id `{job.id}` already exists")
      else
        .ok ()

/-- The deduplication id of an upserted job may only be owned by the current owner. -/
def requireFreeDeduplicationId (find : Find) (s : InMemoryJobQueueState) (job : Job)
    (repeatKey : String) (currentOwner : Option Job) (now : DateTime)
    : Result Unit :=
  match jobDeduplicationId job with
  | none => .ok ()
  | some deduplicationId =>
      match findActiveDeduplicationId find s.jobs s.releasedDeduplicationOwners
          deduplicationId now with
      | none => .ok ()
      | some existing =>
          if currentOwner.map Job.id ≠ some existing.id then
            let text := s!"cannot upsert repeat key `{repeatKey}`"
            let held := s!"deduplication id `{deduplicationId}` is active on job {existing.id}"
            .error (.jobStateConflict s!"{text}; {held}")
          else
            .ok ()

/-- The checks of a repeat upsert against the current owner of the series. -/
def requireUpsertable (find : Find) (s : InMemoryJobQueueState) (job : Job)
    (repeatKey : String) (currentOwner : Option Job) (now : DateTime)
    : Result Unit := do
  requireReplaceable repeatKey currentOwner
  s.requireFreeJobId job currentOwner
  s.requireFreeDeduplicationId find job repeatKey currentOwner now

/-- The repeat key of an upserted job, which must not be empty. -/
def requireRepeatKey (job : Job) : Result String :=
  match job.repeatKey.filter (fun key => !key.isEmpty) with
  | none => .error (.configError "repeat key must not be empty")
  | some repeatKey => .ok repeatKey

/-- The upsert under the lock. -/
def upsertRepeatLocked (find : Find) (s : InMemoryJobQueueState) (job : Job)
    (repeatKey : String) (now : DateTime)
    : InMemoryJobQueueState × Result Job :=
  let currentOwner := findActiveRepeatKey find s.jobs repeatKey
  match s.requireUpsertable find job repeatKey currentOwner now with
  | .error error => (s, .error error)
  | .ok () =>
      let s :=
        match currentOwner with
        | none => s
        | some owner => (s.removeJobRecordLocked owner.id).1
      let (s, job) := s.insertCreated job now
      (s, .ok job)

def upsertRepeat (cron : Cron) (find : Find) (queue : QueueName)
    (s : InMemoryJobQueueState) (spec : JobSpec × JobId) (now : DateTime)
    : InMemoryJobQueueState × Result Job :=
  match validateJobOptionsAt cron spec.1.options now with
  | .error error => (s, .error error)
  | .ok () =>
      if spec.1.options.repeatOptions.isNone then
        (s, .error
          (.configError "repeat options are required to upsert a repeat series"))
      else
        let job := jobOfSpec queue now spec
        match requireRepeatKey job with
        | .error error => (s, .error error)
        | .ok repeatKey => s.upsertRepeatLocked find job repeatKey now

def removeRepeat (find : Find) (s : InMemoryJobQueueState) (repeatKey : String)
    (clock : DateTime)
    : InMemoryJobQueueState × Result (Option Job) :=
  match findActiveRepeatKey find s.jobs repeatKey with
  | none => (s, .ok none)
  | some job =>
      match requireRemovable job with
      | .error error => (s, .error error)
      | .ok () =>
          let (s, removed) := s.removeAndRelease job.id clock
          (s, .ok removed)

-----------------------------------------------------------------------------------------
-- Rescheduling and manual retry
-----------------------------------------------------------------------------------------

def promote (s : InMemoryJobQueueState) (jobId : JobId) (now : DateTime)
    : InMemoryJobQueueState × Result Job :=
  match s.jobs.get jobId with
  | none => (s, .error (.jobNotFound jobId))
  | some current =>
      if current.state ≠ .delayed then
        let state := current.state.debug
        (s, .error (.jobStateConflict s!"cannot promote job {current.id} from state {state}"))
      else
        let (s, enqueuedSeq) := s.nextWaitingSequence
        let job := { current with state := .waiting, scheduledAt := now, enqueuedSeq }
        let s := s.setJob job
        (s.emitEventLocked "waiting" (some job) (some .delayed) now [], .ok job)

def reschedule (s : InMemoryJobQueueState) (jobId : JobId) (delay : Duration)
    (now : DateTime)
    : InMemoryJobQueueState × Result Job :=
  if delay = 0 then
    (s, .error (.configError "job delay must be greater than zero"))
  else
    match s.jobs.get jobId with
    | none => (s, .error (.jobNotFound jobId))
    | some job =>
        if job.state ≠ .delayed then
          let state := job.state.debug
          (s, .error (.jobStateConflict s!"cannot reschedule job {job.id} from state {state}"))
        else
          let job :=
            { job with
              options := { job.options with delay := some delay }
              scheduledAt := addDuration now delay }
          let fields := [("delay", Value.number (timestampMillis job.scheduledAt))]
          let s := s.setJob job
          (s.emitEventLocked "delayed" (some job) none now fields, .ok job)

/-- Another job that already owns what a retried job would reclaim. -/
def requireRetryable (find : Find) (s : InMemoryJobQueueState) (current : Job)
    (now : DateTime)
    : Result Unit := do
  match jobDeduplicationId current with
  | none => pure ()
  | some deduplicationId =>
      match findActiveDeduplicationIdExcept find s.jobs s.releasedDeduplicationOwners
          deduplicationId current.id now with
      | none => pure ()
      | some existing =>
          let held := s!"deduplication id `{deduplicationId}` is active on job {existing.id}"
          throw (.jobStateConflict s!"cannot retry job {current.id}; {held}")
  match current.repeatKey with
  | none => pure ()
  | some repeatKey =>
      match findActiveRepeatKeyExcept find s.jobs repeatKey current.id with
      | none => pure ()
      | some existing =>
          let held := s!"repeat key `{repeatKey}` is active on job {existing.id}"
          throw (.jobStateConflict s!"cannot retry job {current.id}; {held}")

/-- A finished job moved back to waiting. -/
def retriedJob (job : Job) (enqueuedSeq : Nat) (now : DateTime) : Job :=
  { job with
    state := .waiting
    scheduledAt := now
    deduplicationExpiresAt := deduplicationExpiration job.options now
    processedAt := none
    finishedAt := none
    workerId := none
    lockToken := none
    leaseExpiresAt := none
    deferredFailure := none
    failedReason := none
    returnValue := none
    enqueuedSeq }

def retry (find : Find) (s : InMemoryJobQueueState) (jobId : JobId) (now : DateTime)
    : InMemoryJobQueueState × Result Job :=
  match s.jobs.get jobId with
  | none => (s, .error (.jobNotFound jobId))
  | some current =>
      if !current.state.isTerminal then
        let state := current.state.debug
        (s, .error (.jobStateConflict s!"cannot retry job {current.id} from state {state}"))
      else
        match s.requireRetryable find current now with
        | .error error => (s, .error error)
        | .ok () =>
            let s := s.forgetReleasedDeduplicationOwnerLocked current
            let (s, enqueuedSeq) := s.nextWaitingSequence
            let job := retriedJob current enqueuedSeq now
            let s := s.setJob job
            let s := s.emitEventLocked "waiting" (some job) (some current.state) now []
            let s :=
              match current.parentId with
              | none => s
              | some parentId =>
                  (s.restoreParentDependencyAfterChildRetryLocked parentId jobId now).1
            (s, .ok job)

-----------------------------------------------------------------------------------------
-- Updates of an active lease
-----------------------------------------------------------------------------------------

/-- The job, if it is active under this token. -/
def requireOwnedActive (s : InMemoryJobQueueState) (jobId : JobId)
    (lockToken : JobLockToken) (action : String)
    : Result Job :=
  match s.jobs.get jobId with
  | none => .error (.jobNotFound jobId)
  | some job => do
      requireActive job action
      requireLockToken job lockToken
      return job

def renew (s : InMemoryJobQueueState) (jobId : JobId) (lockToken : JobLockToken)
    (leaseFor : Duration) (now : DateTime)
    : InMemoryJobQueueState × Result Job :=
  match s.requireOwnedActive jobId lockToken "renew lease" with
  | .error error => (s, .error error)
  | .ok job =>
      let job := { job with leaseExpiresAt := some (addDuration now leaseFor) }
      (s.setJob job, .ok job)

def delayActive (s : InMemoryJobQueueState) (jobId : JobId) (lockToken : JobLockToken)
    (delay : Duration) (now : DateTime)
    : InMemoryJobQueueState × Result Job :=
  match s.requireOwnedActive jobId lockToken "delay active" with
  | .error error => (s, .error error)
  | .ok job =>
      let job :=
        { job with
          state := .delayed
          options := { job.options with delay := some delay }
          scheduledAt := addDuration now delay
          processedAt := none
          workerId := none
          lockToken := none
          leaseExpiresAt := none
          deferredFailure := none
          failedReason := none }
      let fields := [("delay", Value.number (timestampMillis job.scheduledAt))]
      let s := s.setJob job
      (s.emitEventLocked "delayed" (some job) (some .active) now fields, .ok job)

def releaseActive (s : InMemoryJobQueueState) (jobId : JobId) (lockToken : JobLockToken)
    (now : DateTime)
    : InMemoryJobQueueState × Result Job :=
  match s.requireOwnedActive jobId lockToken "release active" with
  | .error error => (s, .error error)
  | .ok job =>
      let job :=
        { job with
          state := .waiting
          scheduledAt := now
          processedAt := none
          workerId := none
          lockToken := none
          leaseExpiresAt := none
          deferredFailure := none
          failedReason := none
          enqueuedSeq := 0 }
      let s := s.setJob job
      (s.emitEventLocked "waiting" (some job) (some .active) now [], .ok job)

-----------------------------------------------------------------------------------------
-- Updates of one record
-----------------------------------------------------------------------------------------

def setPriorityOrder (s : InMemoryJobQueueState) (jobId : JobId) (priority : JobPriority)
    (lifo : Option Bool)
    : InMemoryJobQueueState × Result Job :=
  match validateJobPriority priority with
  | .error error => (s, .error error)
  | .ok () =>
      match s.jobs.get jobId with
      | none => (s, .error (.jobNotFound jobId))
      | some job =>
          let (s, enqueuedSeq) :=
            if job.state = .waiting then
              s.nextWaitingSequence
            else
              (s, job.enqueuedSeq)
          let job :=
            { job with
              priority
              options := { job.options with priority, lifo := lifo.getD job.options.lifo }
              enqueuedSeq }
          (s.setJob job, .ok job)

def setData (s : InMemoryJobQueueState) (jobId : JobId) (payload : Value)
    : InMemoryJobQueueState × Result Job :=
  match s.jobs.get jobId with
  | none => (s, .error (.jobNotFound jobId))
  | some job =>
      let job := { job with payload }
      (s.setJob job, .ok job)

def setProgress (s : InMemoryJobQueueState) (jobId : JobId) (progress : Value)
    (clock : DateTime)
    : InMemoryJobQueueState × Result Job :=
  match s.jobs.get jobId with
  | none => (s, .error (.jobNotFound jobId))
  | some job =>
      let job := { job with progress := some progress }
      let s := s.setJob job
      (s.emitEventLocked "progress" (some job) none clock [("data", progress)], .ok job)

def saveStacktrace (s : InMemoryJobQueueState) (jobId : JobId) (stacktrace : List String)
    (failedReason : String)
    : InMemoryJobQueueState × Result Job :=
  match s.jobs.get jobId with
  | none => (s, .error (.jobNotFound jobId))
  | some job =>
      let job := { job with stacktrace, failedReason := some failedReason }
      (s.setJob job, .ok job)

/-- The newest `keep` log lines; `keep` of zero keeps them all. -/
def keepNewest (logs : List JobLogEntry) (keep : Nat) : List JobLogEntry :=
  if keep > 0 ∧ logs.length > keep then logs.drop (logs.length - keep) else logs

def log (s : InMemoryJobQueueState) (jobId : JobId) (line : String) (keep : Nat)
    (now : DateTime)
    : InMemoryJobQueueState × Result Job :=
  match s.jobs.get jobId with
  | none => (s, .error (.jobNotFound jobId))
  | some job =>
      let job := { job with logs := keepNewest (job.logs ++ [⟨now, line⟩]) keep }
      (s.setJob job, .ok job)

/-- `clear_logs`; here `keep` of zero clears every line. It answers with the kept lines and
their number.
-/
def clearLogs (s : InMemoryJobQueueState) (jobId : JobId) (keep : Nat)
    : InMemoryJobQueueState × Result (List JobLogEntry × Nat) :=
  match s.jobs.get jobId with
  | none => (s, .ok ([], 0))
  | some job =>
      let logs := if keep = 0 then [] else keepNewest job.logs keep
      (s.setJob { job with logs }, .ok (logs, logs.length))

-----------------------------------------------------------------------------------------
-- Cleaning, draining, obliterating
-----------------------------------------------------------------------------------------

/-- Releases the parents of removed jobs one after the other. -/
def releaseParents (s : InMemoryJobQueueState) : List (JobId × DateTime) → InMemoryJobQueueState
  | [] => s
  | (parentId, now) :: rest => ((s.releaseParentIfReadyLocked parentId now).1).releaseParents rest

/-- Oldest reference time first, then id. -/
def referenceOrder (left right : Job) : Prop :=
  jobReferenceTime left < jobReferenceTime right
    ∨ (jobReferenceTime left = jobReferenceTime right ∧ left.id ≤ right.id)

instance : DecidableRel referenceOrder := fun _ _ => inferInstanceAs (Decidable (_ ∨ _))

/-- The jobs that one `clean` call removes. -/
def cleanableJobs (s : InMemoryJobQueueState) (state : JobState) (grace : Duration)
    (limit : Nat) (now : DateTime)
    : List Job :=
  let cutoff := subtractDuration now grace
  let jobs :=
    s.jobs.values.filter (fun job =>
      job.state == state
        && decide (jobReferenceTime job ≤ cutoff)
        && (state != .active || job.lockToken.isNone))
  (jobs.insertionSort referenceOrder).take limit

def clean (s : InMemoryJobQueueState) (state : JobState) (grace : Duration) (limit : Nat)
    (now : DateTime)
    : InMemoryJobQueueState × Result (List Job) :=
  if limit = 0 then
    (s, .ok [])
  else
    let jobs := s.cleanableJobs state grace limit now
    let parentIds := jobs.filterMap Job.parentId
    let s := s.removeJobRecords (jobs.map Job.id)
    let s := s.releaseParents (parentIds.map (fun parentId => (parentId, now)))
    (s.emitCleanedEventLocked jobs.length now, .ok jobs)

def stateRank : JobState → Nat
  | .waiting => 0
  | .delayed => 1
  | .active => 2
  | .waitingChildren => 3
  | .completed => 4
  | .failed => 5

/-- The order of job lists: state, priority, schedule, creation, id. -/
def listOrder (left right : Job) : Prop :=
  stateRank left.state < stateRank right.state
    ∨ (stateRank left.state = stateRank right.state
      ∧ (left.priority < right.priority
        ∨ (left.priority = right.priority ∧ dueOrder left right)))

instance : DecidableRel listOrder := fun _ _ => inferInstanceAs (Decidable (_ ∨ _))

/-- The jobs that one `drain` call removes. -/
def drainableJobs (find : Find) (s : InMemoryJobQueueState) (includeDelayed : Bool)
    : List Job :=
  let jobs :=
    s.jobs.values.filter (fun job =>
      job.state == .waiting
        || (includeDelayed && job.state == .delayed && !isDelayedRepeatOwner find s.jobs job))
  jobs.insertionSort listOrder

/-- `clock i` is the `i`-th reading of the wall clock, taken before the `i`-th release. -/
def drain (find : Find) (s : InMemoryJobQueueState) (includeDelayed : Bool)
    (clock : Nat → DateTime)
    : InMemoryJobQueueState × Result (List Job) :=
  let jobs := s.drainableJobs find includeDelayed
  let parentIds := jobs.filterMap Job.parentId
  let s := s.removeJobRecords (jobs.map Job.id)
  let s := s.releaseParents (parentIds.zipIdx.map (fun entry => (entry.1, clock entry.2)))
  (s, .ok jobs)

/-- A refused obliteration leaves the queue paused. -/
def obliterate (s : InMemoryJobQueueState) (force : Bool)
    : InMemoryJobQueueState × Result Nat :=
  let s := { s with paused := true }
  if s.jobs.values.any (fun job => job.state == .active) ∧ !force then
    (s, .error (.jobStateConflict "cannot obliterate queue with active jobs"))
  else
    let removed := s.jobs.values.length
    ({ s with
        paused := false
        jobs := .empty
        flowDependencies := ∅
        deduplicationNext := ∅
        deduplicationNextFlows := ∅
        releasedDeduplicationOwners := ∅ },
      .ok removed)

def pause (s : InMemoryJobQueueState) (clock : DateTime) : InMemoryJobQueueState :=
  { s with paused := true }.emitEventLocked "paused" none none clock []

def resume (s : InMemoryJobQueueState) (clock : DateTime) : InMemoryJobQueueState :=
  { s with paused := false }.emitEventLocked "resumed" none none clock []

end InMemoryJobQueueState

end Lane
