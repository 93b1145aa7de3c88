import Lane.Job.State

/-! Pure predicates and searches that the queue operations decide their branches with. -/

namespace Lane

-----------------------------------------------------------------------------------------
-- Searching the job table
-----------------------------------------------------------------------------------------

/-- `HashMap::values().find(..)`: some matching record, in an unspecified iteration order.
The operations take this choice as an argument, so results hold for every order.
-/
structure Find where
  pick : List Job → Option Job
  mem : ∀ {jobs job}, pick jobs = some job → job ∈ jobs
  nil : ∀ {jobs}, pick jobs = none → jobs = []

/-- The search that takes the first stored match. -/
def Find.first : Find where
  pick := List.head?
  mem := List.mem_of_head?
  nil := List.head?_eq_none_iff.mp

/-- The search over a job table. -/
def Find.find (find : Find) (jobs : JobMap) (matching : Job → Bool) : Option Job :=
  find.pick (jobs.values.filter matching)

/-- A successful search returns a stored record that matches. -/
theorem Find.find_some {find : Find} {jobs : JobMap} {matching : Job → Bool} {job : Job}
    (found : find.find jobs matching = some job)
    : jobs.get job.id = some job ∧ matching job = true := by
  have member := List.mem_filter.mp (find.mem found)
  exact ⟨JobMap.mem_values.mp member.1, member.2⟩

/-- A search fails only when no stored record matches. -/
theorem Find.find_none {find : Find} {jobs : JobMap} {matching : Job → Bool}
    (failed : find.find jobs matching = none)
    {id : JobId} {job : Job} (stored : jobs.get id = some job)
    : matching job = false := by
  have none := List.filter_eq_nil_iff.mp (find.nil failed) job
    (JobMap.mem_values_of_get stored)
  simpa using none

-----------------------------------------------------------------------------------------
-- Deduplication
-----------------------------------------------------------------------------------------

def activeDeduplicationId (job : Job) (now : DateTime) : Option String :=
  if job.deduplicationExpiresAt.any (fun expiresAt => expiresAt ≤ now) then
    none
  else if job.state.isTerminal && job.deduplicationExpiresAt.isNone then
    none
  else
    jobDeduplicationId job

def deduplicationOwnerReleased (releasedOwners : Finset (String × JobId))
    (deduplicationId : String) (jobId : JobId)
    : Bool :=
  decide ((deduplicationId, jobId) ∈ releasedOwners)

/-- The job holds the deduplication id: unexpired, not finished without a TTL, not released. -/
def ownsDeduplicationId (releasedOwners : Finset (String × JobId))
    (deduplicationId : String) (now : DateTime) (job : Job)
    : Bool :=
  activeDeduplicationId job now == some deduplicationId
    && !deduplicationOwnerReleased releasedOwners deduplicationId job.id

def findActiveDeduplicationId (find : Find) (jobs : JobMap)
    (releasedOwners : Finset (String × JobId)) (deduplicationId : String)
    (now : DateTime)
    : Option Job :=
  find.find jobs (ownsDeduplicationId releasedOwners deduplicationId now)

def findActiveDeduplicatedJob (find : Find) (jobs : JobMap)
    (releasedOwners : Finset (String × JobId)) (candidate : Job) (now : DateTime)
    : Option Job :=
  match activeDeduplicationId candidate now with
  | none => none
  | some deduplicationId =>
      findActiveDeduplicationId find jobs releasedOwners deduplicationId now

def findActiveDeduplicationIdExcept (find : Find) (jobs : JobMap)
    (releasedOwners : Finset (String × JobId)) (deduplicationId : String)
    (excludedJobId : JobId) (now : DateTime)
    : Option Job :=
  find.find jobs (fun job =>
    job.id != excludedJobId && ownsDeduplicationId releasedOwners deduplicationId now job)

def deduplicationReplacesDelayedOwner (candidate existing : Job) : Bool :=
  candidate.options.deduplication.any DeduplicationOptions.replace
    && existing.state == .delayed
    && candidate.repeatKey.isNone
    && existing.parentId.isNone
    && existing.childIds.isEmpty
    && existing.repeatKey.isNone

def deduplicationStoresNextIfActive (candidate existing : Job) : Bool :=
  candidate.options.deduplication.any DeduplicationOptions.keepLastIfActive
    && existing.state == .active
    && candidate.childIds.isEmpty
    && candidate.repeatKey == existing.repeatKey

def deduplicationDuplicateEmitsEvents (candidate existing : Job) : Bool :=
  match candidate.options.deduplication with
  | none => false
  | some deduplication =>
      !deduplication.replace || deduplicationStoresNextIfActive candidate existing

def deduplicationStoresNextFlowIfActive (candidate : JobFlow) (existing : Job) : Bool :=
  candidate.parent.options.deduplication.any DeduplicationOptions.keepLastIfActive
    && existing.state == .active
    && candidate.parent.parentId.isNone
    && candidate.parent.repeatKey.isNone
    && existing.repeatKey.isNone

def flowChildDeduplicationRequiresNext (candidate existing : Job) : Bool :=
  candidate.options.deduplication.any DeduplicationOptions.keepLastIfActive
    && existing.state == .active

def deduplicationExtendsTtl (candidate : Job) : Bool :=
  candidate.options.deduplication.any (fun deduplication =>
    deduplication.extend && deduplication.ttl.isSome && !deduplication.keepLastIfActive)

def preserveReplacementDeduplicationExpiration (candidate existing : Job) : Job :=
  let preservesTtl := candidate.options.deduplication.any (fun options => options.ttl.isSome)
  if preservesTtl then
    { candidate with deduplicationExpiresAt := existing.deduplicationExpiresAt }
  else
    candidate

-----------------------------------------------------------------------------------------
-- Repeat series
-----------------------------------------------------------------------------------------

def activeRepeatKey (job : Job) : Option String :=
  if job.state.isTerminal then none else job.repeatKey

def isRepeatSchedulerJob (job : Job) : Bool :=
  (activeRepeatKey job).isSome && job.options.repeatOptions.isSome

def findActiveRepeatKey (find : Find) (jobs : JobMap) (repeatKey : String) : Option Job :=
  find.find jobs (fun job => activeRepeatKey job == some repeatKey)

def findActiveRepeatJob (find : Find) (jobs : JobMap) (candidate : Job) : Option Job :=
  match activeRepeatKey candidate with
  | none => none
  | some repeatKey => findActiveRepeatKey find jobs repeatKey

def findActiveRepeatKeyExcept (find : Find) (jobs : JobMap) (repeatKey : String)
    (excludedJobId : JobId)
    : Option Job :=
  find.find jobs (fun job =>
    job.id != excludedJobId && activeRepeatKey job == some repeatKey)

def isDelayedRepeatOwner (find : Find) (jobs : JobMap) (job : Job) : Bool :=
  if job.state ≠ .delayed then
    false
  else
    match job.repeatKey with
    | none => false
    | some repeatKey =>
        (findActiveRepeatKey find jobs repeatKey).any (fun owner => owner.id == job.id)

/-- The occurrence count a keep-last successor carries on; `none` refuses the successor. -/
def repeatKeepLastNextCount (owner candidate : Job) : Option (Option Nat) :=
  match owner.repeatKey with
  | none => some none
  | some ownerRepeatKey =>
      if candidate.repeatKey ≠ some ownerRepeatKey then
        none
      else
        let nextCount := saturatingSucc32 owner.repeatCount
        if (owner.options.repeatOptions.bind RepeatOptions.limit).any (· ≤ nextCount) then
          none
        else
          some (some nextCount)

-----------------------------------------------------------------------------------------
-- Scheduling and flow dependencies
-----------------------------------------------------------------------------------------

def stateAfterDependencies (scheduledAt now : DateTime) : JobState :=
  if scheduledAt > now then .delayed else .waiting

def childFailureReleasesDependency (child : Job) : Bool :=
  child.options.ignoreDependencyOnFailure
    || child.options.removeDependencyOnFailure
    || child.options.continueParentOnFailure

/-- The failure policies in the order in which recovery serves them. -/
inductive FailurePolicy where
  | deferParent
  | continueParent
  | releaseDependency
  | failParent
deriving DecidableEq

def failurePolicy (job : Job) : FailurePolicy :=
  if job.options.failParentOnFailure then
    .deferParent
  else if job.options.continueParentOnFailure then
    .continueParent
  else if childFailureReleasesDependency job then
    .releaseDependency
  else
    .failParent

def flowDependencyIndexContains (index : Option InMemoryFlowDependencyIndex)
    (childId : JobId)
    : Bool :=
  index.any (fun index =>
    (index.processed.lookup childId).isSome
      || (index.ignored.lookup childId).isSome
      || decide (childId ∈ index.failed))

/-- Dependency counts of a flow parent. -/
structure JobFlowDependencyCounts where
  processed : Nat
  unprocessed : Nat
  failed : Nat
  ignored : Nat
  missing : Nat

/-- Counts one child that the side index does not record. -/
def JobFlowDependencyCounts.addChild (counts : JobFlowDependencyCounts)
    : Option Job → JobFlowDependencyCounts
  | none => { counts with missing := counts.missing + 1 }
  | some child =>
      if child.state = .completed then
        { counts with processed := counts.processed + 1 }
      else if child.state = .failed
          ∧ (child.options.ignoreDependencyOnFailure
            || child.options.continueParentOnFailure) then
        { counts with ignored := counts.ignored + 1 }
      else if child.state = .failed ∧ child.options.removeDependencyOnFailure then
        counts
      else if child.state = .failed then
        { counts with failed := counts.failed + 1 }
      else
        { counts with unprocessed := counts.unprocessed + 1 }

def flowDependencyCounts (parent : Job) (jobs : JobMap)
    (index : Option InMemoryFlowDependencyIndex)
    : JobFlowDependencyCounts :=
  let counts : JobFlowDependencyCounts :=
    { processed := (index.map (fun index => index.processed.keys.length)).getD 0
      unprocessed := 0
      failed := (index.map (fun index => index.failed.card)).getD 0
      ignored := (index.map (fun index => index.ignored.keys.length)).getD 0
      missing := 0 }
  parent.childIds.foldl
    (fun counts childId =>
      if flowDependencyIndexContains index childId then
        counts
      else
        counts.addChild (jobs.get childId))
    counts

-----------------------------------------------------------------------------------------
-- Guards
-----------------------------------------------------------------------------------------

def requireActive (job : Job) (action : String) : Result Unit :=
  if job.state = .active then
    .ok ()
  else
    let state := job.state.debug
    .error (.jobStateConflict s!"cannot {action} job {job.id} from state {state}")

def requireLockToken (job : Job) (lockToken : JobLockToken) : Result Unit :=
  if job.lockToken = some lockToken then
    .ok ()
  else
    .error (.jobLeaseConflict s!"lock token does not own job {job.id}")

def requireRemovable (job : Job) : Result Unit :=
  if job.state = .active ∧ job.lockToken.isSome then
    .error (.jobLeaseConflict s!"cannot remove active leased job {job.id}")
  else
    .ok ()

def ensureFlowDependenciesHaveNotFailed (job : Job) (jobs : JobMap)
    (index : Option InMemoryFlowDependencyIndex) (action : String)
    : Result Unit :=
  let counts := flowDependencyCounts job jobs index
  if counts.failed > 0 then
    .error (.jobStateConflict
      s!"cannot {action} job {job.id}; it has {counts.failed} failed flow dependencies")
  else
    .ok ()

def ensureFlowDependenciesAreResolved (job : Job) (jobs : JobMap)
    (index : Option InMemoryFlowDependencyIndex) (action : String)
    : Result Unit :=
  let counts := flowDependencyCounts job jobs index
  if counts.unprocessed > 0 then
    .error (.jobStateConflict
      s!"cannot {action} job {job.id}; it has {counts.unprocessed} pending flow dependencies")
  else if counts.failed > 0 then
    .error (.jobStateConflict
      s!"cannot {action} job {job.id}; it has {counts.failed} failed flow dependencies")
  else
    .ok ()

def jobReferenceTime (job : Job) : DateTime :=
  (job.finishedAt.or job.processedAt).getD job.scheduledAt

def shouldRetry (job : Job) : Bool :=
  decide (job.options.retryPolicy.maxRetries > 0)
    && decide (job.attemptsMade ≤ job.options.retryPolicy.maxRetries)

def retriesExhausted (job : Job) : Bool :=
  job.state == .failed && decide (job.attemptsMade > job.options.retryPolicy.maxRetries)

def validateJobOptionsAt (cron : Cron) (options : JobOptions) (now : DateTime)
    : Result Unit := do
  options.validate cron
  if (options.repeatOptions.bind RepeatOptions.endAt).any (· < now) then
    throw (.configError "repeat end_at must not be earlier than the add timestamp")

/-- Fails at the first id that occurs in `seen` or earlier in the list. -/
def rejectDuplicateJobIds (seen : Finset JobId) : List JobId → Result Unit
  | [] => .ok ()
  | id :: rest =>
      if id ∈ seen then
        .error (.configError s!"flow contains duplicate job id `{id}`")
      else
        rejectDuplicateJobIds (insert id seen) rest

def validateFlowJobIds (parent : Job) (children : List Job) : Result Unit :=
  rejectDuplicateJobIds ∅ (parent.id :: children.map Job.id)

def validateFlowChildJobs (parentId : JobId) (children : List Job) : Result Unit :=
  rejectDuplicateJobIds {parentId} (children.map Job.id)

/-- The next occurrence of a completed repeat job, when the series goes on. -/
def nextRepeatJob (cron : Cron) (job : Job) (now : DateTime) (uuid : JobId)
    : Result (Option Job) :=
  match job.options.repeatOptions with
  | none => .ok none
  | some settings =>
      let nextCount := saturatingSucc32 job.repeatCount
      if settings.limit.any (· ≤ nextCount) then
        .ok none
      else
        match settings.nextScheduledAt cron now with
        | .error error => .error error
        | .ok none => .ok none
        | .ok (some scheduledAt) =>
            if settings.endAt.any (· < scheduledAt) then
              .ok none
            else
              let options := { job.options with jobId := none }
              let next := Job.new job.queue job.name job.payload options now uuid
              .ok (some
                { next with
                  scheduledAt
                  state := stateAfterDependencies scheduledAt now
                  repeatKey := job.repeatKey
                  repeatCount := nextCount })

end Lane
