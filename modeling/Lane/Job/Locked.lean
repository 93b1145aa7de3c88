import Lane.Job.Queries
import Mathlib.Data.List.Sort

/-! The helpers that run under the queue's lock: removal, retention, keep-last candidates
and the updates of a flow parent.
-/

namespace Lane

namespace InMemoryJobQueueState

-----------------------------------------------------------------------------------------
-- Flow dependency side index
-----------------------------------------------------------------------------------------

/-- `flow_dependencies.entry(parent_id).or_default()` followed by an update of the entry. -/
def updateIndex (s : InMemoryJobQueueState) (parentId : JobId)
    (update : InMemoryFlowDependencyIndex → InMemoryFlowDependencyIndex)
    : InMemoryJobQueueState :=
  let index := (s.flowDependencies.lookup parentId).getD {}
  { s with flowDependencies := s.flowDependencies.insert parentId (update index) }

def recordCompletedChildDependencyLocked (s : InMemoryJobQueueState)
    (parentId childId : JobId) (value : Value)
    : InMemoryJobQueueState :=
  s.updateIndex parentId (fun index =>
    { processed := index.processed.insert childId value
      ignored := index.ignored.erase childId
      failed := index.failed.erase childId })

def recordIgnoredChildDependencyLocked (s : InMemoryJobQueueState)
    (parentId childId : JobId) (failedReason : String)
    : InMemoryJobQueueState :=
  s.updateIndex parentId (fun index =>
    { processed := index.processed.erase childId
      ignored := index.ignored.insert childId failedReason
      failed := index.failed.erase childId })

def recordFailedChildDependencyLocked (s : InMemoryJobQueueState)
    (parentId childId : JobId)
    : InMemoryJobQueueState :=
  s.updateIndex parentId (fun index =>
    { processed := index.processed.erase childId
      ignored := index.ignored.erase childId
      failed := insert childId index.failed })

/-- Removes the child from the first bucket that records it. The source chains the three
removals with `||`, so later buckets are only tried when the earlier ones had no entry.
-/
def clearChildDependencySideIndexLocked (s : InMemoryJobQueueState)
    (parentId childId : JobId)
    : InMemoryJobQueueState × Bool :=
  match s.flowDependencies.lookup parentId with
  | none => (s, false)
  | some index =>
      let (index, removed) :=
        if (index.processed.lookup childId).isSome then
          ({ index with processed := index.processed.erase childId }, true)
        else if (index.ignored.lookup childId).isSome then
          ({ index with ignored := index.ignored.erase childId }, true)
        else
          ({ index with failed := index.failed.erase childId },
            decide (childId ∈ index.failed))
      if index.isEmpty then
        ({ s with flowDependencies := s.flowDependencies.erase parentId }, removed)
      else
        ({ s with flowDependencies := s.flowDependencies.insert parentId index }, removed)

def hasChildDependencySideIndexLocked (s : InMemoryJobQueueState)
    (parentId childId : JobId)
    : Bool :=
  flowDependencyIndexContains (s.flowDependencies.lookup parentId) childId

def recordTerminalChildDependencyLocked (s : InMemoryJobQueueState)
    (parentId : JobId) (child : Job)
    : InMemoryJobQueueState :=
  match s.jobs.get parentId with
  | none => s
  | some parent =>
      if child.id ∉ parent.childIds then
        s
      else
        match child.state with
        | .completed =>
            s.recordCompletedChildDependencyLocked parentId child.id
              (child.returnValue.getD .null)
        | .failed =>
            if child.options.ignoreDependencyOnFailure
                || child.options.continueParentOnFailure then
              s.recordIgnoredChildDependencyLocked parentId child.id
                (child.failedReason.getD "")
            else if child.options.failParentOnFailure then
              s.recordFailedChildDependencyLocked parentId child.id
            else if child.options.removeDependencyOnFailure then
              (s.clearChildDependencySideIndexLocked parentId child.id).1
            else
              s
        | _ => s

-----------------------------------------------------------------------------------------
-- Removal and retention
-----------------------------------------------------------------------------------------

def forgetReleasedDeduplicationOwnerLocked (s : InMemoryJobQueueState) (job : Job)
    : InMemoryJobQueueState :=
  match jobDeduplicationId job with
  | none => s
  | some deduplicationId =>
      { s with
        releasedDeduplicationOwners :=
          s.releasedDeduplicationOwners.erase (deduplicationId, job.id) }

def removeJobRecordLocked (s : InMemoryJobQueueState) (jobId : JobId)
    : InMemoryJobQueueState × Option Job :=
  match s.jobs.get jobId with
  | none => (s, none)
  | some removed =>
      let s :=
        { s with
          jobs := s.jobs.remove jobId
          flowDependencies := s.flowDependencies.erase jobId }
      (s.forgetReleasedDeduplicationOwnerLocked removed, some removed)

/-- A loop of `remove_job_record_locked` over a list of ids. -/
def removeJobRecords (s : InMemoryJobQueueState) (jobIds : List JobId)
    : InMemoryJobQueueState :=
  jobIds.foldl (fun s jobId => (s.removeJobRecordLocked jobId).1) s

/-- Retained jobs of a terminal state with their finish times. -/
def finishedJobs (s : InMemoryJobQueueState) (state : JobState)
    : List (JobId × DateTime) :=
  (s.jobs.values.filter (fun job => job.state == state)).filterMap
    (fun job => job.finishedAt.map (fun finishedAt => (job.id, finishedAt)))

/-- Newest finish time first, then the greater id. -/
def newestFirst (left right : JobId × DateTime) : Prop :=
  right.2 < left.2 ∨ (left.2 = right.2 ∧ right.1 ≤ left.1)

instance : DecidableRel newestFirst := fun _ _ => inferInstanceAs (Decidable (_ ∨ _))

/-- The aged jobs that one terminal transition removes. -/
def expiredJobIds (s : InMemoryJobQueueState) (state : JobState)
    (retention : JobRetention) (age : Duration) (now : DateTime)
    : List JobId :=
  let cutoff := subtractDuration now age
  let expired := (s.finishedJobs state).filter (fun entry => decide (entry.2 ≤ cutoff))
  ((expired.insertionSort newestFirst).map Prod.fst).take (retention.limit.getD 1000)

/-- The jobs beyond the newest `count`. -/
def surplusJobIds (s : InMemoryJobQueueState) (state : JobState) (count : Nat)
    : List JobId :=
  (((s.finishedJobs state).insertionSort newestFirst).map Prod.fst).drop count

def applyFinishedRetentionLocked (s : InMemoryJobQueueState) (state : JobState)
    (retention : JobRetention) (now : DateTime)
    : InMemoryJobQueueState :=
  let s :=
    match retention.age with
    | none => s
    | some age => s.removeJobRecords (s.expiredJobIds state retention age now)
  match retention.count with
  | none => s
  | some count => s.removeJobRecords (s.surplusJobIds state count)

-----------------------------------------------------------------------------------------
-- Keep-last candidates
-----------------------------------------------------------------------------------------

/-- The write to the current owner when a candidate is stored: it now owns without a TTL. -/
def clearOwnerExpiration (s : InMemoryJobQueueState) (ownerId : JobId)
    : InMemoryJobQueueState :=
  match s.jobs.get ownerId with
  | none => s
  | some owner => s.setJob { owner with deduplicationExpiresAt := none }

def storeDeduplicatedNextLocked (s : InMemoryJobQueueState) (candidate existing : Job)
    : InMemoryJobQueueState × Bool :=
  if !deduplicationStoresNextIfActive candidate existing then
    (s, false)
  else
    match jobDeduplicationId candidate with
    | none => (s, false)
    | some deduplicationId =>
        let s :=
          { s with
            deduplicationNext := s.deduplicationNext.insert deduplicationId candidate
            deduplicationNextFlows := s.deduplicationNextFlows.erase deduplicationId }
        (s.clearOwnerExpiration existing.id, true)

def storeDeduplicatedNextFlowLocked (s : InMemoryJobQueueState) (candidate : JobFlow)
    (existing : Job)
    : InMemoryJobQueueState × Bool :=
  if !deduplicationStoresNextFlowIfActive candidate existing then
    (s, false)
  else
    match jobDeduplicationId candidate.parent with
    | none => (s, false)
    | some deduplicationId =>
        let s :=
          { s with
            deduplicationNextFlows :=
              s.deduplicationNextFlows.insert deduplicationId candidate
            deduplicationNext := s.deduplicationNext.erase deduplicationId }
        (s.clearOwnerExpiration existing.id, true)

def extendDeduplicationExpirationLocked (s : InMemoryJobQueueState) (candidate : Job)
    (existingId : JobId) (now : DateTime)
    : InMemoryJobQueueState × Bool :=
  if !deduplicationExtendsTtl candidate then
    (s, false)
  else
    match s.jobs.get existingId with
    | none => (s, false)
    | some existing =>
        let deduplicationExpiresAt := deduplicationExpiration candidate.options now
        (s.setJob { existing with deduplicationExpiresAt }, true)

end InMemoryJobQueueState

/-- A candidate starts over as a job added at `now`. -/
def prepareDeduplicatedNextJob (job : Job) (now : DateTime) : Job :=
  let scheduledAt := (job.options.delay.map (addDuration now)).getD now
  { job with
    createdAt := now
    scheduledAt
    state := stateAfterDependencies scheduledAt now
    attemptsMade := 0
    stalledCount := 0
    processedAt := none
    finishedAt := none
    workerId := none
    lockToken := none
    leaseExpiresAt := none
    deferredFailure := none
    failedReason := none
    returnValue := none
    progress := none
    logs := []
    deduplicationExpiresAt := deduplicationExpiration job.options now }

def prepareDeduplicatedNextFlow (flow : JobFlow) (now : DateTime) : JobFlow :=
  let parent := prepareDeduplicatedNextJob flow.parent now
  let parent := { parent with childIds := flow.children.map Job.id }
  { parent :=
      if flow.children.isEmpty then parent else { parent with state := .waitingChildren }
    children :=
      flow.children.map (fun child =>
        { prepareDeduplicatedNextJob child now with
          parentId := some flow.parent.id
          childIds := [] }) }

/-- The candidate as it is enqueued after `owner`, carrying on the owner's repeat series. -/
def nextKeepLastJob (owner candidate : Job) (repeatNextCount : Option Nat)
    (now : DateTime)
    : Job :=
  let next := prepareDeduplicatedNextJob candidate now
  match repeatNextCount with
  | none => next
  | some repeatCount => { next with repeatKey := owner.repeatKey, repeatCount }

namespace InMemoryJobQueueState

/-- The four lines with which the queue admits a new record: forget a stale release of its
deduplication id, draw its waiting sequence, store it and emit its creation.
-/
def insertCreated (s : InMemoryJobQueueState) (job : Job) (now : DateTime)
    : InMemoryJobQueueState × Job :=
  let s := s.forgetReleasedDeduplicationOwnerLocked job
  let (s, job) := s.assignWaitingOrder job
  let s := s.setJob job
  (s.emitJobCreatedEventsLocked job now, job)

/-- The same admission as bulk and flow submission write it, sequence first. -/
def insertSequenced (s : InMemoryJobQueueState) (job : Job) (now : DateTime)
    : InMemoryJobQueueState × Job :=
  let (s, job) := s.assignWaitingOrder job
  let s := s.forgetReleasedDeduplicationOwnerLocked job
  let s := s.setJob job
  (s.emitJobCreatedEventsLocked job now, job)

/-- Forgetting a release and drawing a sequence number touch different parts of the state, and a
sequence number is not part of a deduplication id.
-/
theorem insertSequenced_eq_insertCreated
    : (insertSequenced : InMemoryJobQueueState → Job → DateTime → InMemoryJobQueueState × Job)
      = insertCreated := by
  funext s job now
  unfold insertSequenced insertCreated assignWaitingOrder forgetReleasedDeduplicationOwnerLocked
  by_cases waiting : job.state = .waiting
  · simp only [if_pos waiting]
    cases identified : jobDeduplicationId job with
    | none =>
        have same : jobDeduplicationId { job with enqueuedSeq := s.nextWaitingSequence.2 } = none :=
          identified
        simp only [same]
    | some id =>
        have same
            : jobDeduplicationId { job with enqueuedSeq := s.nextWaitingSequence.2 } = some id :=
          identified
        simp only [same]
        rfl
  · simp only [if_neg waiting]

/-- Admits the children of a keep-last flow in order. -/
def insertAllCreated (s : InMemoryJobQueueState) (now : DateTime)
    : List Job → InMemoryJobQueueState × List Job
  | [] => (s, [])
  | child :: rest =>
      let (s, child) := s.insertCreated child now
      let (s, rest) := s.insertAllCreated now rest
      (s, child :: rest)

/-- Appends a child id to a retained parent that does not list it yet. -/
def pushChildId (s : InMemoryJobQueueState) (parentId childId : JobId)
    : InMemoryJobQueueState :=
  match s.jobs.get parentId with
  | none => s
  | some parent =>
      if childId ∈ parent.childIds then
        s
      else
        s.setJob { parent with childIds := parent.childIds ++ [childId] }

def enqueueDeduplicatedNextLocked (s : InMemoryJobQueueState) (owner : Job)
    (now : DateTime)
    : InMemoryJobQueueState × Option Job :=
  match jobDeduplicationId owner with
  | none => (s, none)
  | some deduplicationId =>
      match s.deduplicationNext.lookup deduplicationId with
      | none => (s, none)
      | some candidate =>
          let s := { s with deduplicationNext := s.deduplicationNext.erase deduplicationId }
          match repeatKeepLastNextCount owner candidate with
          | none => (s, none)
          | some repeatNextCount =>
              let next := nextKeepLastJob owner candidate repeatNextCount now
              if s.jobs.containsKey next.id then
                (s, none)
              else
                let s :=
                  match next.parentId with
                  | none => s
                  | some parentId => s.pushChildId parentId next.id
                let (s, next) := s.insertCreated next now
                (s, some next)

def enqueueDeduplicatedNextFlowLocked (s : InMemoryJobQueueState) (owner : Job)
    (now : DateTime)
    : InMemoryJobQueueState × Option JobFlow :=
  match jobDeduplicationId owner with
  | none => (s, none)
  | some deduplicationId =>
      match s.deduplicationNextFlows.lookup deduplicationId with
      | none => (s, none)
      | some flow =>
          let s :=
            { s with
              deduplicationNextFlows := s.deduplicationNextFlows.erase deduplicationId }
          if s.jobs.containsKey flow.parent.id
              || flow.children.any (fun child => s.jobs.containsKey child.id) then
            (s, none)
          else
            let flow := prepareDeduplicatedNextFlow flow now
            let (s, parent) := s.insertCreated flow.parent now
            let (s, children) := s.insertAllCreated now flow.children
            (s, some { parent, children })

def flowForExistingOwnerLocked (s : InMemoryJobQueueState) (owner : Job) : JobFlow :=
  { parent := owner, children := owner.childIds.filterMap s.jobs.get }

-----------------------------------------------------------------------------------------
-- Flow parents
-----------------------------------------------------------------------------------------

/-- The fields that every transition of a flow parent back to an unleased state resets. -/
def unleasedParent (parent : Job) (state : JobState) : Job :=
  { parent with
    state
    processedAt := none
    finishedAt := none
    workerId := none
    lockToken := none
    leaseExpiresAt := none
    deferredFailure := none
    failedReason := none }

/-- Moves a parent to waiting or delayed by its schedule, with a fresh sequence number when
it is due, and emits the transition.
-/
def scheduleParent (s : InMemoryJobQueueState) (parent : Job)
    (deferredFailure : Option String) (prev : JobState) (now : DateTime)
    : InMemoryJobQueueState × Job :=
  let state := stateAfterDependencies parent.scheduledAt now
  let scheduled := { unleasedParent parent state with deferredFailure }
  let (s, scheduled) :=
    if state = .waiting then
      let (s, enqueuedSeq) := s.nextWaitingSequence
      (s, { scheduled with enqueuedSeq })
    else
      (s, scheduled)
  let s := s.setJob scheduled
  let s :=
    s.emitEventLocked (jobEventForState scheduled.state) (some scheduled) (some prev) now []
  (s, scheduled)

def deferParentFailureAfterChildFailureLocked (s : InMemoryJobQueueState)
    (parentId childId : JobId) (now : DateTime)
    : InMemoryJobQueueState × Option Job :=
  match s.jobs.get parentId with
  | none => (s, none)
  | some parent =>
      if parent.state.isTerminal then
        (s, some parent)
      else
        let (s, parent) :=
          s.scheduleParent parent (some s!"child job {childId} failed") parent.state now
        (s, some parent)

def continueParentAfterChildFailureLocked (s : InMemoryJobQueueState)
    (parentId : JobId) (now : DateTime)
    : InMemoryJobQueueState × Option Job :=
  match s.jobs.get parentId with
  | none => (s, none)
  | some parent =>
      if parent.state ≠ .waitingChildren then
        (s, some parent)
      else
        let (s, parent) := s.scheduleParent parent none .waitingChildren now
        (s, some parent)

/-- A parent that a child's terminal failure fails. -/
def failedParent (parent : Job) (reason : String) (now : DateTime) : Job :=
  { parent with
    state := .failed
    finishedAt := some now
    workerId := none
    lockToken := none
    leaseExpiresAt := none
    deferredFailure := none
    failedReason := some reason }

def failWaitingParentLocked (s : InMemoryJobQueueState) (parentId : JobId)
    (reason : String) (now : DateTime)
    : InMemoryJobQueueState × Option Job :=
  match s.jobs.get parentId with
  | none => (s, none)
  | some parent =>
      if parent.state.isTerminal then
        (s, some parent)
      else
        let failed := failedParent parent reason now
        let s := s.setJob failed
        let s :=
          if failed.options.removesFailedImmediately then
            (s.removeJobRecordLocked parentId).1
          else
            match failed.options.failedRetention with
            | none => s
            | some retention => s.applyFinishedRetentionLocked .failed retention now
        let s :=
          s.emitEventLocked "failed" (some failed) (some .waitingChildren) now
            [("failedReason", .string reason)]
        (s, some failed)

/-- What a parent's child list says about its release. -/
inductive ChildScan where
  | pending
  | settled (childFailure : Option (JobId × Option String))
      (deferredChildFailure : Option JobId)

/-- The scan of `release_parent_if_ready_locked`: missing ids are skipped, the first
unfinished child stops it, and the last failure of each kind is kept.
-/
def scanChildren (jobs : JobMap)
    : List JobId → Option (JobId × Option String) → Option JobId → ChildScan
  | [], childFailure, deferredChildFailure => .settled childFailure deferredChildFailure
  | childId :: rest, childFailure, deferredChildFailure =>
      match jobs.get childId with
      | none => scanChildren jobs rest childFailure deferredChildFailure
      | some child =>
          match child.state with
          | .completed => scanChildren jobs rest childFailure deferredChildFailure
          | .failed =>
              if child.options.failParentOnFailure then
                scanChildren jobs rest childFailure (some child.id)
              else if childFailureReleasesDependency child then
                scanChildren jobs rest childFailure deferredChildFailure
              else
                scanChildren jobs rest (some (child.id, child.failedReason))
                  deferredChildFailure
          | _ => .pending

/-- The reason a parent fails with when a child failed terminally. -/
def childFailedReason (childId : JobId) (reason : Option String) : String :=
  let text := reason.getD "unknown error"
  s!"child job {childId} failed: {text}"

def releaseParentIfReadyLocked (s : InMemoryJobQueueState) (parentId : JobId)
    (now : DateTime)
    : InMemoryJobQueueState × Option Job :=
  match s.jobs.get parentId with
  | none => (s, none)
  | some parent =>
      if parent.state ≠ .waitingChildren then
        (s, some parent)
      else
        match scanChildren s.jobs parent.childIds none none with
        | .pending => (s, some parent)
        | .settled _ (some childId) =>
            s.deferParentFailureAfterChildFailureLocked parentId childId now
        | .settled (some (childId, reason)) none =>
            s.failWaitingParentLocked parentId (childFailedReason childId reason) now
        | .settled none none =>
            let (s, parent) := s.scheduleParent parent none .waitingChildren now
            (s, some parent)

def restoreParentDependencyAfterChildRetryLocked (s : InMemoryJobQueueState)
    (parentId childId : JobId) (now : DateTime)
    : InMemoryJobQueueState × Option Job :=
  match s.jobs.get parentId with
  | none => (s, none)
  | some parent =>
      if parent.state.isTerminal ∨ parent.state = .active then
        (s, some parent)
      else if childId ∉ parent.childIds then
        (s, some parent)
      else
        let previousState := parent.state
        let s := (s.clearChildDependencySideIndexLocked parentId childId).1
        let parent := unleasedParent parent .waitingChildren
        let s := s.setJob parent
        let s :=
          if previousState ≠ .waitingChildren then
            s.emitEventLocked "waiting-children" (some parent) (some previousState) now []
          else
            s
        (s, some parent)

/-- An existing child may be taken over only from a parent that is no longer retained. -/
def validateExistingFlowChildParentLocked (s : InMemoryJobQueueState)
    (parentId childId : JobId)
    : Result Unit :=
  match s.jobs.get childId with
  | none => .ok ()
  | some child =>
      match child.parentId with
      | none => .ok ()
      | some existingParentId =>
          if existingParentId ≠ parentId ∧ s.jobs.containsKey existingParentId then
            .error (.jobStateConflict
              s!"flow child id `{childId}` already belongs to parent `{existingParentId}`")
          else
            .ok ()

-----------------------------------------------------------------------------------------
-- Promotion of due jobs
-----------------------------------------------------------------------------------------

/-- Earliest schedule first, then creation time, then id. -/
def dueOrder (left right : Job) : Prop :=
  left.scheduledAt < right.scheduledAt
    ∨ (left.scheduledAt = right.scheduledAt
      ∧ (left.createdAt < right.createdAt
        ∨ (left.createdAt = right.createdAt ∧ left.id ≤ right.id)))

instance : DecidableRel dueOrder := fun _ _ => inferInstanceAs (Decidable (_ ∨ _))

def promoteDueJob (now : DateTime) (promoting : InMemoryJobQueueState × Nat)
    (dueJob : Job)
    : InMemoryJobQueueState × Nat :=
  let (s, promoted) := promoting
  let (s, enqueuedSeq) := s.nextWaitingSequence
  match s.jobs.get dueJob.id with
  | none => (s, promoted)
  | some job =>
      let job := { job with state := .waiting, enqueuedSeq }
      let s := s.setJob job
      (s.emitEventLocked "waiting" (some job) (some .delayed) now [], promoted + 1)

def promoteDueLocked (s : InMemoryJobQueueState) (now : DateTime)
    : InMemoryJobQueueState × Nat :=
  let dueJobs :=
    s.jobs.values.filter (fun job => job.state == .delayed && decide (job.scheduledAt ≤ now))
  (dueJobs.insertionSort dueOrder).foldl (promoteDueJob now) (s, 0)

end InMemoryJobQueueState

end Lane
