import Lane.Job.Locked

/-! Adding single jobs, batches, flows and dynamic flow children. -/

namespace Lane

namespace InMemoryJobQueueState

-----------------------------------------------------------------------------------------
-- Single jobs and batches
-----------------------------------------------------------------------------------------

/-- The tail of a submission: a live repeat series answers it, otherwise it is admitted. -/
def insertUnlessRepeated
    (insert : InMemoryJobQueueState → Job → DateTime → InMemoryJobQueueState × Job)
    (find : Find) (s : InMemoryJobQueueState) (job : Job) (now : DateTime)
    : InMemoryJobQueueState × Job :=
  match findActiveRepeatJob find s.jobs job with
  | some existing => (s, existing)
  | none => insert s job now

/-- A delayed owner gives way to the job that replaces it. -/
def replaceDelayedOwner (s : InMemoryJobQueueState) (job existing : Job) (now : DateTime)
    : InMemoryJobQueueState :=
  match s.removeJobRecordLocked existing.id with
  | (s, none) => s
  | (s, some removed) =>
      let s := s.emitRemovedEventLocked removed now
      s.emitReplacedDeduplicatedOwnerEventsLocked job removed now

/-- A duplicate of an owned deduplication id: it may become the owner's keep-last successor
or extend the owner's TTL, and the owner answers the submission.
-/
def coalesceDuplicate (s : InMemoryJobQueueState) (job existing : Job) (now : DateTime)
    : InMemoryJobQueueState × Job :=
  let s := (s.storeDeduplicatedNextLocked job existing).1
  let s := (s.extendDeduplicationExpirationLocked job existing.id now).1
  let s :=
    if deduplicationDuplicateEmitsEvents job existing then
      s.emitDeduplicatedEventsLocked existing job now
    else
      s
  (s, (s.jobs.get existing.id).getD existing)

/-- One submission under the lock; `add_at` and the loop of `add_many_at` differ in the
order of the first two lines of the admission.
-/
def submitLocked
    (insert : InMemoryJobQueueState → Job → DateTime → InMemoryJobQueueState × Job)
    (find : Find) (s : InMemoryJobQueueState) (job : Job) (now : DateTime)
    : InMemoryJobQueueState × Job :=
  match s.jobs.get job.id with
  | some existing => (s, existing)
  | none =>
      match findActiveDeduplicatedJob find s.jobs s.releasedDeduplicationOwners job now with
      | none => s.insertUnlessRepeated insert find job now
      | some existing =>
          if deduplicationReplacesDelayedOwner job existing then
            let job := preserveReplacementDeduplicationExpiration job existing
            let s := s.replaceDelayedOwner job existing now
            s.insertUnlessRepeated insert find job now
          else
            s.coalesceDuplicate job existing now

def addAt (cron : Cron) (find : Find) (queue : QueueName) (s : InMemoryJobQueueState)
    (name : String) (payload : Value) (options : JobOptions) (now : DateTime)
    (uuid : JobId)
    : InMemoryJobQueueState × Result Job :=
  match validateJobOptionsAt cron options now with
  | .error error => (s, .error error)
  | .ok () =>
      let job := Job.new queue name payload options now uuid
      let (s, job) := s.submitLocked insertCreated find job now
      (s, .ok job)

/-- The loop of `add_many_at`. -/
def submitAllLocked (find : Find) (now : DateTime) (s : InMemoryJobQueueState)
    : List Job → InMemoryJobQueueState × List Job
  | [] => (s, [])
  | job :: rest =>
      let (s, added) := s.submitLocked insertSequenced find job now
      let (s, later) := s.submitAllLocked find now rest
      (s, added :: later)

/-- Checks the options of every spec of a batch, in order. -/
def validateSpecsAt (cron : Cron) (now : DateTime) : List (JobSpec × JobId) → Result Unit
  | [] => .ok ()
  | (spec, _) :: rest =>
      match validateJobOptionsAt cron spec.options now with
      | .error error => .error error
      | .ok () => validateSpecsAt cron now rest

/-- Every spec of the batch passes the validation of its options. -/
def Validates (cron : Cron) (now : DateTime) (specs : List (JobSpec × JobId)) : Prop :=
  ∀ entry ∈ specs, validateJobOptionsAt cron entry.1.options now = .ok ()

/-- The batch is checked spec by spec, by induction on it. -/
theorem validateSpecsAt_ok_iff {cron : Cron} {now : DateTime} (specs : List (JobSpec × JobId))
    : validateSpecsAt cron now specs = .ok () ↔ Validates cron now specs := by
  induction specs with
  | nil => simp [validateSpecsAt, Validates]
  | cons entry rest ih =>
      unfold validateSpecsAt
      unfold Validates at ih ⊢
      rw [List.forall_mem_cons, ← ih]
      cases valid : validateJobOptionsAt cron entry.1.options now with
      | error error => simp
      | ok => simp

/-- The record of a spec together with the id generated for it. -/
def jobOfSpec (queue : QueueName) (now : DateTime) (entry : JobSpec × JobId) : Job :=
  Job.new queue entry.1.name entry.1.payload entry.1.options now entry.2

def addManyAt (cron : Cron) (find : Find) (queue : QueueName)
    (s : InMemoryJobQueueState) (specs : List (JobSpec × JobId)) (now : DateTime)
    : InMemoryJobQueueState × Result (List Job) :=
  match validateSpecsAt cron now specs with
  | .error error => (s, .error error)
  | .ok () =>
      let created := specs.map (jobOfSpec queue now)
      let (s, added) := s.submitAllLocked find now created
      (s, .ok added)

-----------------------------------------------------------------------------------------
-- Children of a flow submission
-----------------------------------------------------------------------------------------

/-- The ids among the submitted children that are already retained. A retained child must
be free to join this parent, and an id the parent already lists must really be its child.
-/
def duplicatedFlowChildren (s : InMemoryJobQueueState) (parentId : JobId)
    (existingChildIds : List JobId)
    : List Job → Finset JobId → Result (Finset JobId)
  | [], duplicated => .ok duplicated
  | child :: rest, duplicated =>
      match s.jobs.get child.id with
      | some existing =>
          match s.validateExistingFlowChildParentLocked parentId child.id with
          | .error error => .error error
          | .ok () =>
              if child.id ∈ existingChildIds ∧ existing.parentId ≠ some parentId then
                .error (.configError s!"flow child id `{child.id}` already exists")
              else
                s.duplicatedFlowChildren parentId existingChildIds rest
                  (insert child.id duplicated)
      | none =>
          if child.id ∈ existingChildIds then
            .error (.configError s!"flow child id `{child.id}` already exists")
          else
            s.duplicatedFlowChildren parentId existingChildIds rest duplicated

end InMemoryJobQueueState

/-- The bookkeeping of the deduplication loop over submitted children. `childIds` is the
child list of a parent that is itself being submitted.
-/
structure FlowDeduplication where
  state : InMemoryJobQueueState
  childIds : List JobId
  flowDeduplicationIds : Finset String
  deduplicatedChildren : HashMap JobId Job := ∅
  deduplicatedNextChildren : HashMap JobId Job := ∅
  deduplicatedNextChildById : HashMap String JobId := ∅

namespace FlowDeduplication

/-- Records a child stored as keep-last candidate. A later child of the same submission
supersedes an earlier one with its deduplication id. Only a submitted parent drops the
earlier id from its list, and only a parent that is already retained also counts the child
as deduplicated.
-/
def keepNext (d : FlowDeduplication) (submittedParent : Bool) (deduplicationId : String)
    (child existing : Job)
    : FlowDeduplication :=
  let previous := d.deduplicatedNextChildById.lookup deduplicationId
  let kept :=
    match previous with
    | none => d.deduplicatedNextChildren
    | some previousChildId => d.deduplicatedNextChildren.erase previousChildId
  { d with
    childIds :=
      if submittedParent then
        d.childIds.filter (fun childId => some childId != previous)
      else
        d.childIds
    deduplicatedNextChildById :=
      d.deduplicatedNextChildById.insert deduplicationId child.id
    deduplicatedChildren :=
      if submittedParent then
        d.deduplicatedChildren
      else
        d.deduplicatedChildren.insert child.id existing
    deduplicatedNextChildren := kept.insert child.id existing }

/-- One child of the deduplication loop; an error keeps the writes made before it. -/
def addChild (find : Find) (now : DateTime) (submittedParent : Bool)
    (duplicated : Finset JobId) (d : FlowDeduplication) (child : Job)
    : FlowDeduplication × Result Unit :=
  if child.id ∈ duplicated then
    (d, .ok ())
  else
    match activeDeduplicationId child now with
    | none => (d, .ok ())
    | some deduplicationId =>
        match findActiveDeduplicationId find d.state.jobs
            d.state.releasedDeduplicationOwners deduplicationId now with
        | some existing =>
            if flowChildDeduplicationRequiresNext child existing then
              match d.state.storeDeduplicatedNextLocked child existing with
              | (s, false) =>
                  let text := s!"flow child deduplication id `{deduplicationId}`"
                  ({ d with state := s },
                    .error (.configError s!"{text} is already active on job {existing.id}"))
              | (s, true) =>
                  let d := { d with state := s }
                  (d.keepNext submittedParent deduplicationId child existing, .ok ())
            else
              let s := (d.state.extendDeduplicationExpirationLocked child existing.id now).1
              ({ d with
                  state := s
                  deduplicatedChildren := d.deduplicatedChildren.insert child.id existing },
                .ok ())
        | none =>
            if deduplicationId ∈ d.flowDeduplicationIds then
              (d, .error
                (.configError s!"flow deduplication id `{deduplicationId}` already active"))
            else
              ({ d with flowDeduplicationIds := insert deduplicationId d.flowDeduplicationIds },
                .ok ())

/-- The deduplication loop; it stops at the first rejected child. -/
def addChildren (find : Find) (now : DateTime) (submittedParent : Bool)
    (duplicated : Finset JobId)
    : FlowDeduplication → List Job → FlowDeduplication × Result Unit
  | d, [] => (d, .ok ())
  | d, child :: rest =>
      match d.addChild find now submittedParent duplicated child with
      | (d, .error error) => (d, .error error)
      | (d, .ok ()) => addChildren find now submittedParent duplicated d rest

/-- The owner that took a submitted child's place, when the loop deduplicated the child. -/
def owner (d : FlowDeduplication) (submittedParent : Bool) (childId : JobId)
    : Option Job :=
  if submittedParent then
    (d.deduplicatedChildren.lookup childId).or (d.deduplicatedNextChildren.lookup childId)
  else
    d.deduplicatedChildren.lookup childId

/-- Children that will be inserted as new records. -/
def insertsChild (d : FlowDeduplication) (duplicated : Finset JobId) (child : Job) : Bool :=
  !(decide (child.id ∈ duplicated)
    || (d.deduplicatedChildren.lookup child.id).isSome
    || (d.deduplicatedNextChildren.lookup child.id).isSome)

/-- Children that a retained parent gets listed: all but those that an owner absorbed. -/
def listsChild (d : FlowDeduplication) (child : Job) : Bool :=
  !((d.deduplicatedChildren.lookup child.id).isSome
    && (d.deduplicatedNextChildren.lookup child.id).isNone)

end FlowDeduplication

/-- No inserted job may carry a repeat key that is live or repeated in the submission. -/
def checkFlowRepeatKeys (find : Find) (jobs : JobMap) : Finset String → List Job → Result Unit
  | _, [] => .ok ()
  | keys, job :: rest =>
      match activeRepeatKey job with
      | none => checkFlowRepeatKeys find jobs keys rest
      | some repeatKey =>
          if (findActiveRepeatKey find jobs repeatKey).isSome ∨ repeatKey ∈ keys then
            .error (.configError s!"flow repeat key `{repeatKey}` already active")
          else
            checkFlowRepeatKeys find jobs (insert repeatKey keys) rest

/-- Appends the ids of the listed children that are not in the list yet. -/
def appendChildIds (childIds : List JobId) (children : List Job) : List JobId :=
  children.foldl
    (fun ids child => if child.id ∈ ids then ids else ids ++ [child.id])
    childIds

namespace InMemoryJobQueueState

/-- Stores one submitted child: it is coalesced, attached as existing job, or inserted. -/
def storeFlowChild (parentId : JobId) (now : DateTime) (owner : JobId → Option Job)
    (duplicated : Finset JobId) (s : InMemoryJobQueueState) (child : Job)
    : InMemoryJobQueueState × Option Job :=
  match owner child.id with
  | some existing => (s.emitDeduplicatedEventsLocked existing child now, none)
  | none =>
      if child.id ∈ duplicated then
        match s.jobs.get child.id with
        | none => (s, none)
        | some existing =>
            let existing := { existing with parentId := some parentId }
            let s := s.setJob existing
            let s := s.recordTerminalChildDependencyLocked parentId existing
            (s.emitDuplicatedEventLocked existing now, some existing)
      else
        let (s, child) := s.insertSequenced child now
        (s, some child)

def storeFlowChildren (parentId : JobId) (now : DateTime) (owner : JobId → Option Job)
    (duplicated : Finset JobId)
    : InMemoryJobQueueState → List Job → InMemoryJobQueueState × List Job
  | s, [] => (s, [])
  | s, child :: rest =>
      let (s, stored) := s.storeFlowChild parentId now owner duplicated child
      let (s, later) := storeFlowChildren parentId now owner duplicated s rest
      (s, stored.toList ++ later)

/-- Releases the parent at the end of a submission unless a child is still to materialize. -/
def releaseUnlessNext (s : InMemoryJobQueueState) (d : FlowDeduplication)
    (parentId : JobId) (now : DateTime)
    : InMemoryJobQueueState :=
  if d.deduplicatedNextChildren.keys.isEmpty then
    (s.releaseParentIfReadyLocked parentId now).1
  else
    s

-----------------------------------------------------------------------------------------
-- Flows
-----------------------------------------------------------------------------------------

/-- The writes of a flow submission onto a retained parent, after all checks passed. -/
def attachToExistingParent (s : InMemoryJobQueueState) (existingParent : Job)
    (childJobs : List Job) (duplicated : Finset JobId) (d : FlowDeduplication)
    (now : DateTime)
    : InMemoryJobQueueState × JobFlow :=
  let parentId := existingParent.id
  let s :=
    match s.jobs.get parentId with
    | none => s
    | some parent =>
        s.setJob
          { parent with
            childIds := appendChildIds parent.childIds (childJobs.filter d.listsChild) }
  let (s, children) := storeFlowChildren parentId now (d.owner false) duplicated s childJobs
  let s := s.releaseUnlessNext d parentId now
  (s, { parent := (s.jobs.get parentId).getD existingParent, children })

def addFlowForExistingParentLocked (find : Find) (s : InMemoryJobQueueState)
    (existingParent : Job) (childJobs : List Job) (now : DateTime)
    : InMemoryJobQueueState × Result JobFlow :=
  let parentId := existingParent.id
  let s := s.emitDuplicatedEventLocked existingParent now
  match s.duplicatedFlowChildren parentId existingParent.childIds childJobs ∅ with
  | .error error => (s, .error error)
  | .ok duplicated =>
      let d : FlowDeduplication :=
        { state := s, childIds := [], flowDeduplicationIds := ∅ }
      match d.addChildren find now false duplicated childJobs with
      | (d, .error error) => (d.state, .error error)
      | (d, .ok ()) =>
          let s := d.state
          match checkFlowRepeatKeys find s.jobs ∅
              (childJobs.filter (d.insertsChild duplicated)) with
          | .error error => (s, .error error)
          | .ok () =>
              let (s, flow) := s.attachToExistingParent existingParent childJobs duplicated d now
              (s, .ok flow)

/-- A submitted flow whose parent's deduplication id is owned: the flow is kept for later or
extends the owner's TTL, and the owner answers the submission.
-/
def coalesceFlow (s : InMemoryJobQueueState) (candidate : JobFlow) (existing : Job)
    (now : DateTime)
    : InMemoryJobQueueState × JobFlow :=
  match s.storeDeduplicatedNextFlowLocked candidate existing with
  | (s, true) =>
      let s := s.emitDeduplicatedEventsLocked existing candidate.parent now
      (s, s.flowForExistingOwnerLocked existing)
  | (s, false) =>
      let s := (s.extendDeduplicationExpirationLocked candidate.parent existing.id now).1
      let s := s.emitDeduplicatedEventsLocked existing candidate.parent now
      (s, s.flowForExistingOwnerLocked existing)

/-- The submitted parent once the deduplicated children have left its list. -/
def flowParent (d : FlowDeduplication) (parent : Job) (now : DateTime) : Job :=
  let childIds :=
    d.childIds.filter (fun childId => (d.deduplicatedChildren.lookup childId).isNone)
  { parent with
    childIds
    state :=
      if childIds.isEmpty then
        stateAfterDependencies parent.scheduledAt now
      else
        parent.state }

/-- The writes of a flow submission with a new parent, after all checks passed. -/
def insertFlow (s : InMemoryJobQueueState) (parent : Job) (childJobs : List Job)
    (duplicated : Finset JobId) (d : FlowDeduplication) (now : DateTime)
    : InMemoryJobQueueState × JobFlow :=
  let (s, parent) := s.insertSequenced parent now
  let (s, children) := storeFlowChildren parent.id now (d.owner true) duplicated s childJobs
  let s := s.releaseUnlessNext d parent.id now
  (s, { parent := (s.jobs.get parent.id).getD parent, children })

/-- A flow submission whose parent is neither retained nor deduplicated. -/
def addNewFlowLocked (find : Find) (s : InMemoryJobQueueState) (parent : Job)
    (childJobs : List Job) (now : DateTime)
    : InMemoryJobQueueState × Result JobFlow :=
  match s.duplicatedFlowChildren parent.id [] childJobs ∅ with
  | .error error => (s, .error error)
  | .ok duplicated =>
      let d : FlowDeduplication :=
        { state := s
          childIds := parent.childIds
          flowDeduplicationIds := (activeDeduplicationId parent now).elim ∅ (fun id => {id}) }
      match d.addChildren find now true duplicated childJobs with
      | (d, .error error) => (d.state, .error error)
      | (d, .ok ()) =>
          let s := d.state
          let parent := flowParent d parent now
          match checkFlowRepeatKeys find s.jobs ∅
              (parent :: childJobs.filter (d.insertsChild duplicated)) with
          | .error error => (s, .error error)
          | .ok () =>
              let (s, flow) := s.insertFlow parent childJobs duplicated d now
              (s, .ok flow)

/-- A flow submission under the lock. -/
def addFlowLocked (find : Find) (s : InMemoryJobQueueState) (parent : Job)
    (childJobs : List Job) (now : DateTime)
    : InMemoryJobQueueState × Result JobFlow :=
  match s.jobs.get parent.id with
  | some existingParent =>
      s.addFlowForExistingParentLocked find existingParent childJobs now
  | none =>
      match findActiveDeduplicatedJob find s.jobs s.releasedDeduplicationOwners parent now with
      | some existing =>
          let (s, flow) := s.coalesceFlow { parent, children := childJobs } existing now
          (s, .ok flow)
      | none => s.addNewFlowLocked find parent childJobs now

/-- The records of submitted flow children. -/
def flowChildJobs (queue : QueueName) (parentId : JobId) (children : List (JobSpec × JobId))
    (now : DateTime)
    : List Job :=
  children.map (fun child =>
    { jobOfSpec queue now child with parentId := some parentId })

/-- The record of a submitted flow parent, which waits unless it has no children. -/
def flowParentJob (queue : QueueName) (parent : JobSpec × JobId) (childJobs : List Job)
    (now : DateTime)
    : Job :=
  let job := jobOfSpec queue now parent
  { job with
    state :=
      if childJobs.isEmpty then
        stateAfterDependencies job.scheduledAt now
      else
        .waitingChildren
    childIds := childJobs.map Job.id }

def addFlowAt (cron : Cron) (find : Find) (queue : QueueName) (s : InMemoryJobQueueState)
    (parent : JobSpec × JobId) (children : List (JobSpec × JobId)) (now : DateTime)
    : InMemoryJobQueueState × Result JobFlow :=
  match validateSpecsAt cron now (parent :: children) with
  | .error error => (s, .error error)
  | .ok () =>
      let childJobs := flowChildJobs queue (jobOfSpec queue now parent).id children now
      let parentJob := flowParentJob queue parent childJobs now
      match validateFlowJobIds parentJob childJobs with
      | .error error => (s, .error error)
      | .ok () => s.addFlowLocked find parentJob childJobs now

-----------------------------------------------------------------------------------------
-- Dynamic children
-----------------------------------------------------------------------------------------

/-- The checks on the parent of a dynamic fan-out. -/
def requireFanOutParent (s : InMemoryJobQueueState) (parentId : JobId)
    (lockToken : JobLockToken)
    : Result Job :=
  match s.jobs.get parentId with
  | none => .error (.jobNotFound parentId)
  | some parent => do
      requireActive parent "add flow children"
      requireLockToken parent lockToken
      ensureFlowDependenciesHaveNotFailed parent s.jobs (s.flowDependencies.lookup parentId)
        "add flow children"
      return parent

/-- The writes of a dynamic fan-out, after all checks passed. -/
def fanOut (s : InMemoryJobQueueState) (parent : Job) (childJobs : List Job)
    (duplicated : Finset JobId) (d : FlowDeduplication) (now : DateTime)
    : InMemoryJobQueueState × List Job :=
  let parent :=
    { unleasedParent parent .waitingChildren with
      childIds := appendChildIds parent.childIds (childJobs.filter d.listsChild) }
  let s := s.setJob parent
  let (s, children) := storeFlowChildren parent.id now (d.owner false) duplicated s childJobs
  let s := s.emitEventLocked "waiting-children" (some parent) (some .active) now []
  (s.releaseUnlessNext d parent.id now, children)

/-- A dynamic fan-out under the lock. The parent is read again after the loop, which may
have written the deduplication TTL of any retained job.
-/
def addFlowChildrenLocked (find : Find) (s : InMemoryJobQueueState) (parentId : JobId)
    (lockToken : JobLockToken) (childJobs : List Job) (now : DateTime)
    : InMemoryJobQueueState × Result (List Job) :=
  match s.requireFanOutParent parentId lockToken with
  | .error error => (s, .error error)
  | .ok parent =>
      match s.duplicatedFlowChildren parentId parent.childIds childJobs ∅ with
      | .error error => (s, .error error)
      | .ok duplicated =>
          let d : FlowDeduplication :=
            { state := s, childIds := [], flowDeduplicationIds := ∅ }
          match d.addChildren find now false duplicated childJobs with
          | (d, .error error) => (d.state, .error error)
          | (d, .ok ()) =>
              let s := d.state
              match checkFlowRepeatKeys find s.jobs ∅
                  (childJobs.filter (d.insertsChild duplicated)) with
              | .error error => (s, .error error)
              | .ok () =>
                  match s.jobs.get parentId with
                  | none => (s, .error (.jobNotFound parentId))
                  | some parent =>
                      let (s, children) := s.fanOut parent childJobs duplicated d now
                      (s, .ok children)

def addFlowChildrenAt (cron : Cron) (find : Find) (queue : QueueName)
    (s : InMemoryJobQueueState) (parentId : JobId) (lockToken : JobLockToken)
    (children : List (JobSpec × JobId)) (now : DateTime)
    : InMemoryJobQueueState × Result (List Job) :=
  if children.isEmpty then
    (s, .error (.configError "flow children cannot be empty"))
  else
    match validateSpecsAt cron now children with
    | .error error => (s, .error error)
    | .ok () =>
        let childJobs := flowChildJobs queue parentId children now
        match validateFlowChildJobs parentId childJobs with
        | .error error => (s, .error error)
        | .ok () => s.addFlowChildrenLocked find parentId lockToken childJobs now

end InMemoryJobQueueState

end Lane
