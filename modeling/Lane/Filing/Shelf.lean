import Lane.Job.Step
import Mathlib.Logic.Relation

/-! What children leave with their parents: the side indexes, the ids of the retained jobs, and
the filings by which both change.
-/

namespace Lane

-----------------------------------------------------------------------------------------
-- Filed results
-----------------------------------------------------------------------------------------

/-- A result that a finished child files with its parent. -/
inductive FiledResult where
  | processed (value : Value)
  | ignored (failedReason : String)
  | failed

/-- What a record files, by its state and its flow failure policy. -/
def Job.filedResult (child : Job) : Option FiledResult :=
  match child.state with
  | .completed => some (.processed (child.returnValue.getD .null))
  | .failed =>
      if child.options.ignoreDependencyOnFailure || child.options.continueParentOnFailure then
        some (.ignored (child.failedReason.getD ""))
      else if child.options.failParentOnFailure then
        some .failed
      else
        none
  | _ => none

namespace InMemoryFlowDependencyIndex

/-- Files a result in its bucket and takes the child out of the other two. -/
def file (index : InMemoryFlowDependencyIndex) (childId : JobId)
    : FiledResult → InMemoryFlowDependencyIndex
  | .processed value =>
      { processed := index.processed.insert childId value
        ignored := index.ignored.erase childId
        failed := index.failed.erase childId }
  | .ignored failedReason =>
      { processed := index.processed.erase childId
        ignored := index.ignored.insert childId failedReason
        failed := index.failed.erase childId }
  | .failed =>
      { processed := index.processed.erase childId
        ignored := index.ignored.erase childId
        failed := insert childId index.failed }

/-- Takes a child out of the first bucket that has it. -/
def clear (index : InMemoryFlowDependencyIndex) (childId : JobId) : InMemoryFlowDependencyIndex :=
  if (index.processed.lookup childId).isSome then
    { index with processed := index.processed.erase childId }
  else if (index.ignored.lookup childId).isSome then
    { index with ignored := index.ignored.erase childId }
  else
    { index with failed := index.failed.erase childId }

/-- An index without entries is not kept. -/
def kept (index : InMemoryFlowDependencyIndex) : Option InMemoryFlowDependencyIndex :=
  if index.isEmpty then none else some index

end InMemoryFlowDependencyIndex

-----------------------------------------------------------------------------------------
-- Shelves
-----------------------------------------------------------------------------------------

/-- The ids of the retained jobs and the side index filed under each parent. -/
@[ext] structure Shelf where
  retained : JobId → Bool
  filed : JobId → Option InMemoryFlowDependencyIndex

namespace Shelf

def enter (f : Shelf) (id : JobId) : Shelf :=
  { f with retained := Function.update f.retained id true }

/-- A record leaves together with its side index. -/
def leave (f : Shelf) (id : JobId) : Shelf :=
  { retained := Function.update f.retained id false
    filed := Function.update f.filed id none }

def empty : Shelf := { retained := fun _ => false, filed := fun _ => none }

def put (f : Shelf) (parentId : JobId) (index : Option InMemoryFlowDependencyIndex) : Shelf :=
  { f with filed := Function.update f.filed parentId index }

/-- A retained id enters without a trace. -/
theorem enter_of_retained {f : Shelf} {id : JobId} (retained : f.retained id = true)
    : f.enter id = f := by
  unfold enter
  rw [← retained, Function.update_eq_self]

end Shelf

/-- Where the filings of an operation come from: the ids that it may admit, the finished children
that report to a parent and the children whose results it takes back.
-/
structure Source where
  enters : JobId → Prop
  reports : JobId → Job → Prop
  clears : JobId → JobId → Prop

/-- One change of a shelf. -/
inductive Filing (o : Source) (f : Shelf) : Shelf → Prop
  | entered {id : JobId} (enters : o.enters id) : Filing o f (f.enter id)
  | left {id : JobId} : Filing o f (f.leave id)
  | emptied : Filing o f .empty
  | filed {parentId : JobId} {child : Job} {result : FiledResult}
    (reports : o.reports parentId child) (result_eq : child.filedResult = some result)
    : Filing o f (f.put parentId (some (((f.filed parentId).getD {}).file child.id result)))
  | dropped {parentId : JobId} {child : Job} {index : InMemoryFlowDependencyIndex}
    (found : f.filed parentId = some index) (reports : o.reports parentId child)
    (policy : failurePolicy child = .releaseDependency)
    : Filing o f (f.put parentId (index.clear child.id).kept)
  | cleared {parentId childId : JobId} {index : InMemoryFlowDependencyIndex}
    (found : f.filed parentId = some index) (clears : o.clears parentId childId)
    : Filing o f (f.put parentId (index.clear childId).kept)

/-- A sequence of changes of a shelf. -/
abbrev Filings (o : Source) : Shelf → Shelf → Prop := Relation.ReflTransGen (Filing o)

namespace Filings

variable {o : Source} {f g : Shelf}

theorem of_eq (same : g = f) : Filings o f g := by
  rw [same]

/-- What every filing keeps is kept by a sequence of them, by induction on the sequence. -/
theorem invariant (inv : Shelf → Prop) (files : Filings o f g) (start : inv f)
    (keeps : ∀ {f g : Shelf}, inv f → Filing o f g → inv g)
    : inv g := by
  induction files with
  | refl => exact start
  | tail _ last ih => exact keeps ih last

end Filings

-----------------------------------------------------------------------------------------
-- The shelf of a queue state
-----------------------------------------------------------------------------------------

namespace InMemoryJobQueueState

/-- The shelf of a state. -/
def shelf (s : InMemoryJobQueueState) : Shelf :=
  { retained := s.jobs.containsKey
    filed := fun id => s.flowDependencies.lookup id }

variable {o : Source} {s t : InMemoryJobQueueState} {job old : Job} {id parentId childId : JobId}
  {now : DateTime}

theorem shelf_retained {s : InMemoryJobQueueState} (found : s.jobs.get id = some job)
    : s.shelf.retained id = true :=
  JobMap.containsKey_eq_true.mpr ⟨job, found⟩

theorem shelf_setJob (s : InMemoryJobQueueState) (job : Job)
    : (s.setJob job).shelf = s.shelf.enter job.id := by
  ext1
  · funext id
    simp only [shelf, setJob, Shelf.enter, JobMap.containsKey, JobMap.get_insert,
      Function.update_apply]
    split
    · rfl
    · rfl
  · rfl

/-- An update of a retained record does not show. -/
theorem shelf_update (found : s.jobs.get id = some old) (same : job.id = old.id)
    : (s.setJob job).shelf = s.shelf := by
  rw [shelf_setJob, same, JobMap.get_id found, Shelf.enter_of_retained (shelf_retained found)]

-----------------------------------------------------------------------------------------
-- Bookkeeping that the shelf does not show
-----------------------------------------------------------------------------------------

@[simp] theorem nextWaitingSequence_shelf (s : InMemoryJobQueueState)
    : s.nextWaitingSequence.1.shelf = s.shelf := rfl

@[simp] theorem trimEventsLocked_shelf (s : InMemoryJobQueueState) (maxLen : Nat)
    : (s.trimEventsLocked maxLen).1.shelf = s.shelf := by
  unfold trimEventsLocked
  split <;> rfl

@[simp] theorem emitEventLocked_shelf (s : InMemoryJobQueueState) (event : String)
    (job : Option Job) (prev : Option JobState) (timestamp : DateTime)
    (fields : List (String × Value))
    : (s.emitEventLocked event job prev timestamp fields).shelf = s.shelf := by
  unfold emitEventLocked
  rw [trimEventsLocked_shelf]
  rfl

@[simp] theorem emitRemovedEventLocked_shelf (s : InMemoryJobQueueState) (job : Job)
    (timestamp : DateTime)
    : (s.emitRemovedEventLocked job timestamp).shelf = s.shelf := by
  simp [emitRemovedEventLocked]

@[simp] theorem emitDuplicatedEventLocked_shelf (s : InMemoryJobQueueState) (job : Job)
    (timestamp : DateTime)
    : (s.emitDuplicatedEventLocked job timestamp).shelf = s.shelf := by
  simp [emitDuplicatedEventLocked]

@[simp] theorem emitDeduplicatedEventsLocked_shelf (s : InMemoryJobQueueState)
    (owner candidate : Job) (timestamp : DateTime)
    : (s.emitDeduplicatedEventsLocked owner candidate timestamp).shelf = s.shelf := by
  unfold emitDeduplicatedEventsLocked
  split
  · rfl
  · simp [emitDeduplicationEventsLocked]

@[simp] theorem emitReplacedDeduplicatedOwnerEventsLocked_shelf (s : InMemoryJobQueueState)
    (replacement removedOwner : Job) (timestamp : DateTime)
    : (s.emitReplacedDeduplicatedOwnerEventsLocked replacement removedOwner timestamp).shelf
      = s.shelf := by
  unfold emitReplacedDeduplicatedOwnerEventsLocked
  split
  · rfl
  · simp [emitDeduplicationEventsLocked]

@[simp] theorem emitDrainedEventIfNeededLocked_shelf (s : InMemoryJobQueueState)
    (timestamp : DateTime)
    : (s.emitDrainedEventIfNeededLocked timestamp).shelf = s.shelf := by
  unfold emitDrainedEventIfNeededLocked
  simp only
  split
  · simp
  · rfl

@[simp] theorem forgetReleasedDeduplicationOwnerLocked_shelf (s : InMemoryJobQueueState)
    (job : Job)
    : (s.forgetReleasedDeduplicationOwnerLocked job).shelf = s.shelf := by
  unfold forgetReleasedDeduplicationOwnerLocked
  split <;> rfl

@[simp] theorem clearOwnerExpiration_shelf (s : InMemoryJobQueueState) (ownerId : JobId)
    : (s.clearOwnerExpiration ownerId).shelf = s.shelf := by
  unfold clearOwnerExpiration
  split
  · rfl
  · next owner found => exact shelf_update found rfl

@[simp] theorem storeDeduplicatedNextLocked_shelf (s : InMemoryJobQueueState)
    (candidate existing : Job)
    : (s.storeDeduplicatedNextLocked candidate existing).1.shelf = s.shelf := by
  unfold storeDeduplicatedNextLocked
  split
  · rfl
  · split
    · rfl
    · simp only [clearOwnerExpiration_shelf]
      rfl

@[simp] theorem storeDeduplicatedNextFlowLocked_shelf (s : InMemoryJobQueueState)
    (candidate : JobFlow) (existing : Job)
    : (s.storeDeduplicatedNextFlowLocked candidate existing).1.shelf = s.shelf := by
  unfold storeDeduplicatedNextFlowLocked
  split
  · rfl
  · split
    · rfl
    · simp only [clearOwnerExpiration_shelf]
      rfl

@[simp] theorem extendDeduplicationExpirationLocked_shelf (s : InMemoryJobQueueState)
    (candidate : Job) (existingId : JobId) (now : DateTime)
    : (s.extendDeduplicationExpirationLocked candidate existingId now).1.shelf = s.shelf := by
  unfold extendDeduplicationExpirationLocked
  split
  · rfl
  · split
    · rfl
    · next existing found => exact shelf_update found rfl

@[simp] theorem pushChildId_shelf (s : InMemoryJobQueueState) (parentId childId : JobId)
    : (s.pushChildId parentId childId).shelf = s.shelf := by
  unfold pushChildId
  split
  · rfl
  · next parent found =>
      split
      · rfl
      · exact shelf_update found rfl

/-- A promoted job keeps its record, by induction on the due jobs. -/
theorem promoteDueJobs_shelf (jobs : List Job) (promoting : InMemoryJobQueueState × Nat)
    : (jobs.foldl (promoteDueJob now) promoting).1.shelf = promoting.1.shelf := by
  induction jobs generalizing promoting with
  | nil => rfl
  | cons job rest ih =>
      rw [List.foldl_cons, ih]
      unfold promoteDueJob
      simp only
      split
      · rfl
      · next stored found =>
          simp only [emitEventLocked_shelf]
          exact shelf_update (s := promoting.1.nextWaitingSequence.1) found rfl

@[simp] theorem promoteDueLocked_shelf (s : InMemoryJobQueueState) (now : DateTime)
    : (s.promoteDueLocked now).1.shelf = s.shelf :=
  promoteDueJobs_shelf _ (s, 0)

-----------------------------------------------------------------------------------------
-- Removal, retention and admission
-----------------------------------------------------------------------------------------

theorem files_removeJobRecordLocked (s : InMemoryJobQueueState) (id : JobId)
    : Filings o s.shelf (s.removeJobRecordLocked id).1.shelf := by
  unfold removeJobRecordLocked
  split
  · exact .refl
  · refine .single ?_
    simp only [forgetReleasedDeduplicationOwnerLocked_shelf]
    have left : Filing o s.shelf (s.shelf.leave id) := .left
    convert left using 1
    ext1
    · funext other
      simp only [shelf, Shelf.leave, JobMap.containsKey, JobMap.get_remove, Function.update_apply]
      split
      · rfl
      · rfl
    · funext other
      simp only [shelf, Shelf.leave, Function.update_apply]
      split
      · next same => rw [same, AList.lookup_erase]
      · next different => rw [AList.lookup_erase_ne different]

/-- Removals in a row, by induction on the ids. -/
theorem files_removeJobRecords (s : InMemoryJobQueueState) (ids : List JobId)
    : Filings o s.shelf (s.removeJobRecords ids).shelf := by
  induction ids generalizing s with
  | nil => exact .refl
  | cons id rest ih => exact (files_removeJobRecordLocked s id).trans (ih _)

theorem files_applyFinishedRetentionLocked (s : InMemoryJobQueueState) (state : JobState)
    (retention : JobRetention) (now : DateTime)
    : Filings o s.shelf (s.applyFinishedRetentionLocked state retention now).shelf := by
  unfold applyFinishedRetentionLocked
  cases retention.age <;> cases retention.count
  · exact .refl
  · exact files_removeJobRecords s _
  · exact files_removeJobRecords s _
  · exact (files_removeJobRecords s _).trans (files_removeJobRecords _ _)

/-- The removal or the retention of a finished job. -/
theorem files_removalOrRetention (s : InMemoryJobQueueState) (immediately : Bool) (id : JobId)
    (retention : Option JobRetention) (state : JobState) (now : DateTime)
    : Filings o s.shelf
        (if immediately then
          (s.removeJobRecordLocked id).1
        else
          match retention with
          | none => s
          | some retention => s.applyFinishedRetentionLocked state retention now).shelf := by
  split
  · exact files_removeJobRecordLocked s id
  · split
    · exact .refl
    · exact files_applyFinishedRetentionLocked s state _ now

theorem files_insertCreated (enters : o.enters job.id)
    : Filings o s.shelf (s.insertCreated job now).1.shelf := by
  refine .single ?_
  unfold insertCreated assignWaitingOrder
  simp only [emitJobCreatedEventsLocked, emitEventLocked_shelf]
  split
  · rw [shelf_setJob, nextWaitingSequence_shelf, forgetReleasedDeduplicationOwnerLocked_shelf]
    exact .entered enters
  · rw [shelf_setJob, forgetReleasedDeduplicationOwnerLocked_shelf]
    exact .entered enters

theorem files_insertSequenced (enters : o.enters job.id)
    : Filings o s.shelf (s.insertSequenced job now).1.shelf := by
  rw [insertSequenced_eq_insertCreated]
  exact files_insertCreated enters

/-- Admissions in a row, by induction on the records. -/
theorem files_insertAllCreated (s : InMemoryJobQueueState) {jobs : List Job}
    (enters : ∀ job ∈ jobs, o.enters job.id)
    : Filings o s.shelf (s.insertAllCreated now jobs).1.shelf := by
  induction jobs generalizing s with
  | nil => exact .refl
  | cons job rest ih =>
      have first : Filings o s.shelf (s.insertCreated job now).1.shelf :=
        files_insertCreated (enters job List.mem_cons_self)
      exact first.trans (ih _ (fun other member => enters other (List.mem_cons_of_mem _ member)))

-----------------------------------------------------------------------------------------
-- The side index
-----------------------------------------------------------------------------------------

theorem shelf_updateIndex (s : InMemoryJobQueueState) (parentId : JobId)
    (update : InMemoryFlowDependencyIndex → InMemoryFlowDependencyIndex)
    : (s.updateIndex parentId update).shelf
      = s.shelf.put parentId (some (update ((s.shelf.filed parentId).getD {}))) := by
  ext1
  · rfl
  · funext id
    simp only [shelf, updateIndex, Shelf.put, Function.update_apply]
    split
    · next same => rw [same, AList.lookup_insert]
    · next different => rw [AList.lookup_insert_ne different]

/-- Clearing takes the child out of the parent's index, if the parent has one. -/
theorem shelf_clearChildDependencySideIndexLocked (s : InMemoryJobQueueState)
    (parentId childId : JobId)
    : (s.clearChildDependencySideIndexLocked parentId childId).1.shelf
      = match s.shelf.filed parentId with
        | none => s.shelf
        | some index => s.shelf.put parentId (index.clear childId).kept := by
  have written (index : InMemoryFlowDependencyIndex)
      : (if index.isEmpty = true then
          { s with flowDependencies := s.flowDependencies.erase parentId }
        else
          { s with flowDependencies := s.flowDependencies.insert parentId index }).shelf
        = s.shelf.put parentId index.kept := by
    unfold InMemoryFlowDependencyIndex.kept
    by_cases empty : index.isEmpty = true
    · rw [if_pos empty, if_pos empty]
      ext1
      · rfl
      · funext id
        simp only [shelf, Shelf.put, Function.update_apply]
        split
        · next same => rw [same, AList.lookup_erase]
        · next different => rw [AList.lookup_erase_ne different]
    · rw [if_neg empty, if_neg empty]
      ext1
      · rfl
      · funext id
        simp only [shelf, Shelf.put, Function.update_apply]
        split
        · next same => rw [same, AList.lookup_insert]
        · next different => rw [AList.lookup_insert_ne different]
  have filed : s.shelf.filed parentId = s.flowDependencies.lookup parentId := rfl
  rw [filed]
  unfold clearChildDependencySideIndexLocked
  cases s.flowDependencies.lookup parentId with
  | none => rfl
  | some index =>
      refine Eq.trans ?_ (written (index.clear childId))
      unfold InMemoryFlowDependencyIndex.clear
      simp only
      split
      · simp only
        split <;> rfl
      · split
        · simp only
          split <;> rfl
        · simp only
          split <;> rfl

/-- A finished child that reports to its parent files what its policy says. -/
theorem files_recordTerminalChildDependencyLocked {child : Job}
    (reports : o.reports parentId child)
    : Filings o s.shelf (s.recordTerminalChildDependencyLocked parentId child).shelf := by
  unfold recordTerminalChildDependencyLocked
  split
  · exact .refl
  · split
    · exact .refl
    · split
      · next state =>
          refine .single ?_
          unfold recordCompletedChildDependencyLocked
          rw [shelf_updateIndex]
          have result : child.filedResult = some (.processed (child.returnValue.getD .null)) := by
            unfold Job.filedResult
            rw [state]
          exact .filed reports result
      · next state =>
          split
          · next ignores =>
              refine .single ?_
              unfold recordIgnoredChildDependencyLocked
              rw [shelf_updateIndex]
              have result : child.filedResult = some (.ignored (child.failedReason.getD "")) := by
                unfold Job.filedResult
                rw [state]
                simp only [if_pos ignores]
              exact .filed reports result
          · next reported =>
              split
              · next fails =>
                  refine .single ?_
                  unfold recordFailedChildDependencyLocked
                  rw [shelf_updateIndex]
                  have result : child.filedResult = some .failed := by
                    unfold Job.filedResult
                    rw [state]
                    simp only [if_neg reported, if_pos fails]
                  exact .filed reports result
              · next spares =>
                  split
                  · next removes =>
                      rw [shelf_clearChildDependencySideIndexLocked]
                      split
                      · exact .refl
                      · next index found =>
                          refine .single (.dropped found reports ?_)
                          simp only [Bool.or_eq_true, not_or, Bool.not_eq_true] at reported spares
                          simp [failurePolicy, childFailureReleasesDependency, reported, spares,
                            removes]
                  · exact .refl
      · exact .refl

theorem files_clearChildDependencySideIndexLocked (clears : o.clears parentId childId)
    : Filings o s.shelf (s.clearChildDependencySideIndexLocked parentId childId).1.shelf := by
  rw [shelf_clearChildDependencySideIndexLocked]
  split
  · exact .refl
  · next index found => exact .single (.cleared found clears)

end InMemoryJobQueueState

end Lane
