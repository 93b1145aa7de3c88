import Lane.Board.Kept

/-! What the options of every stored record have in common, retained or kept as a candidate, and
that the bookkeeping under the lock takes no record with other contents in.
-/

namespace Lane

/-- A property of options that does not depend on what the queue changes in them: the id, the
delay and the place in line.
-/
structure Lasting (P : JobOptions → Prop) : Prop where
  unnamed : ∀ options, P options → P { options with jobId := none }
  delayed : ∀ options delay, P options → P { options with delay }
  ordered : ∀ options priority lifo, P options → P { options with priority, lifo }

/-- What a record carries for its caller and its worker: its options, its result, its progress. -/
structure Contents where
  options : JobOptions
  returnValue : Option Value
  progress : Option Value

def Job.contents (job : Job) : Contents :=
  { options := job.options, returnValue := job.returnValue, progress := job.progress }

/-- The contents of a record that starts with these options. -/
def JobOptions.contents (options : JobOptions) : Contents :=
  { options, returnValue := none, progress := none }

/-- A property of contents that does not depend on what the queue itself changes in them: besides
the options it takes back a result, and a record that starts over has no progress either.
-/
structure Enduring (P : Contents → Prop) : Prop where
  unnamed : ∀ c, P c → P { c with options := { c.options with jobId := none } }
  delayed : ∀ c delay, P c → P { c with options := { c.options with delay } }
  ordered : ∀ c priority lifo, P c → P { c with options := { c.options with priority, lifo } }
  withdrawn : ∀ c, P c → P { c with returnValue := none }
  restarted : ∀ c, P c → P { c with returnValue := none, progress := none }

theorem Lasting.enduring {P : JobOptions → Prop} (lasting : Lasting P)
    : Enduring (fun c => P c.options) where
  unnamed c := lasting.unnamed c.options
  delayed c := lasting.delayed c.options
  ordered c := lasting.ordered c.options
  withdrawn _ := id
  restarted _ := id

theorem lookup_of_insert {α : Type} {table : HashMap String α} {key other : String}
    {value found : α} (known : (table.insert key value).lookup other = some found)
    : found = value ∨ table.lookup other = some found := by
  by_cases same : other = key
  · subst same
    rw [AList.lookup_insert] at known
    exact .inl (Option.some.inj known).symm
  · rw [AList.lookup_insert_ne same] at known
    exact .inr known

theorem lookup_of_erase {α : Type} {table : HashMap String α} {key other : String} {found : α}
    (known : (table.erase key).lookup other = some found)
    : table.lookup other = some found := by
  by_cases same : other = key
  · subst same
    rw [AList.lookup_erase] at known
    cases known
  · rw [AList.lookup_erase_ne same] at known
    exact known

namespace InMemoryJobQueueState

/-- The options of every record have the property. -/
structure Stocked (P : JobOptions → Prop) (s : InMemoryJobQueueState) : Prop where
  retained : ∀ {id job}, s.jobs.get id = some job → P job.options
  next : ∀ {id job}, s.deduplicationNext.lookup id = some job → P job.options
  nextParent : ∀ {id flow}, s.deduplicationNextFlows.lookup id = some flow → P flow.parent.options
  nextChild
    : ∀ {id flow},
        s.deduplicationNextFlows.lookup id = some flow → ∀ child ∈ flow.children, P child.options

/-- The contents of every record have the property. -/
structure Stores (P : Contents → Prop) (s : InMemoryJobQueueState) : Prop where
  retained : ∀ {id job}, s.jobs.get id = some job → P job.contents
  next : ∀ {id job}, s.deduplicationNext.lookup id = some job → P job.contents
  nextParent : ∀ {id flow}, s.deduplicationNextFlows.lookup id = some flow → P flow.parent.contents
  nextChild
    : ∀ {id flow},
        s.deduplicationNextFlows.lookup id = some flow → ∀ child ∈ flow.children, P child.contents

variable {P : Contents → Prop} {s t : InMemoryJobQueueState} {job old : Job} {id : JobId}
  {now : DateTime}

namespace Stores

theorem empty : Stores P {} := by
  constructor <;> intro id record found <;> simp at found

/-- States with the same tables hold the same records. -/
theorem of_tables (stores : s.Stores P) (same : t.tables = s.tables) : t.Stores P := by
  simp only [tables, Prod.mk.injEq] at same
  obtain ⟨jobs, next, flows, _⟩ := same
  constructor
  · rw [jobs]
    exact stores.retained
  · rw [next]
    exact stores.next
  · rw [flows]
    exact stores.nextParent
  · rw [flows]
    exact stores.nextChild

theorem setJob (stores : s.Stores P) (contents : P job.contents) : (s.setJob job).Stores P := by
  constructor
  · intro id found known
    simp only [InMemoryJobQueueState.setJob, JobMap.get_insert] at known
    split at known
    · obtain rfl := Option.some.inj known
      exact contents
    · exact stores.retained known
  · exact stores.next
  · exact stores.nextParent
  · exact stores.nextChild

/-- An update of a retained record keeps its contents. -/
theorem update (stores : s.Stores P) (found : s.jobs.get id = some old)
    (same : job.contents = old.contents)
    : (s.setJob job).Stores P := by
  refine stores.setJob ?_
  rw [same]
  exact stores.retained found

-----------------------------------------------------------------------------------------
-- Removal and retention
-----------------------------------------------------------------------------------------

theorem forgetReleasedDeduplicationOwnerLocked (stores : s.Stores P) (job : Job)
    : (s.forgetReleasedDeduplicationOwnerLocked job).Stores P := by
  unfold InMemoryJobQueueState.forgetReleasedDeduplicationOwnerLocked
  split
  · exact stores
  · exact ⟨stores.retained, stores.next, stores.nextParent, stores.nextChild⟩

/-- A removed record had the property, and the others still do. -/
theorem removeJobRecordLocked (stores : s.Stores P) (id : JobId)
    : (s.removeJobRecordLocked id).1.Stores P := by
  unfold InMemoryJobQueueState.removeJobRecordLocked
  split
  · exact stores
  · refine forgetReleasedDeduplicationOwnerLocked ?_ _
    refine ⟨?_, stores.next, stores.nextParent, stores.nextChild⟩
    intro other found known
    simp only [JobMap.get_remove] at known
    split at known
    · cases known
    · exact stores.retained known

/-- Removals in a row, by induction on the ids. -/
theorem removeJobRecords (stores : s.Stores P) (ids : List JobId)
    : (s.removeJobRecords ids).Stores P := by
  induction ids generalizing s with
  | nil => exact stores
  | cons id rest ih => exact ih (stores.removeJobRecordLocked id)

theorem applyFinishedRetentionLocked (stores : s.Stores P) (state : JobState)
    (retention : JobRetention) (now : DateTime)
    : (s.applyFinishedRetentionLocked state retention now).Stores P := by
  unfold InMemoryJobQueueState.applyFinishedRetentionLocked
  cases retention.age <;> cases retention.count
  · exact stores
  · exact stores.removeJobRecords _
  · exact stores.removeJobRecords _
  · exact (stores.removeJobRecords _).removeJobRecords _

/-- The removal or the retention of a finished job. -/
theorem removalOrRetention (stores : s.Stores P) (immediately : Bool) (id : JobId)
    (retention : Option JobRetention) (state : JobState) (now : DateTime)
    : (if immediately then
        (s.removeJobRecordLocked id).1
      else
        match retention with
        | none => s
        | some retention => s.applyFinishedRetentionLocked state retention now).Stores P := by
  split
  · exact stores.removeJobRecordLocked id
  · split
    · exact stores
    · exact stores.applyFinishedRetentionLocked _ _ _

-----------------------------------------------------------------------------------------
-- Candidates
-----------------------------------------------------------------------------------------

/-- A candidate leaves the table. -/
theorem dropNext (stores : s.Stores P) (key : String)
    : ({ s with deduplicationNext := s.deduplicationNext.erase key }
        : InMemoryJobQueueState).Stores P := by
  refine ⟨stores.retained, ?_, stores.nextParent, stores.nextChild⟩
  exact fun found => stores.next (lookup_of_erase found)

theorem dropNextFlow (stores : s.Stores P) (key : String)
    : ({ s with deduplicationNextFlows := s.deduplicationNextFlows.erase key }
        : InMemoryJobQueueState).Stores P := by
  refine ⟨stores.retained, stores.next, ?_, ?_⟩
  · exact fun found => stores.nextParent (lookup_of_erase found)
  · exact fun found => stores.nextChild (lookup_of_erase found)

theorem clearOwnerExpiration (stores : s.Stores P) (id : JobId)
    : (s.clearOwnerExpiration id).Stores P := by
  unfold InMemoryJobQueueState.clearOwnerExpiration
  split
  · exact stores
  · next owner found => exact stores.update found rfl

/-- A kept candidate replaces what was kept under its deduplication id. -/
theorem storeDeduplicatedNextLocked (stores : s.Stores P) {candidate : Job}
    (contents : P candidate.contents) (existing : Job)
    : (s.storeDeduplicatedNextLocked candidate existing).1.Stores P := by
  unfold InMemoryJobQueueState.storeDeduplicatedNextLocked
  split
  · exact stores
  · split
    · exact stores
    · simp only
      refine clearOwnerExpiration ?_ _
      refine ⟨stores.retained, ?_, ?_, ?_⟩
      · intro other found known
        rcases lookup_of_insert known with rfl | known
        · exact contents
        · exact stores.next known
      · exact fun known => stores.nextParent (lookup_of_erase known)
      · exact fun known => stores.nextChild (lookup_of_erase known)

theorem storeDeduplicatedNextFlowLocked (stores : s.Stores P) {candidate : JobFlow}
    (parent : P candidate.parent.contents) (children : ∀ child ∈ candidate.children, P child.contents)
    (existing : Job)
    : (s.storeDeduplicatedNextFlowLocked candidate existing).1.Stores P := by
  unfold InMemoryJobQueueState.storeDeduplicatedNextFlowLocked
  split
  · exact stores
  · split
    · exact stores
    · simp only
      refine clearOwnerExpiration ?_ _
      refine ⟨stores.retained, ?_, ?_, ?_⟩
      · exact fun known => stores.next (lookup_of_erase known)
      · intro other found known
        rcases lookup_of_insert known with rfl | known
        · exact parent
        · exact stores.nextParent known
      · intro other found known
        rcases lookup_of_insert known with rfl | known
        · exact children
        · exact stores.nextChild known

theorem extendDeduplicationExpirationLocked (stores : s.Stores P) (candidate : Job)
    (id : JobId) (now : DateTime)
    : (s.extendDeduplicationExpirationLocked candidate id now).1.Stores P := by
  unfold InMemoryJobQueueState.extendDeduplicationExpirationLocked
  split
  · exact stores
  · split
    · exact stores
    · next existing found => exact stores.update found rfl

-----------------------------------------------------------------------------------------
-- Admission
-----------------------------------------------------------------------------------------

theorem insertCreated (stores : s.Stores P) (contents : P job.contents) (now : DateTime)
    : (s.insertCreated job now).1.Stores P := by
  unfold InMemoryJobQueueState.insertCreated
  obtain ⟨enqueuedSeq, drawn, tables⟩ :=
    assignWaitingOrder_eq (s.forgetReleasedDeduplicationOwnerLocked job) job
  refine of_tables ?_ (emitJobCreatedEventsLocked_tables _ _ _)
  refine setJob ((stores.forgetReleasedDeduplicationOwnerLocked job).of_tables tables) ?_
  rw [drawn]
  exact contents

theorem insertSequenced (stores : s.Stores P) (contents : P job.contents) (now : DateTime)
    : (s.insertSequenced job now).1.Stores P := by
  rw [insertSequenced_eq_insertCreated]
  exact stores.insertCreated contents now

/-- Admissions in a row, by induction on the jobs. -/
theorem insertAllCreated (stores : s.Stores P) (now : DateTime) (jobs : List Job)
    (contents : ∀ job ∈ jobs, P job.contents)
    : (s.insertAllCreated now jobs).1.Stores P := by
  induction jobs generalizing s with
  | nil => exact stores
  | cons job rest ih =>
      have first := stores.insertCreated (contents job List.mem_cons_self) now
      exact ih first (fun later within => contents later (.tail _ within))

theorem pushChildId (stores : s.Stores P) (parentId childId : JobId)
    : (s.pushChildId parentId childId).Stores P := by
  unfold InMemoryJobQueueState.pushChildId
  split
  · exact stores
  · next parent found =>
      split
      · exact stores
      · exact stores.update found rfl

/-- A kept candidate is enqueued under its own options, with neither a result nor progress. -/
theorem contents_nextKeepLastJob (owner candidate : Job) (count : Option Nat) (now : DateTime)
    : (nextKeepLastJob owner candidate count now).contents
      = { candidate.contents with returnValue := none, progress := none } := by
  unfold nextKeepLastJob
  split <;> rfl

theorem enqueueDeduplicatedNextLocked (stores : s.Stores P) (enduring : Enduring P) (owner : Job)
    (now : DateTime)
    : (s.enqueueDeduplicatedNextLocked owner now).1.Stores P := by
  unfold InMemoryJobQueueState.enqueueDeduplicatedNextLocked
  split
  · exact stores
  next deduplicationId _ =>
    split
    · exact stores
    · next candidate known =>
        have dropped := stores.dropNext deduplicationId
        simp only
        split
        · exact dropped
        · next count _ =>
            have contents : P (nextKeepLastJob owner candidate count now).contents := by
              rw [contents_nextKeepLastJob]
              exact enduring.restarted _ (stores.next known)
            split
            · exact dropped
            · refine insertCreated ?_ contents now
              split
              · exact dropped
              · exact dropped.pushChildId _ _

theorem enqueueDeduplicatedNextFlowLocked (stores : s.Stores P) (enduring : Enduring P)
    (owner : Job) (now : DateTime)
    : (s.enqueueDeduplicatedNextFlowLocked owner now).1.Stores P := by
  unfold InMemoryJobQueueState.enqueueDeduplicatedNextFlowLocked
  split
  · exact stores
  next deduplicationId _ =>
    split
    · exact stores
    · next flow known =>
        have dropped := stores.dropNextFlow deduplicationId
        simp only
        split
        · exact dropped
        · refine insertAllCreated (insertCreated dropped ?_ now) now _ ?_
          · unfold prepareDeduplicatedNextFlow
            simp only
            split <;> exact enduring.restarted _ (stores.nextParent known)
          · intro child within
            obtain ⟨kept, member, rfl⟩ := List.mem_map.mp within
            exact enduring.restarted _ (stores.nextChild known kept member)

-----------------------------------------------------------------------------------------
-- Flow parents
-----------------------------------------------------------------------------------------

/-- A scheduled parent keeps its options. -/
theorem scheduleParent (stores : s.Stores P) {parent : Job} (contents : P parent.contents)
    (deferredFailure : Option String) (prev : JobState) (now : DateTime)
    : (s.scheduleParent parent deferredFailure prev now).1.Stores P := by
  unfold InMemoryJobQueueState.scheduleParent
  simp only
  refine of_tables ?_ (emitEventLocked_tables _ _ _ _ _ _)
  split
  · exact (stores.of_tables (nextWaitingSequence_tables s)).setJob contents
  · exact stores.setJob contents

theorem deferParentFailureAfterChildFailureLocked (stores : s.Stores P)
    (parentId childId : JobId) (now : DateTime)
    : (s.deferParentFailureAfterChildFailureLocked parentId childId now).1.Stores P := by
  unfold InMemoryJobQueueState.deferParentFailureAfterChildFailureLocked
  split
  · exact stores
  · next parent found =>
      split
      · exact stores
      · exact stores.scheduleParent (stores.retained found) _ _ _

theorem continueParentAfterChildFailureLocked (stores : s.Stores P) (parentId : JobId)
    (now : DateTime)
    : (s.continueParentAfterChildFailureLocked parentId now).1.Stores P := by
  unfold InMemoryJobQueueState.continueParentAfterChildFailureLocked
  split
  · exact stores
  · next parent found =>
      split
      · exact stores
      · exact stores.scheduleParent (stores.retained found) _ _ _

theorem failWaitingParentLocked (stores : s.Stores P) (parentId : JobId) (reason : String)
    (now : DateTime)
    : (s.failWaitingParentLocked parentId reason now).1.Stores P := by
  unfold InMemoryJobQueueState.failWaitingParentLocked
  split
  · exact stores
  · next parent found =>
      split
      · exact stores
      · refine of_tables ?_ (emitEventLocked_tables _ _ _ _ _ _)
        have failed : (s.setJob (failedParent parent reason now)).Stores P :=
          stores.update found rfl
        exact failed.removalOrRetention _ _ _ _ _

theorem releaseParentIfReadyLocked (stores : s.Stores P) (parentId : JobId) (now : DateTime)
    : (s.releaseParentIfReadyLocked parentId now).1.Stores P := by
  unfold InMemoryJobQueueState.releaseParentIfReadyLocked
  split
  · exact stores
  · next parent found =>
      split
      · exact stores
      · split
        · exact stores
        · exact stores.deferParentFailureAfterChildFailureLocked _ _ _
        · exact stores.failWaitingParentLocked _ _ _
        · exact stores.scheduleParent (stores.retained found) _ _ _

theorem restoreParentDependencyAfterChildRetryLocked (stores : s.Stores P)
    (parentId childId : JobId) (now : DateTime)
    : (s.restoreParentDependencyAfterChildRetryLocked parentId childId now).1.Stores P := by
  unfold InMemoryJobQueueState.restoreParentDependencyAfterChildRetryLocked
  split
  · exact stores
  · next parent found =>
      split
      · exact stores
      · split
        · exact stores
        · have cleared := stores.of_tables
            (clearChildDependencySideIndexLocked_tables s parentId childId)
          have contents : P (unleasedParent parent .waitingChildren).contents := by
            have kept : P parent.contents := stores.retained found
            exact kept
          have parked := cleared.setJob contents
          simp only
          split
          · exact parked.of_tables (emitEventLocked_tables _ _ _ _ _ _)
          · exact parked

-----------------------------------------------------------------------------------------
-- Due jobs
-----------------------------------------------------------------------------------------

theorem promoteDueJob (stores : s.Stores P) (now : DateTime) (count : Nat) (due : Job)
    : (InMemoryJobQueueState.promoteDueJob now (s, count) due).1.Stores P := by
  unfold InMemoryJobQueueState.promoteDueJob
  simp only
  have drawn := stores.of_tables (nextWaitingSequence_tables s)
  split
  · exact drawn
  · next job found =>
      refine of_tables ?_ (emitEventLocked_tables _ _ _ _ _ _)
      exact drawn.update found rfl

/-- Promotions in a row, by induction on the due jobs. -/
theorem promoteDueLocked (stores : s.Stores P) (now : DateTime)
    : (s.promoteDueLocked now).1.Stores P := by
  have promoted (due : List Job)
      : ∀ (s : InMemoryJobQueueState) (count : Nat), s.Stores P →
          (due.foldl (InMemoryJobQueueState.promoteDueJob now) (s, count)).1.Stores P := by
    induction due with
    | nil => exact fun _ _ stores => stores
    | cons job rest ih =>
        intro s count stores
        exact ih _ _ (stores.promoteDueJob now count job)
  exact promoted _ s 0 stores

end Stores

end InMemoryJobQueueState

end Lane
