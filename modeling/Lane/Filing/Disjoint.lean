import Lane.Filing.Operations

/-! A side index records a child in one bucket at most. -/

namespace Lane

namespace InMemoryFlowDependencyIndex

/-- No child is in two buckets. -/
structure Disjoint (index : InMemoryFlowDependencyIndex) : Prop where
  processedIgnored
    : ∀ id, (index.processed.lookup id).isSome = true → index.ignored.lookup id = none
  processedFailed : ∀ id, (index.processed.lookup id).isSome = true → id ∉ index.failed
  ignoredFailed : ∀ id, (index.ignored.lookup id).isSome = true → id ∉ index.failed

variable {index : InMemoryFlowDependencyIndex} {childId : JobId}

theorem disjoint_empty : Disjoint {} where
  processedIgnored id found := by simp at found
  processedFailed id found := by simp at found
  ignoredFailed id found := by simp at found

/-- An entry that is left after an erasure was there before and has another key. -/
theorem isSome_of_erase {α : Type} {table : HashMap JobId α} {id : JobId}
    (found : ((table.erase childId).lookup id).isSome = true)
    : id ≠ childId ∧ (table.lookup id).isSome = true := by
  by_cases same : id = childId
  · subst same
    rw [AList.lookup_erase] at found
    cases found
  · rw [AList.lookup_erase_ne same] at found
    exact ⟨same, found⟩

theorem lookup_erase_of_none {α : Type} {table : HashMap JobId α} {id : JobId}
    (absent : table.lookup id = none)
    : (table.erase childId).lookup id = none := by
  by_cases same : id = childId
  · rw [same, AList.lookup_erase]
  · rw [AList.lookup_erase_ne same, absent]

/-- A smaller index is disjoint as well. -/
theorem Disjoint.mono {smaller : InMemoryFlowDependencyIndex} (disjoint : index.Disjoint)
    (processed
      : ∀ id, (smaller.processed.lookup id).isSome = true → (index.processed.lookup id).isSome = true)
    (ignored
      : ∀ id, (smaller.ignored.lookup id).isSome = true → (index.ignored.lookup id).isSome = true)
    (failed : smaller.failed ⊆ index.failed)
    : smaller.Disjoint where
  processedIgnored id found := by
    have apart := disjoint.processedIgnored id (processed id found)
    cases also : smaller.ignored.lookup id with
    | none => rfl
    | some reason =>
        have before := ignored id (by rw [also]; rfl)
        rw [apart] at before
        cases before
  processedFailed id found member := disjoint.processedFailed id (processed id found) (failed member)
  ignoredFailed id found member := disjoint.ignoredFailed id (ignored id found) (failed member)

/-- A result that is filed leaves the other buckets, by cases on the result. -/
theorem Disjoint.file (disjoint : index.Disjoint) (childId : JobId) (result : FiledResult)
    : (index.file childId result).Disjoint := by
  cases result with
  | processed value =>
      refine ⟨?_, ?_, ?_⟩
      · intro id found
        by_cases same : id = childId
        · exact same ▸ AList.lookup_erase _ _
        · simp only [InMemoryFlowDependencyIndex.file, AList.lookup_insert_ne same] at found
          exact lookup_erase_of_none (disjoint.processedIgnored id found)
      · intro id found member
        obtain ⟨different, before⟩ := Finset.mem_erase.mp member
        simp only [InMemoryFlowDependencyIndex.file, AList.lookup_insert_ne different] at found
        exact disjoint.processedFailed id found before
      · intro id found member
        obtain ⟨_, ignored⟩ := isSome_of_erase found
        exact disjoint.ignoredFailed id ignored (Finset.mem_of_mem_erase member)
  | ignored failedReason =>
      refine ⟨?_, ?_, ?_⟩
      · intro id found
        obtain ⟨different, processed⟩ := isSome_of_erase found
        simp only [InMemoryFlowDependencyIndex.file, AList.lookup_insert_ne different]
        exact disjoint.processedIgnored id processed
      · intro id found member
        obtain ⟨_, processed⟩ := isSome_of_erase found
        exact disjoint.processedFailed id processed (Finset.mem_of_mem_erase member)
      · intro id found member
        obtain ⟨different, before⟩ := Finset.mem_erase.mp member
        simp only [InMemoryFlowDependencyIndex.file, AList.lookup_insert_ne different] at found
        exact disjoint.ignoredFailed id found before
  | failed =>
      refine ⟨?_, ?_, ?_⟩
      · intro id found
        obtain ⟨_, processed⟩ := isSome_of_erase found
        exact lookup_erase_of_none (disjoint.processedIgnored id processed)
      · intro id found member
        obtain ⟨different, processed⟩ := isSome_of_erase found
        have before := (Finset.mem_insert.mp member).resolve_left different
        exact disjoint.processedFailed id processed before
      · intro id found member
        obtain ⟨different, ignored⟩ := isSome_of_erase found
        have before := (Finset.mem_insert.mp member).resolve_left different
        exact disjoint.ignoredFailed id ignored before

theorem Disjoint.clear (disjoint : index.Disjoint) (childId : JobId)
    : (index.clear childId).Disjoint := by
  unfold InMemoryFlowDependencyIndex.clear
  split
  · exact disjoint.mono (fun _ found => (isSome_of_erase found).2) (fun _ found => found) subset_rfl
  · split
    · exact disjoint.mono (fun _ found => found) (fun _ found => (isSome_of_erase found).2) subset_rfl
    · exact disjoint.mono (fun _ found => found) (fun _ found => found) (Finset.erase_subset _ _)

end InMemoryFlowDependencyIndex

namespace Shelf

variable {o : Source} {f g : Shelf} {parentId : JobId}

/-- Every side index is disjoint. -/
def Disjoint (f : Shelf) : Prop :=
  ∀ id index, f.filed id = some index → index.Disjoint

/-- An index that is written is all that changes. -/
theorem Disjoint.put {written : Option InMemoryFlowDependencyIndex} (disjoint : f.Disjoint)
    (each : ∀ index, written = some index → index.Disjoint)
    : (f.put parentId written).Disjoint := by
  intro id index found
  simp only [Shelf.put, Function.update_apply] at found
  split at found
  · exact each index found
  · exact disjoint id index found

theorem Disjoint.kept {index : InMemoryFlowDependencyIndex} (disjoint : f.Disjoint)
    (each : index.Disjoint)
    : (f.put parentId index.kept).Disjoint := by
  refine disjoint.put ?_
  intro other same
  unfold InMemoryFlowDependencyIndex.kept at same
  split at same
  · cases same
  · exact Option.some.inj same ▸ each

/-- A filing keeps the buckets apart, by cases on it. -/
theorem Disjoint.filing (disjoint : f.Disjoint) (filing : Filing o f g) : g.Disjoint := by
  cases filing with
  | entered => exact disjoint
  | left =>
      intro other index found
      simp only [Shelf.leave, Function.update_apply] at found
      split at found
      · cases found
      · exact disjoint other index found
  | emptied =>
      intro other index found
      cases found
  | @filed parentId child result =>
      refine disjoint.put ?_
      rintro _ ⟨⟩
      cases found : f.filed parentId with
      | none => exact InMemoryFlowDependencyIndex.disjoint_empty.file _ _
      | some index => exact (disjoint parentId index found).file _ _
  | dropped found => exact disjoint.kept ((disjoint _ _ found).clear _)
  | cleared found => exact disjoint.kept ((disjoint _ _ found).clear _)

end Shelf

namespace InMemoryJobQueueState

/-- A step keeps the buckets of every side index apart. -/
theorem disjoint_step (cron : Cron) (find : Find) (queue : QueueName)
    {s : InMemoryJobQueueState} (op : Op) (disjoint : s.shelf.Disjoint)
    : (step cron find queue s op).shelf.Disjoint :=
  (files_step cron find queue s op).invariant Shelf.Disjoint disjoint Shelf.Disjoint.filing

end InMemoryJobQueueState

end Lane
