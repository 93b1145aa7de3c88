import Lane.Filing.Disjoint
import Lane.Job.Dependencies

/-! The items of a flow parent: an item of each listed child, from the side index or else from
its record, and then the recorded children that are not listed. A child has one item at most.
-/

namespace Lane

namespace JobFlowDependencyPageItem

/-- The bucket of an item. -/
def kind : JobFlowDependencyPageItem → JobFlowDependencyKind
  | .processed .. => .processed
  | .unprocessed .. => .unprocessed
  | .ignored .. => .ignored
  | .failed .. => .failed

end JobFlowDependencyPageItem

/-- The item of a retained child. -/
def Job.dependencyItem (child : Job) : Option JobFlowDependencyPageItem :=
  match child.state with
  | .completed => child.returnValue.map (.processed child.id)
  | .failed =>
      if child.options.ignoreDependencyOnFailure || child.options.continueParentOnFailure then
        some (.ignored child.id (child.failedReason.getD ""))
      else if child.options.removeDependencyOnFailure then
        none
      else
        some (.failed child.id)
  | _ => some (.unprocessed child.id)

namespace InMemoryFlowDependencyIndex

/-- The item of a recorded child, from the first bucket that has it. -/
def item (index : InMemoryFlowDependencyIndex) (childId : JobId)
    : Option JobFlowDependencyPageItem :=
  match index.processed.lookup childId with
  | some value => some (.processed childId value)
  | none =>
      match index.ignored.lookup childId with
      | some failedReason => some (.ignored childId failedReason)
      | none => if childId ∈ index.failed then some (.failed childId) else none

/-- All items of an index, bucket by bucket. -/
def items (index : InMemoryFlowDependencyIndex) : List JobFlowDependencyPageItem :=
  (orderedEntries index.processed).map (fun entry => .processed entry.1 entry.2)
    ++ (orderedEntries index.ignored).map (fun entry => .ignored entry.1 entry.2)
    ++ (index.failed.sort (· ≤ ·)).map .failed

end InMemoryFlowDependencyIndex

/-- The item of a listed child: the side index counts before the record. -/
def listedItem (jobs : JobMap) (index : Option InMemoryFlowDependencyIndex) (childId : JobId)
    : Option JobFlowDependencyPageItem :=
  (index.bind (·.item childId)).or ((jobs.get childId).bind Job.dependencyItem)

/-- The items of a parent. -/
def dependencyItems (parent : Job) (jobs : JobMap) (index : Option InMemoryFlowDependencyIndex)
    : List JobFlowDependencyPageItem :=
  parent.childIds.filterMap (listedItem jobs index)
    ++ (index.elim [] InMemoryFlowDependencyIndex.items).filter
        (fun item => item.childId ∉ parent.childIds)

variable {index : InMemoryFlowDependencyIndex} {child : Job} {jobs : JobMap} {childId : JobId}
  {item : JobFlowDependencyPageItem} {kind : JobFlowDependencyKind}

-----------------------------------------------------------------------------------------
-- The items of records and indexes
-----------------------------------------------------------------------------------------

theorem Job.dependencyItem_childId (same : child.dependencyItem = some item)
    : item.childId = child.id := by
  unfold Job.dependencyItem at same
  split at same
  · obtain ⟨value, _, rfl⟩ := Option.map_eq_some_iff.mp same
    rfl
  · split at same
    · obtain rfl := Option.some.inj same
      rfl
    · split at same
      · cases same
      · obtain rfl := Option.some.inj same
        rfl
  · obtain rfl := Option.some.inj same
    rfl

theorem InMemoryFlowDependencyIndex.item_childId (same : index.item childId = some item)
    : item.childId = childId := by
  unfold InMemoryFlowDependencyIndex.item at same
  split at same
  · obtain rfl := Option.some.inj same
    rfl
  · split at same
    · obtain rfl := Option.some.inj same
      rfl
    · split at same
      · obtain rfl := Option.some.inj same
        rfl
      · cases same

theorem flowDependencyIndexContains_eq (index : Option InMemoryFlowDependencyIndex)
    (childId : JobId)
    : flowDependencyIndexContains index childId = (index.bind (·.item childId)).isSome := by
  cases index with
  | none => rfl
  | some index =>
      simp only [flowDependencyIndexContains, Option.any_some, Option.bind_some,
        InMemoryFlowDependencyIndex.item]
      cases index.processed.lookup childId with
      | some value => simp
      | none =>
          cases index.ignored.lookup childId with
          | some failedReason => simp
          | none =>
              by_cases failed : childId ∈ index.failed
              · simp [failed]
              · simp [failed]

theorem orderedEntries_perm {α : Type} (map : HashMap JobId α)
    : (orderedEntries map).Perm (map.entries.map (fun entry => (entry.1, entry.2))) :=
  List.perm_insertionSort _ _

theorem mem_orderedEntries {α : Type} {map : HashMap JobId α} {value : α}
    : (childId, value) ∈ orderedEntries map ↔ map.lookup childId = some value := by
  rw [(orderedEntries_perm map).mem_iff, List.mem_map]
  constructor
  · rintro ⟨⟨key, found⟩, member, same⟩
    obtain ⟨rfl, rfl⟩ := Prod.mk.inj same
    exact AList.mem_lookup_iff.mpr member
  · intro found
    exact ⟨⟨childId, value⟩, AList.mem_lookup_iff.mp found, rfl⟩

/-- The keys of the ordered entries are the keys of the map. -/
theorem orderedEntries_keys {α : Type} (map : HashMap JobId α)
    : ((orderedEntries map).map Prod.fst).Perm map.keys := by
  refine ((orderedEntries_perm map).map Prod.fst).trans (List.Perm.of_eq ?_)
  simp only [List.map_map, AList.keys, List.keys]
  rfl

namespace InMemoryFlowDependencyIndex

/-- An item is in the list of a disjoint index when it is the one of its child. -/
theorem mem_items (disjoint : index.Disjoint)
    : item ∈ index.items ↔ index.item item.childId = some item := by
  unfold items InMemoryFlowDependencyIndex.item
  simp only [List.mem_append, List.mem_map, Prod.exists, Finset.mem_sort]
  constructor
  · rintro ((⟨id, value, member, rfl⟩ | ⟨id, reason, member, rfl⟩) | ⟨id, member, rfl⟩)
    · simp only [JobFlowDependencyPageItem.childId, mem_orderedEntries.mp member]
    · have found := mem_orderedEntries.mp member
      have unprocessed : index.processed.lookup id = none := by
        cases also : index.processed.lookup id with
        | none => rfl
        | some value =>
            rw [disjoint.processedIgnored id (by rw [also]; rfl)] at found
            cases found
      simp only [JobFlowDependencyPageItem.childId, unprocessed, found]
    · have unprocessed : index.processed.lookup id = none := by
        cases also : index.processed.lookup id with
        | none => rfl
        | some value => exact absurd member (disjoint.processedFailed id (by rw [also]; rfl))
      have unignored : index.ignored.lookup id = none := by
        cases also : index.ignored.lookup id with
        | none => rfl
        | some reason => exact absurd member (disjoint.ignoredFailed id (by rw [also]; rfl))
      simp only [JobFlowDependencyPageItem.childId, unprocessed, unignored]
      exact if_pos member
  · intro same
    split at same
    · next value found =>
        obtain same := Option.some.inj same
        exact .inl (.inl ⟨_, value, mem_orderedEntries.mpr found, same⟩)
    · split at same
      · next reason found =>
          obtain same := Option.some.inj same
          exact .inl (.inr ⟨_, reason, mem_orderedEntries.mpr found, same⟩)
      · split at same
        · next member =>
            obtain same := Option.some.inj same
            exact .inr ⟨_, member, same⟩
        · cases same

/-- The bucket of the index with the kind of an item. -/
theorem indexed_eq (disjoint : index.Disjoint)
    : indexedFlowDependencyPageItem (some index) childId kind
      = (index.item childId).filter (fun item => item.kind = kind) := by
  have processedIgnored := disjoint.processedIgnored childId
  have processedFailed := disjoint.processedFailed childId
  have ignoredFailed := disjoint.ignoredFailed childId
  simp only [indexedFlowDependencyPageItem, Option.bind_some, InMemoryFlowDependencyIndex.item]
  cases processed : index.processed.lookup childId with
  | some value =>
      simp only [processed, Option.isSome_some, forall_const] at processedIgnored processedFailed
      cases kind <;>
        simp [processedIgnored, processedFailed, JobFlowDependencyPageItem.kind, Option.filter]
  | none =>
      cases ignored : index.ignored.lookup childId with
      | some reason =>
          simp only [ignored, Option.isSome_some, forall_const] at ignoredFailed
          cases kind <;> simp [ignoredFailed, JobFlowDependencyPageItem.kind, Option.filter]
      | none =>
          by_cases failed : childId ∈ index.failed
          · cases kind <;> simp [failed, JobFlowDependencyPageItem.kind, Option.filter]
          · cases kind <;> simp [failed]

/-- A disjoint index has one item of a child. -/
theorem items_nodup (disjoint : index.Disjoint)
    : (index.items.map JobFlowDependencyPageItem.childId).Nodup := by
  have keys {α : Type} (map : HashMap JobId α) : ((orderedEntries map).map Prod.fst).Nodup :=
    (orderedEntries_keys map).nodup_iff.mpr map.keys_nodup
  have single
      : ∀ left ∈ index.items, ∀ right ∈ index.items, left.childId = right.childId → left = right := by
    intro left leftMember right rightMember same
    have known := (mem_items disjoint).mp leftMember
    rw [same, (mem_items disjoint).mp rightMember] at known
    exact (Option.some.inj known).symm
  refine List.Nodup.map_on single ?_
  unfold items
  refine List.Nodup.append (List.Nodup.append ?_ ?_ ?_) ?_ ?_
  · refine List.Nodup.map ?_ (keys index.processed).of_map
    rintro ⟨id, value⟩ ⟨other, found⟩ same
    obtain ⟨rfl, rfl⟩ := JobFlowDependencyPageItem.processed.inj same
    rfl
  · refine List.Nodup.map ?_ (keys index.ignored).of_map
    rintro ⟨id, value⟩ ⟨other, found⟩ same
    obtain ⟨rfl, rfl⟩ := JobFlowDependencyPageItem.ignored.inj same
    rfl
  · rintro item processed ignored
    obtain ⟨_, _, rfl⟩ := List.mem_map.mp processed
    obtain ⟨_, _, same⟩ := List.mem_map.mp ignored
    cases same
  · exact List.Nodup.map (fun _ _ same => JobFlowDependencyPageItem.failed.inj same)
      (Finset.sort_nodup _ _)
  · rintro item recorded failed
    obtain ⟨_, _, rfl⟩ := List.mem_map.mp failed
    rcases List.mem_append.mp recorded with member | member
    · obtain ⟨_, _, same⟩ := List.mem_map.mp member
      cases same
    · obtain ⟨_, _, same⟩ := List.mem_map.mp member
      cases same

end InMemoryFlowDependencyIndex

/-- The bucket of a record with the kind of its item. -/
theorem retained_eq
    : retainedFlowDependencyPageItem child kind
      = child.dependencyItem.filter (fun item => item.kind = kind) := by
  unfold retainedFlowDependencyPageItem Job.dependencyItem
  cases child.state with
  | completed =>
      cases child.returnValue <;> cases kind <;>
        simp [JobState.isTerminal, JobFlowDependencyPageItem.kind, Option.filter]
  | failed =>
      cases child.options.ignoreDependencyOnFailure <;>
        cases child.options.continueParentOnFailure <;>
        cases child.options.removeDependencyOnFailure <;> cases kind <;>
        simp [JobState.isTerminal, JobFlowDependencyPageItem.kind, Option.filter]
  | waiting | delayed | active | waitingChildren =>
      cases kind <;> simp [JobState.isTerminal, JobFlowDependencyPageItem.kind, Option.filter]

-----------------------------------------------------------------------------------------
-- Recorded and retained children
-----------------------------------------------------------------------------------------

/-- The item of a child that the side index does not record. -/
def unrecordedItem (jobs : JobMap) (index : Option InMemoryFlowDependencyIndex)
    (childId : JobId)
    : Option JobFlowDependencyPageItem :=
  if flowDependencyIndexContains index childId then
    none
  else
    (jobs.get childId).bind Job.dependencyItem

theorem unrecordedItem_childId {index : Option InMemoryFlowDependencyIndex}
    (same : unrecordedItem jobs index childId = some item)
    : item.childId = childId := by
  unfold unrecordedItem at same
  split at same
  · cases same
  · obtain ⟨child, found, same⟩ := Option.bind_eq_some_iff.mp same
    exact (Job.dependencyItem_childId same).trans (JobMap.get_id found)

theorem listedItem_eq (jobs : JobMap) (index : Option InMemoryFlowDependencyIndex)
    (childId : JobId)
    : listedItem jobs index childId
      = (index.bind (·.item childId)).or (unrecordedItem jobs index childId) := by
  unfold listedItem unrecordedItem
  rw [flowDependencyIndexContains_eq]
  cases index.bind (·.item childId) with
  | none => rfl
  | some item => rfl

/-- Two partial readings of a list, the first before the second, by induction on the list. -/
theorem filterMap_or_perm {α β : Type} (first second : α → Option β) (list : List α)
    (apart : ∀ a, (first a).isSome = true → second a = none)
    : (list.filterMap (fun a => (first a).or (second a))).Perm
        (list.filterMap first ++ list.filterMap second) := by
  induction list with
  | nil => exact .refl _
  | cons a rest ih =>
      cases known : first a with
      | none =>
          cases other : second a with
          | none =>
              simp only [List.filterMap_cons, known, other, Option.or_none]
              exact ih
          | some b =>
              simp only [List.filterMap_cons, known, other, Option.none_or]
              exact (ih.cons b).trans List.perm_middle.symm
      | some b =>
          have none := apart a (by rw [known]; rfl)
          simp only [List.filterMap_cons, known, none, Option.some_or]
          exact ih.cons b

/-- A reading that keeps the ids of distinct children has distinct ids. -/
theorem filterMap_childIds_nodup {childIds : List JobId}
    {read : JobId → Option JobFlowDependencyPageItem} (distinct : childIds.Nodup)
    (named : ∀ {childId item}, read childId = some item → item.childId = childId)
    : ((childIds.filterMap read).map JobFlowDependencyPageItem.childId).Nodup := by
  have within
      : ((childIds.filterMap read).map JobFlowDependencyPageItem.childId).Sublist childIds := by
    clear distinct
    induction childIds with
    | nil => exact .refl _
    | cons childId rest ih =>
        rw [List.filterMap_cons]
        split
        · exact ih.cons _
        · next item same =>
            rw [List.map_cons, named same]
            exact ih.cons_cons _
  exact distinct.sublist within

section Parent

variable {parent : Job} {index : Option InMemoryFlowDependencyIndex}

/-- The items of an optional index. -/
def indexItems (index : Option InMemoryFlowDependencyIndex) : List JobFlowDependencyPageItem :=
  index.elim [] InMemoryFlowDependencyIndex.items

theorem mem_indexItems (disjoint : ∀ found, index = some found → found.Disjoint)
    : item ∈ indexItems index ↔ index.bind (·.item item.childId) = some item := by
  cases index with
  | none => simp [indexItems]
  | some index => exact InMemoryFlowDependencyIndex.mem_items (disjoint index rfl)

theorem indexItems_nodup (disjoint : ∀ found, index = some found → found.Disjoint)
    : ((indexItems index).map JobFlowDependencyPageItem.childId).Nodup := by
  cases index with
  | none => exact List.nodup_nil
  | some index => exact InMemoryFlowDependencyIndex.items_nodup (disjoint index rfl)

/-- A parent has the items of its side index and those of its unrecorded children. -/
theorem dependencyItems_perm (disjoint : ∀ found, index = some found → found.Disjoint)
    (distinct : parent.childIds.Nodup)
    : (dependencyItems parent jobs index).Perm
        (indexItems index ++ parent.childIds.filterMap (unrecordedItem jobs index)) := by
  have listed
      : (parent.childIds.filterMap (listedItem jobs index)).Perm
          (parent.childIds.filterMap (fun childId => index.bind (·.item childId))
            ++ parent.childIds.filterMap (unrecordedItem jobs index)) := by
    rw [funext (listedItem_eq jobs index)]
    refine filterMap_or_perm _ _ _ ?_
    intro childId recorded
    rw [← flowDependencyIndexContains_eq] at recorded
    simp only [unrecordedItem, recorded, if_true]
  have recorded
      : (parent.childIds.filterMap (fun childId => index.bind (·.item childId))
          ++ (indexItems index).filter (fun item => item.childId ∉ parent.childIds)).Perm
          (indexItems index) := by
    have named {childId : JobId} {item : JobFlowDependencyPageItem}
        (same : index.bind (·.item childId) = some item)
        : item.childId = childId := by
      obtain ⟨index, _, same⟩ := Option.bind_eq_some_iff.mp same
      exact InMemoryFlowDependencyIndex.item_childId same
    have nodup := (indexItems_nodup disjoint).of_map
    refine (List.perm_ext_iff_of_nodup ?_ nodup).mpr ?_
    · refine List.Nodup.append (filterMap_childIds_nodup distinct named).of_map (nodup.filter _) ?_
      intro item first second
      obtain ⟨childId, member, same⟩ := List.mem_filterMap.mp first
      have unlisted := (List.mem_filter.mp second).2
      rw [decide_eq_true_eq, named same] at unlisted
      exact unlisted member
    · intro item
      rw [List.mem_append, List.mem_filterMap, List.mem_filter, mem_indexItems disjoint]
      constructor
      · rintro (⟨childId, _, same⟩ | ⟨same, _⟩)
        · rw [named same]
          exact same
        · exact same
      · intro same
        by_cases member : item.childId ∈ parent.childIds
        · exact .inl ⟨item.childId, member, same⟩
        · exact .inr ⟨same, decide_eq_true member⟩
  unfold dependencyItems
  refine (listed.append_right _).trans ?_
  rw [List.append_assoc]
  refine (List.Perm.append_left _ List.perm_append_comm).trans ?_
  rw [← List.append_assoc]
  exact recorded.append_right _

/-- A parent has one item of a child. -/
theorem dependencyItems_nodup (disjoint : ∀ found, index = some found → found.Disjoint)
    (distinct : parent.childIds.Nodup)
    : ((dependencyItems parent jobs index).map JobFlowDependencyPageItem.childId).Nodup := by
  rw [((dependencyItems_perm disjoint distinct).map _).nodup_iff, List.map_append]
  refine List.Nodup.append (indexItems_nodup disjoint)
    (filterMap_childIds_nodup distinct unrecordedItem_childId) ?_
  intro childId recorded unrecorded
  obtain ⟨item, member, rfl⟩ := List.mem_map.mp recorded
  obtain ⟨other, among, same⟩ := List.mem_map.mp unrecorded
  obtain ⟨id, _, read⟩ := List.mem_filterMap.mp among
  have found := (mem_indexItems disjoint).mp member
  rw [← same, unrecordedItem_childId read] at found
  unfold unrecordedItem at read
  rw [flowDependencyIndexContains_eq, found] at read
  cases read

end Parent

end Lane
