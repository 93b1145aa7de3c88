import Lane.Filing.Items

/-! Every read of a parent's dependencies is a view of the parent's items. -/

namespace Lane

variable {parent child : Job} {jobs : JobMap} {index : Option InMemoryFlowDependencyIndex}
  {childId : JobId} {item : JobFlowDependencyPageItem} {kind : JobFlowDependencyKind}
  {childIds : List JobId} {items : List JobFlowDependencyPageItem}

-----------------------------------------------------------------------------------------
-- Counts
-----------------------------------------------------------------------------------------

/-- A child is counted in the bucket of its item, by cases on its state. -/
theorem count_addChild (counts : JobFlowDependencyCounts)
    (returned : child.state = .completed → child.returnValue.isSome = true)
    : (counts.addChild (some child)).count kind
      = counts.count kind
        + (child.dependencyItem.toList.filter (fun item => item.kind = kind)).length := by
  unfold JobFlowDependencyCounts.addChild Job.dependencyItem
  cases state : child.state with
  | completed =>
      obtain ⟨value, same⟩ := Option.isSome_iff_exists.mp (returned state)
      cases kind <;>
        simp [state, same, JobFlowDependencyCounts.count, JobFlowDependencyPageItem.kind]
  | failed =>
      cases ignores : child.options.ignoreDependencyOnFailure <;>
        cases continues : child.options.continueParentOnFailure <;>
        cases removes : child.options.removeDependencyOnFailure <;> cases kind <;>
        simp [state, ignores, continues, removes, JobFlowDependencyCounts.count, JobFlowDependencyPageItem.kind]
  | waiting | delayed | active | waitingChildren =>
      cases kind <;> simp [state, JobFlowDependencyCounts.count, JobFlowDependencyPageItem.kind]

/-- The index counts its own items. -/
theorem indexItems_count
    : ((indexItems index).filter (fun item => item.kind = kind)).length
      = match kind with
        | .processed => (index.map (fun index => index.processed.keys.length)).getD 0
        | .unprocessed => 0
        | .ignored => (index.map (fun index => index.ignored.keys.length)).getD 0
        | .failed => (index.map (fun index => index.failed.card)).getD 0 := by
  cases index with
  | none => cases kind <;> rfl
  | some index =>
      have entries {α : Type} (map : HashMap JobId α)
          : (orderedEntries map).length = map.keys.length := by
        rw [← (orderedEntries_keys map).length_eq, List.length_map]
      cases kind <;>
        simp [indexItems, InMemoryFlowDependencyIndex.items, List.filter_map,
          Function.comp_def, JobFlowDependencyPageItem.kind, entries]

/-- The loop counts the unrecorded children, by induction on them. -/
theorem count_foldl (counts : JobFlowDependencyCounts)
    (returned
      : ∀ id child,
          jobs.get id = some child → child.state = .completed → child.returnValue.isSome = true)
    : (childIds.foldl
        (fun counts childId =>
          if flowDependencyIndexContains index childId then
            counts
          else
            counts.addChild (jobs.get childId))
        counts).count kind
      = counts.count kind
        + ((childIds.filterMap (unrecordedItem jobs index)).filter
            (fun item => item.kind = kind)).length := by
  induction childIds generalizing counts with
  | nil => rfl
  | cons childId rest ih =>
      rw [List.foldl_cons, ih, List.filterMap_cons]
      unfold unrecordedItem
      split
      · rfl
      · cases found : jobs.get childId with
        | none => cases kind <;> rfl
        | some child =>
            rw [count_addChild counts (returned childId child found), Option.bind_some]
            cases child.dependencyItem with
            | none => rfl
            | some item =>
                simp only [Option.toList_some, List.filter_cons, List.filter_nil]
                split
                · simp only [List.length_cons, List.length_nil]
                  omega
                · rfl

/-- The counts are the sizes of the buckets of the items. -/
theorem flowDependencyCounts_count (disjoint : ∀ found, index = some found → found.Disjoint)
    (distinct : parent.childIds.Nodup)
    (returned
      : ∀ id child,
          jobs.get id = some child → child.state = .completed → child.returnValue.isSome = true)
    : (flowDependencyCounts parent jobs index).count kind
      = ((dependencyItems parent jobs index).filter (fun item => item.kind = kind)).length := by
  rw [((dependencyItems_perm disjoint distinct).filter _).length_eq, List.filter_append,
    List.length_append, indexItems_count]
  unfold flowDependencyCounts
  rw [count_foldl _ returned]
  cases kind <;> rfl

namespace JobFlowDependencySelectedCounts

theorem get_insert (counts : JobFlowDependencySelectedCounts) (inserted : JobFlowDependencyKind)
    (count : Nat)
    : (counts.insert inserted count).get kind
      = if kind = inserted then some count else counts.get kind := by
  cases inserted <;> cases kind <;> rfl

/-- A selected bucket gets its count, by induction on the selection. -/
theorem get_foldl (counts : JobFlowDependencyCounts) (kinds : List JobFlowDependencyKind)
    (selected : JobFlowDependencySelectedCounts)
    : (kinds.foldl (fun selected kind => selected.insert kind (counts.count kind)) selected).get kind
      = if kind ∈ kinds then some (counts.count kind) else selected.get kind := by
  induction kinds generalizing selected with
  | nil => rfl
  | cons first rest ih =>
      rw [List.foldl_cons, ih, get_insert]
      by_cases later : kind ∈ rest
      · simp [later]
      · by_cases same : kind = first
        · simp [same]
        · simp [later, same]

end JobFlowDependencySelectedCounts

-----------------------------------------------------------------------------------------
-- Values
-----------------------------------------------------------------------------------------

namespace JobFlowDependencyValues

/-- Adds an item to its bucket. -/
def addItem (values : JobFlowDependencyValues)
    : JobFlowDependencyPageItem → JobFlowDependencyValues
  | .processed childId value => values.addProcessed childId value
  | .unprocessed childId => { values with unprocessed := values.unprocessed ++ [childId] }
  | .ignored childId failedReason => values.addIgnored childId failedReason
  | .failed childId => values.addFailed childId

theorem addRetained_eq (values : JobFlowDependencyValues) (child : Job)
    : values.addRetained child = child.dependencyItem.elim values values.addItem := by
  unfold addRetained Job.dependencyItem
  cases child.state with
  | completed => cases child.returnValue <;> rfl
  | failed =>
      cases child.options.ignoreDependencyOnFailure <;>
        cases child.options.continueParentOnFailure <;>
        cases child.options.removeDependencyOnFailure <;> rfl
  | waiting | delayed | active | waitingChildren => rfl

/-- The child ids of a bucket. -/
def ids (values : JobFlowDependencyValues) : JobFlowDependencyKind → List JobId
  | .processed => values.processed.keys
  | .unprocessed => values.unprocessed
  | .ignored => values.ignored.keys
  | .failed => values.failed

/-- Items of new children add their entries to a table, by induction on them: `make` makes the
items that add one.
-/
theorem lookup_foldl {α : Type} (table : JobFlowDependencyValues → HashMap JobId α)
    (make : JobId → α → JobFlowDependencyPageItem)
    (named : ∀ id entry, (make id entry).childId = id)
    (exact : ∀ id left right, make id left = make id right → left = right)
    (adds
      : ∀ values item,
          (∃ id entry,
              item = make id entry
              ∧ table (values.addItem item) = (table values).insert id entry)
          ∨ (∀ id entry, item ≠ make id entry) ∧ table (values.addItem item) = table values)
    {values : JobFlowDependencyValues} {entry : α}
    (distinct : (items.map JobFlowDependencyPageItem.childId).Nodup)
    (apart : ∀ item ∈ items, (table values).lookup item.childId = none)
    : (table (items.foldl addItem values)).lookup childId = some entry
      ↔ make childId entry ∈ items ∨ (table values).lookup childId = some entry := by
  induction items generalizing values with
  | nil => simp
  | cons item rest ih =>
      rw [List.map_cons, List.nodup_cons] at distinct
      have before := apart item List.mem_cons_self
      have later (other : JobFlowDependencyPageItem) (member : other ∈ rest)
          : other.childId ≠ item.childId :=
        fun same => distinct.1 (same ▸ List.mem_map_of_mem member)
      rw [List.foldl_cons, List.mem_cons]
      rcases adds values item with ⟨id, found, rfl, written⟩ | ⟨other, kept⟩
      · rw [named] at before later
        rw [ih distinct.2, written]
        · by_cases same : childId = id
          · subst same
            have single : make childId entry = make childId found ↔ found = entry :=
              ⟨fun equal => (exact _ _ _ equal).symm, fun equal => by rw [equal]⟩
            rw [AList.lookup_insert, before, single]
            simp [or_comm]
          · have different : make childId entry ≠ make id found := by
              intro equal
              have sameId := congrArg JobFlowDependencyPageItem.childId equal
              rw [named, named] at sameId
              exact same sameId
            rw [AList.lookup_insert_ne same]
            simp [different]
        · intro next member
          rw [written, AList.lookup_insert_ne (later next member)]
          exact apart next (List.mem_cons_of_mem _ member)
      · rw [ih distinct.2, kept]
        · simp [(other childId entry).symm]
        · intro next member
          rw [kept]
          exact apart next (List.mem_cons_of_mem _ member)

/-- Items of new children add their results. -/
theorem processed_foldl (values : JobFlowDependencyValues) {value : Value}
    (distinct : (items.map JobFlowDependencyPageItem.childId).Nodup)
    (apart : ∀ item ∈ items, values.processed.lookup item.childId = none)
    : (items.foldl addItem values).processed.lookup childId = some value
      ↔ .processed childId value ∈ items ∨ values.processed.lookup childId = some value := by
  refine lookup_foldl processed .processed (fun _ _ => rfl)
    (fun _ _ _ equal => (JobFlowDependencyPageItem.processed.inj equal).2) ?_ distinct apart
  intro values item
  cases item with
  | processed id value => exact .inl ⟨id, value, rfl, rfl⟩
  | unprocessed | ignored | failed => exact .inr ⟨nofun, rfl⟩

/-- Items of new children add their failures. -/
theorem ignored_foldl (values : JobFlowDependencyValues) {failedReason : String}
    (distinct : (items.map JobFlowDependencyPageItem.childId).Nodup)
    (apart : ∀ item ∈ items, values.ignored.lookup item.childId = none)
    : (items.foldl addItem values).ignored.lookup childId = some failedReason
      ↔ .ignored childId failedReason ∈ items
        ∨ values.ignored.lookup childId = some failedReason := by
  refine lookup_foldl ignored .ignored (fun _ _ => rfl)
    (fun _ _ _ equal => (JobFlowDependencyPageItem.ignored.inj equal).2) ?_ distinct apart
  intro values item
  cases item with
  | ignored id failedReason => exact .inl ⟨id, failedReason, rfl, rfl⟩
  | processed | unprocessed | failed => exact .inr ⟨nofun, rfl⟩

/-- The lists of a bucket grow by the ids of its items, by induction on them. -/
theorem lists_foldl (items : List JobFlowDependencyPageItem) (values : JobFlowDependencyValues)
    : (items.foldl addItem values).unprocessed
        = values.unprocessed
          ++ (items.filter (fun item => item.kind = .unprocessed)).map
              JobFlowDependencyPageItem.childId
      ∧ (items.foldl addItem values).failed
        = values.failed
          ++ (items.filter (fun item => item.kind = .failed)).map
              JobFlowDependencyPageItem.childId := by
  induction items generalizing values with
  | nil => simp
  | cons item rest ih =>
      obtain ⟨unprocessed, failed⟩ := ih (values.addItem item)
      rw [List.foldl_cons, unprocessed, failed]
      cases item <;>
        simp [addItem, addProcessed, addIgnored, addFailed, JobFlowDependencyPageItem.kind,
          JobFlowDependencyPageItem.childId]

/-- The buckets have the ids of their items. -/
theorem ids_perm (distinct : (items.map JobFlowDependencyPageItem.childId).Nodup)
    : ((items.foldl addItem {}).ids kind).Perm
        ((items.filter (fun item => item.kind = kind)).map JobFlowDependencyPageItem.childId) := by
  have nodup
      : ((items.filter (fun item => item.kind = kind)).map
          JobFlowDependencyPageItem.childId).Nodup :=
    (List.filter_sublist.map JobFlowDependencyPageItem.childId).nodup distinct
  obtain ⟨unprocessed, failed⟩ := lists_foldl items {}
  cases kind with
  | processed =>
      refine (List.perm_ext_iff_of_nodup (AList.keys_nodup _) nodup).mpr ?_
      intro id
      simp only [← AList.mem_keys, ← AList.lookup_isSome, Option.isSome_iff_exists]
      simp only [processed_foldl {} distinct (fun _ _ => AList.lookup_empty _)]
      simp only [AList.lookup_empty, reduceCtorEq, or_false, List.mem_map, List.mem_filter,
        decide_eq_true_eq]
      constructor
      · rintro ⟨value, member⟩
        exact ⟨_, ⟨member, rfl⟩, rfl⟩
      · rintro ⟨item, ⟨member, same⟩, rfl⟩
        cases item with
        | processed id value => exact ⟨value, member⟩
        | unprocessed | ignored | failed => cases same
  | ignored =>
      refine (List.perm_ext_iff_of_nodup (AList.keys_nodup _) nodup).mpr ?_
      intro id
      simp only [← AList.mem_keys, ← AList.lookup_isSome, Option.isSome_iff_exists]
      simp only [ignored_foldl {} distinct (fun _ _ => AList.lookup_empty _)]
      simp only [AList.lookup_empty, reduceCtorEq, or_false, List.mem_map, List.mem_filter,
        decide_eq_true_eq]
      constructor
      · rintro ⟨reason, member⟩
        exact ⟨_, ⟨member, rfl⟩, rfl⟩
      · rintro ⟨item, ⟨member, same⟩, rfl⟩
        cases item with
        | ignored id reason => exact ⟨reason, member⟩
        | unprocessed | processed | failed => cases same
  | unprocessed =>
      simp only [ids, unprocessed]
      exact .refl _
  | failed =>
      simp only [ids, failed]
      exact .refl _

end JobFlowDependencyValues

namespace ValuesScan

theorem addIndexed_eq (scan : ValuesScan) (index : InMemoryFlowDependencyIndex) (childId : JobId)
    : scan.addIndexed index childId
      = (index.item childId).map (fun item =>
          { values := scan.values.addItem item
            indexedChildren := insert childId scan.indexedChildren }) := by
  unfold addIndexed InMemoryFlowDependencyIndex.item
  cases index.processed.lookup childId with
  | some value => rfl
  | none =>
      cases index.ignored.lookup childId with
      | some failedReason => rfl
      | none =>
          by_cases failed : childId ∈ index.failed
          · simp only [if_pos failed]
            rfl
          · simp only [if_neg failed]
            rfl

/-- The loop adds the items of the listed children and marks the recorded ones, by induction on
the children.
-/
theorem foldl_addChild (scan : ValuesScan)
    : childIds.foldl (addChild jobs index) scan
      = { values :=
            (childIds.filterMap (listedItem jobs index)).foldl
              JobFlowDependencyValues.addItem scan.values
          indexedChildren :=
            scan.indexedChildren
              ∪ (childIds.filter (flowDependencyIndexContains index)).toFinset } := by
  induction childIds generalizing scan with
  | nil => simp
  | cons childId rest ih =>
      rw [List.foldl_cons, ih]
      have recorded := flowDependencyIndexContains_eq index childId
      have added
          : index.bind (fun index => scan.addIndexed index childId)
            = (index.bind (·.item childId)).map (fun item =>
                { values := scan.values.addItem item
                  indexedChildren := insert childId scan.indexedChildren }) := by
        cases index with
        | none => rfl
        | some index => exact scan.addIndexed_eq index childId
      unfold addChild
      rw [added]
      cases known : index.bind (·.item childId) with
      | some item =>
          have listed : listedItem jobs index childId = some item := by
            simp only [listedItem, known, Option.some_or]
          rw [known] at recorded
          simp only [Option.map_some, List.filterMap_cons, listed, List.foldl_cons,
            List.filter_cons, recorded, Option.isSome_some, if_true, List.toFinset_cons,
            Finset.insert_union, Finset.union_insert]
      | none =>
          rw [known] at recorded
          have listed
              : listedItem jobs index childId = (jobs.get childId).bind Job.dependencyItem := by
            simp only [listedItem, known, Option.none_or]
          simp only [Option.map_none, recorded, Option.isSome_none, Bool.false_eq_true, if_false,
            List.filterMap_cons, List.filter_cons, listed]
          cases jobs.get childId with
          | none => rfl
          | some child =>
              simp only [Option.bind_some, JobFlowDependencyValues.addRetained_eq]
              cases child.dependencyItem with
              | none => rfl
              | some item => rfl

/-- The unread items of an index are added in turn, by induction on the items. -/
theorem foldl_addUnlisted (scan : ValuesScan)
    (distinct : (items.map JobFlowDependencyPageItem.childId).Nodup)
    : (items.foldl (fun scan item => scan.addUnlisted item.childId (·.addItem item)) scan).values
      = (items.filter (fun item => item.childId ∉ scan.indexedChildren)).foldl
          JobFlowDependencyValues.addItem scan.values := by
  induction items generalizing scan with
  | nil => rfl
  | cons item rest ih =>
      rw [List.map_cons, List.nodup_cons] at distinct
      rw [List.foldl_cons, ih _ distinct.2, List.filter_cons]
      unfold addUnlisted
      by_cases read : item.childId ∈ scan.indexedChildren
      · simp [read]
      · rw [if_neg read]
        simp only [read, not_false_eq_true, decide_true, if_true, List.foldl_cons]
        congr 1
        refine List.filter_congr ?_
        intro other member
        have different : other.childId ≠ item.childId :=
          fun same => distinct.1 (same ▸ List.mem_map_of_mem member)
        simp [different]

theorem addIndex_eq (scan : ValuesScan) (index : InMemoryFlowDependencyIndex)
    : scan.addIndex index
      = index.items.foldl (fun scan item => scan.addUnlisted item.childId (·.addItem item))
          scan := by
  simp only [addIndex, InMemoryFlowDependencyIndex.items, List.foldl_append, List.foldl_map]
  rfl

end ValuesScan

/-- The recorded children that were not read are those that the parent does not list. -/
theorem filter_items_unlisted {found : InMemoryFlowDependencyIndex} (disjoint : found.Disjoint)
    : found.items.filter (fun item =>
        item.childId
          ∉ (childIds.filter (flowDependencyIndexContains (some found))).toFinset)
      = found.items.filter (fun item => item.childId ∉ childIds) := by
  refine List.filter_congr ?_
  intro item member
  have recorded : flowDependencyIndexContains (some found) item.childId = true := by
    rw [flowDependencyIndexContains_eq, Option.bind_some,
      (InMemoryFlowDependencyIndex.mem_items disjoint).mp member]
    rfl
  simp [recorded]

/-- The values are the items of the parent, sorted into buckets. -/
theorem flowDependencyValues_eq (disjoint : ∀ found, index = some found → found.Disjoint)
    : flowDependencyValues parent jobs index
      = (dependencyItems parent jobs index).foldl JobFlowDependencyValues.addItem {} := by
  unfold flowDependencyValues dependencyItems
  rw [ValuesScan.foldl_addChild]
  cases index with
  | none => simp
  | some index =>
      have apart := disjoint index rfl
      simp only [Option.elim_some, List.foldl_append]
      rw [ValuesScan.addIndex_eq,
        ValuesScan.foldl_addUnlisted _ (InMemoryFlowDependencyIndex.items_nodup apart)]
      simp only [Finset.empty_union]
      rw [filter_items_unlisted apart]

-----------------------------------------------------------------------------------------
-- Pages
-----------------------------------------------------------------------------------------

namespace PageScan

/-- The loop adds the listed items of the bucket and marks the recorded ones, by induction on the
children.
-/
theorem foldl_addChild (scan : PageScan) (disjoint : ∀ found, index = some found → found.Disjoint)
    : childIds.foldl (addChild jobs index kind) scan
      = { bucket :=
            scan.bucket
              ++ (childIds.filterMap (listedItem jobs index)).filter
                  (fun item => item.kind = kind)
          indexedChildren :=
            scan.indexedChildren
              ∪ (childIds.filter (fun childId =>
                  (indexedFlowDependencyPageItem index childId kind).isSome)).toFinset } := by
  induction childIds generalizing scan with
  | nil => simp
  | cons childId rest ih =>
      rw [List.foldl_cons, ih]
      have recorded := flowDependencyIndexContains_eq index childId
      have indexed
          : indexedFlowDependencyPageItem index childId kind
            = (index.bind (·.item childId)).filter (fun item => item.kind = kind) := by
        cases index with
        | none => rfl
        | some index => exact InMemoryFlowDependencyIndex.indexed_eq (disjoint index rfl)
      unfold addChild
      rw [indexed]
      cases known : index.bind (·.item childId) with
      | some item =>
          have listed : listedItem jobs index childId = some item := by
            simp only [listedItem, known, Option.some_or]
          rw [known] at recorded indexed
          by_cases same : item.kind = kind
          · simp [Option.filter, listed, indexed, same]
          · simp [Option.filter, listed, indexed, same, recorded]
      | none =>
          rw [known] at recorded indexed
          have listed
              : listedItem jobs index childId = (jobs.get childId).bind Job.dependencyItem := by
            simp only [listedItem, known, Option.none_or]
          simp only [Option.filter_none, recorded, Option.isSome_none, Bool.false_eq_true, if_false,
            List.filterMap_cons, List.filter_cons, listed, indexed]
          cases jobs.get childId with
          | none => rfl
          | some child =>
              simp only [Option.bind_some, retained_eq]
              cases child.dependencyItem with
              | none => rfl
              | some item =>
                  by_cases same : item.kind = kind
                  · simp [Option.filter, same]
                  · simp [Option.filter, same]

/-- The unread items of an index are added in turn, by induction on the items. -/
theorem foldl_addUnlisted (scan : PageScan)
    (distinct : (items.map JobFlowDependencyPageItem.childId).Nodup)
    : (items.foldl addUnlisted scan).bucket
      = scan.bucket ++ items.filter (fun item => item.childId ∉ scan.indexedChildren) := by
  induction items generalizing scan with
  | nil => simp
  | cons item rest ih =>
      rw [List.map_cons, List.nodup_cons] at distinct
      rw [List.foldl_cons, ih _ distinct.2, List.filter_cons]
      unfold addUnlisted
      by_cases read : item.childId ∈ scan.indexedChildren
      · simp [read]
      · rw [if_neg read]
        simp only [read, not_false_eq_true, decide_true, if_true, List.append_assoc,
          List.singleton_append]
        congr 2
        refine List.filter_congr ?_
        intro other member
        have different : other.childId ≠ item.childId :=
          fun same => distinct.1 (same ▸ List.mem_map_of_mem member)
        simp [different]

theorem addIndex_eq (scan : PageScan) (index : InMemoryFlowDependencyIndex)
    : scan.addIndex index kind
      = (index.items.filter (fun item => item.kind = kind)).foldl addUnlisted scan := by
  cases kind <;>
    simp [addIndex, InMemoryFlowDependencyIndex.items, List.filter_map, Function.comp_def,
      JobFlowDependencyPageItem.kind, List.foldl_map]

end PageScan

/-- A bucket has the items of its kind. -/
theorem flowDependencyPageItems_eq (disjoint : ∀ found, index = some found → found.Disjoint)
    : flowDependencyPageItems parent jobs index kind
      = (dependencyItems parent jobs index).filter (fun item => item.kind = kind) := by
  unfold flowDependencyPageItems dependencyItems
  rw [PageScan.foldl_addChild _ disjoint]
  cases index with
  | none => simp
  | some index =>
      have apart := disjoint index rfl
      have distinct
          : ((index.items.filter (fun item => item.kind = kind)).map
              JobFlowDependencyPageItem.childId).Nodup :=
        (List.filter_sublist.map _).nodup (InMemoryFlowDependencyIndex.items_nodup apart)
      simp only [Option.elim_some, List.filter_append]
      rw [PageScan.addIndex_eq, PageScan.foldl_addUnlisted _ distinct]
      simp only [List.nil_append, Finset.empty_union, List.filter_filter]
      congr 1
      refine List.filter_congr ?_
      intro item member
      by_cases same : item.kind = kind
      · have recorded
            : (indexedFlowDependencyPageItem (some index) item.childId kind).isSome = true := by
          rw [InMemoryFlowDependencyIndex.indexed_eq apart,
            (InMemoryFlowDependencyIndex.mem_items apart).mp member]
          simp [Option.filter, same]
        simp [same, recorded]
      · simp [same]

-----------------------------------------------------------------------------------------
-- Results and ignored failures
-----------------------------------------------------------------------------------------

/-- A read of the unrecorded children into one table, by induction on the children. -/
theorem foldl_unrecorded {α : Type} (table : JobFlowDependencyValues → HashMap JobId α)
    (read : HashMap JobId α → Job → HashMap JobId α)
    (reads : ∀ values child, read (table values) child = table (values.addRetained child))
    (values : JobFlowDependencyValues)
    : childIds.foldl
        (fun entries childId =>
          if flowDependencyIndexContains index childId then
            entries
          else
            match jobs.get childId with
            | none => entries
            | some child => read entries child)
        (table values)
      = table ((childIds.filterMap (unrecordedItem jobs index)).foldl
          JobFlowDependencyValues.addItem values) := by
  induction childIds generalizing values with
  | nil => rfl
  | cons childId rest ih =>
      rw [List.foldl_cons, List.filterMap_cons]
      cases recorded : flowDependencyIndexContains index childId with
      | true =>
          have unread : unrecordedItem jobs index childId = none := by
            simp only [unrecordedItem, recorded, if_true]
          rw [unread]
          exact ih values
      | false =>
          have same
              : unrecordedItem jobs index childId
                = (jobs.get childId).bind Job.dependencyItem := by
            simp only [unrecordedItem, recorded, Bool.false_eq_true, if_false]
          rw [same]
          simp only [Bool.false_eq_true, if_false]
          cases jobs.get childId with
          | none => exact ih values
          | some child =>
              simp only [Option.bind_some]
              rw [reads, values.addRetained_eq child]
              cases child.dependencyItem with
              | none => exact ih values
              | some item => exact ih (values.addItem item)

theorem flowChildrenValues_eq
    : flowChildrenValues parent jobs index
      = ((parent.childIds.filterMap (unrecordedItem jobs index)).foldl
          JobFlowDependencyValues.addItem
          { processed := (index.map InMemoryFlowDependencyIndex.processed).getD ∅ }).processed := by
  refine foldl_unrecorded JobFlowDependencyValues.processed _ ?_
    { processed := (index.map InMemoryFlowDependencyIndex.processed).getD ∅ }
  intro values child
  unfold JobFlowDependencyValues.addRetained
  cases child.state with
  | completed => cases child.returnValue <;> rfl
  | failed =>
      cases child.options.ignoreDependencyOnFailure <;>
        cases child.options.continueParentOnFailure <;>
        cases child.options.removeDependencyOnFailure <;> rfl
  | waiting | delayed | active | waitingChildren => rfl

theorem flowIgnoredChildrenFailures_eq
    : flowIgnoredChildrenFailures parent jobs index
      = ((parent.childIds.filterMap (unrecordedItem jobs index)).foldl
          JobFlowDependencyValues.addItem
          { ignored := (index.map InMemoryFlowDependencyIndex.ignored).getD ∅ }).ignored := by
  refine foldl_unrecorded JobFlowDependencyValues.ignored
    (fun failures child =>
      if child.state = .failed
          ∧ (child.options.ignoreDependencyOnFailure
            || child.options.continueParentOnFailure) then
        failures.insert child.id (child.failedReason.getD "")
      else
        failures)
    ?_ { ignored := (index.map InMemoryFlowDependencyIndex.ignored).getD ∅ }
  intro values child
  unfold JobFlowDependencyValues.addRetained
  cases child.state with
  | completed => cases child.returnValue <;> rfl
  | failed =>
      cases child.options.ignoreDependencyOnFailure <;>
        cases child.options.continueParentOnFailure <;>
        cases child.options.removeDependencyOnFailure <;> rfl
  | waiting | delayed | active | waitingChildren => rfl

/-- Two tables with the same entries have the same lookups. -/
theorem lookup_ext {α : Type} {left right : HashMap JobId α} {id : JobId}
    (same : ∀ entry, left.lookup id = some entry ↔ right.lookup id = some entry)
    : left.lookup id = right.lookup id :=
  Option.ext same

/-- An item of the index is the entry of its bucket. -/
theorem mem_indexItems_processed {value : Value}
    : .processed childId value ∈ indexItems index
      ↔ ((index.map InMemoryFlowDependencyIndex.processed).getD ∅).lookup childId = some value := by
  cases index with
  | none => simp [indexItems]
  | some index => simp [indexItems, InMemoryFlowDependencyIndex.items, mem_orderedEntries]

theorem mem_indexItems_ignored {failedReason : String}
    : .ignored childId failedReason ∈ indexItems index
      ↔ ((index.map InMemoryFlowDependencyIndex.ignored).getD ∅).lookup childId
        = some failedReason := by
  cases index with
  | none => simp [indexItems]
  | some index => simp [indexItems, InMemoryFlowDependencyIndex.items, mem_orderedEntries]

/-- An unrecorded child has no entry in a bucket. -/
theorem lookup_unrecorded (member : item ∈ childIds.filterMap (unrecordedItem jobs index))
    : ((index.map InMemoryFlowDependencyIndex.processed).getD ∅).lookup item.childId = none
      ∧ ((index.map InMemoryFlowDependencyIndex.ignored).getD ∅).lookup item.childId = none := by
  obtain ⟨childId, _, same⟩ := List.mem_filterMap.mp member
  rw [unrecordedItem_childId same]
  unfold unrecordedItem at same
  split at same
  · cases same
  · next unrecorded =>
      cases index with
      | none => exact ⟨AList.lookup_empty _, AList.lookup_empty _⟩
      | some index =>
          simp only [flowDependencyIndexContains, Option.any_some, Bool.or_eq_true, not_or,
            Bool.not_eq_true, Option.isSome_eq_false_iff, Option.isNone_iff_eq_none] at unrecorded
          exact unrecorded.1

/-- The results are the processed bucket of the values. -/
theorem flowChildrenValues_lookup (disjoint : ∀ found, index = some found → found.Disjoint)
    (distinct : parent.childIds.Nodup) (childId : JobId)
    : (flowChildrenValues parent jobs index).lookup childId
      = (flowDependencyValues parent jobs index).processed.lookup childId := by
  have perm : (dependencyItems parent jobs index).Perm _ := dependencyItems_perm disjoint distinct
  have nodup : ((dependencyItems parent jobs index).map _).Nodup :=
    dependencyItems_nodup disjoint distinct
  have unrecorded
      : ((parent.childIds.filterMap (unrecordedItem jobs index)).map
          JobFlowDependencyPageItem.childId).Nodup :=
    filterMap_childIds_nodup distinct unrecordedItem_childId
  refine lookup_ext (fun value => ?_)
  rw [flowChildrenValues_eq, flowDependencyValues_eq disjoint,
    JobFlowDependencyValues.processed_foldl _ unrecorded
      (fun item member => (lookup_unrecorded member).1),
    JobFlowDependencyValues.processed_foldl _ nodup (fun _ _ => AList.lookup_empty _),
    perm.mem_iff, List.mem_append, mem_indexItems_processed]
  simp [or_comm]

/-- The ignored failures are the ignored bucket of the values. -/
theorem flowIgnoredChildrenFailures_lookup
    (disjoint : ∀ found, index = some found → found.Disjoint) (distinct : parent.childIds.Nodup)
    (childId : JobId)
    : (flowIgnoredChildrenFailures parent jobs index).lookup childId
      = (flowDependencyValues parent jobs index).ignored.lookup childId := by
  have perm : (dependencyItems parent jobs index).Perm _ := dependencyItems_perm disjoint distinct
  have nodup : ((dependencyItems parent jobs index).map _).Nodup :=
    dependencyItems_nodup disjoint distinct
  have unrecorded
      : ((parent.childIds.filterMap (unrecordedItem jobs index)).map
          JobFlowDependencyPageItem.childId).Nodup :=
    filterMap_childIds_nodup distinct unrecordedItem_childId
  refine lookup_ext (fun failedReason => ?_)
  rw [flowIgnoredChildrenFailures_eq, flowDependencyValues_eq disjoint,
    JobFlowDependencyValues.ignored_foldl _ unrecorded
      (fun item member => (lookup_unrecorded member).2),
    JobFlowDependencyValues.ignored_foldl _ nodup (fun _ _ => AList.lookup_empty _),
    perm.mem_iff, List.mem_append, mem_indexItems_ignored]
  simp [or_comm]

end Lane
