import Lane.Board.ChildLists
import Lane.Contract.LifecycleCoherence
import Lane.Filing.Views

/-! Dependency views: in every reachable state the counts, the values, the pages and the two value
maps of a retained parent agree on its buckets, which are pairwise disjoint.
-/

namespace Lane

namespace InMemoryJobQueueState

/-- Collects a bucket by following its pages from a cursor on, until the next cursor is 0; `none`
when the calls run out or the parent is not retained.
-/
def collectFlowDependencies (s : InMemoryJobQueueState) (parentId : JobId)
    (kind : JobFlowDependencyKind) (count : Nat)
    : Nat → Nat → Option (List JobFlowDependencyPageItem)
  | 0, _ => none
  | calls + 1, cursor =>
      match s.getFlowDependencyPage parentId { kind, cursor, count } with
      | none => none
      | some page =>
          if page.nextCursor = 0 then
            some page.items
          else
            (s.collectFlowDependencies parentId kind count calls page.nextCursor).map
              (page.items ++ ·)

/-- The views of a retained parent agree. -/
structure ViewsAgree (s : InMemoryJobQueueState) (parentId : JobId)
    (values : JobFlowDependencyValues)
    : Prop where
  read : s.getFlowDependencyValues parentId = some values
  counts
    : ∀ (kind : JobFlowDependencyKind) (options : JobFlowDependencyCountOptions),
        kind ∈ options.selected
        → (s.getFlowDependencySelectedCounts parentId options).bind (·.get kind)
          = some (values.ids kind).length
  pages
    : ∀ (kind : JobFlowDependencyKind) (count : Nat),
        ∃ items,
          (∀ calls,
            items.length < calls
            → s.collectFlowDependencies parentId kind count calls 0 = some items)
          ∧ items.length = (values.ids kind).length
          ∧ (items.map JobFlowDependencyPageItem.childId).Perm (values.ids kind)
          ∧ ∀ item ∈ items, item.kind = kind
  indexDisjoint : ∀ index, s.flowDependencies.lookup parentId = some index → index.Disjoint
  distinct : ∀ kind, (values.ids kind).Nodup
  disjoint
    : ∀ left right childId, childId ∈ values.ids left → childId ∈ values.ids right → left = right
  childrenValues
    : ∃ results,
        s.getFlowChildrenValues parentId = some results
        ∧ ∀ childId, results.lookup childId = values.processed.lookup childId
  ignoredFailures
    : ∃ failures,
        s.getFlowIgnoredChildrenFailures parentId = some failures
        ∧ ∀ childId, failures.lookup childId = values.ignored.lookup childId

variable {s : InMemoryJobQueueState} {parent : Job} {parentId : JobId}
  {kind : JobFlowDependencyKind}

/-- Following the pages from a cursor within the bucket collects the rest of it, by induction on
the calls: every page but the last moves the cursor on.
-/
theorem collectFlowDependencies_eq (found : s.jobs.get parentId = some parent) (count : Nat)
    (calls cursor : Nat)
    (within
      : cursor
        ≤ (flowDependencyPageItems parent s.jobs (s.flowDependencies.lookup parentId) kind).length)
    (enough
      : (flowDependencyPageItems parent s.jobs (s.flowDependencies.lookup parentId) kind).length
        < cursor + calls)
    : s.collectFlowDependencies parentId kind count calls cursor
      = some
          ((flowDependencyPageItems parent s.jobs (s.flowDependencies.lookup parentId) kind).drop
            cursor) := by
  induction calls generalizing cursor with
  | zero => omega
  | succ calls ih =>
      unfold collectFlowDependencies
      simp only [getFlowDependencyPage, readFlow, found, Option.map_some, flowDependencyPage]
      generalize flowDependencyPageItems parent s.jobs (s.flowDependencies.lookup parentId) kind
        = bucket at within enough ih ⊢
      rw [Nat.min_eq_left within]
      by_cases more : min (cursor + max count 1) bucket.length < bucket.length
      · have last : min (cursor + max count 1) bucket.length = cursor + max count 1 := by omega
        rw [last] at more ⊢
        rw [if_pos more, if_neg (by omega), ih (cursor + max count 1) (by omega) (by omega),
          Option.map_some]
        congr 1
        have start : cursor ≤ cursor + max count 1 := Nat.le_add_right _ _
        calc (bucket.take (cursor + max count 1)).drop cursor ++ bucket.drop (cursor + max count 1)
            = (bucket.take (cursor + max count 1) ++ bucket.drop (cursor + max count 1)).drop
                cursor := by
              rw [List.drop_append_of_le_length (by rw [List.length_take]; omega)]
          _ = bucket.drop cursor := by rw [List.take_append_drop]
      · have last : min (cursor + max count 1) bucket.length = bucket.length := by omega
        rw [last]
        simp

/-- The views agree when the index and the child list have no duplicates and completed jobs have
their results.
-/
theorem viewsAgree_of_shelf (found : s.jobs.get parentId = some parent)
    (disjoint : s.shelf.Disjoint) (lists : s.board.ChildLists)
    (coherent : ∀ id job, s.jobs.get id = some job → job.Coherent)
    : s.ViewsAgree parentId
        (flowDependencyValues parent s.jobs (s.flowDependencies.lookup parentId)) := by
  have distinct : parent.childIds.Nodup := lists.card (board_cards_of_get found)
  have apart
      : ∀ index, s.flowDependencies.lookup parentId = some index → index.Disjoint :=
    disjoint parentId
  have returned (id : JobId) (child : Job) (retained : s.jobs.get id = some child)
      (completed : child.state = .completed)
      : child.returnValue.isSome = true :=
    (coherent id child retained).returned.mpr completed
  have nodup
      : ((dependencyItems parent s.jobs (s.flowDependencies.lookup parentId)).map
          JobFlowDependencyPageItem.childId).Nodup :=
    dependencyItems_nodup apart distinct
  have ids (kind : JobFlowDependencyKind)
      : (_ : List JobId).Perm
          (((dependencyItems parent s.jobs (s.flowDependencies.lookup parentId)).filter
            (fun item => item.kind = kind)).map JobFlowDependencyPageItem.childId) :=
    JobFlowDependencyValues.ids_perm nodup
  rw [← flowDependencyValues_eq apart] at ids
  refine ⟨?_, ?_, ?_, apart, ?_, ?_, ?_, ?_⟩
  · simp only [getFlowDependencyValues, readFlow, found, Option.map_some]
  · intro kind options selected
    simp only [getFlowDependencySelectedCounts, readFlow, found, Option.map_some,
      Option.bind_some, flowDependencySelectedCounts]
    rw [JobFlowDependencySelectedCounts.get_foldl, if_pos selected,
      flowDependencyCounts_count apart distinct returned, (ids kind).length_eq, List.length_map]
  · intro kind count
    have bucket
        : flowDependencyPageItems parent s.jobs (s.flowDependencies.lookup parentId) kind = _ :=
      flowDependencyPageItems_eq apart
    refine ⟨flowDependencyPageItems parent s.jobs (s.flowDependencies.lookup parentId) kind,
      ?_, ?_, ?_, ?_⟩
    · intro calls enough
      rw [collectFlowDependencies_eq found count calls 0 (Nat.zero_le _) (by omega), List.drop_zero]
    · rw [(ids kind).length_eq, List.length_map, bucket]
    · rw [bucket]
      exact (ids kind).symm
    · intro item member
      rw [bucket] at member
      exact of_decide_eq_true (List.mem_filter.mp member).2
  · intro kind
    rw [(ids kind).nodup_iff]
    exact (List.filter_sublist.map _).nodup nodup
  · intro left right childId leftMember rightMember
    obtain ⟨item, member, rfl⟩ := List.mem_map.mp ((ids left).mem_iff.mp leftMember)
    obtain ⟨other, among, same⟩ := List.mem_map.mp ((ids right).mem_iff.mp rightMember)
    obtain ⟨itemMember, leftKind⟩ := List.mem_filter.mp member
    obtain ⟨otherMember, rightKind⟩ := List.mem_filter.mp among
    obtain rfl := List.inj_on_of_nodup_map nodup otherMember itemMember same
    exact (of_decide_eq_true leftKind).symm.trans (of_decide_eq_true rightKind)
  · refine ⟨flowChildrenValues parent s.jobs (s.flowDependencies.lookup parentId), ?_, ?_⟩
    · simp only [getFlowChildrenValues, readFlow, found, Option.map_some]
    · exact flowChildrenValues_lookup apart distinct
  · refine ⟨flowIgnoredChildrenFailures parent s.jobs (s.flowDependencies.lookup parentId), ?_, ?_⟩
    · simp only [getFlowIgnoredChildrenFailures, readFlow, found, Option.map_some]
    · exact flowIgnoredChildrenFailures_lookup apart distinct

end InMemoryJobQueueState

open InMemoryJobQueueState in
/-- In every reachable state and for every retained parent, the selected counts, the values and the
pages that are followed to their end give each bucket the same children, the buckets and those of
the side index are pairwise disjoint, and the results and the ignored failures are the processed
and the ignored bucket.
-/
theorem dependency_views_agree {cron : Cron} {queue : QueueName} {s : InMemoryJobQueueState}
    (reachable : Reachable cron queue s) {parentId : JobId} {parent : Job}
    (found : s.jobs.get parentId = some parent)
    : ∃ values, s.ViewsAgree parentId values := by
  have shelf : s.shelf.Disjoint := by
    refine reachable.invariant (fun s => s.shelf.Disjoint) ?_ ?_
    · intro id index filed
      cases filed
    · rintro s call _ disjoint _ ⟨_, rfl⟩
      exact disjoint_step cron call.find queue call.op disjoint
  have lists : s.board.ChildLists := by
    refine reachable.invariant (fun s => s.board.ChildLists) Board.childLists_empty ?_
    rintro s call _ lists _ ⟨_, rfl⟩
    exact childLists_step cron call.find queue call.op lists
  refine ⟨_, viewsAgree_of_shelf found shelf lists ?_⟩
  exact fun id job retained => coherent_of_reachable reachable retained

/-- A parent whose first child completed and whose second child failed without holding it up. -/
def finishedChildren : List Call :=
  [ { op := .addFlowAt ({ name := "work" }, "parent")
        [ ({ name := "work" }, "left"),
          ({ name := "work", options := { ignoreDependencyOnFailure := true } }, "right") ] 0 },
    { op := .claimNext "worker" 10 0 "lease-1" },
    { op := .completeJob "left" "lease-1" (.string "done") 1 "next" },
    { op := .remove "left" 2 },
    { op := .claimNext "worker" 10 2 "lease-2" },
    { op := .failJob "right" "lease-2" "broken" 3 } ]

theorem dependency_views_agree_finishedChildren
    : ∃ values, (serve noCron "queue" {} finishedChildren).ViewsAgree "parent" values := by
  have retained : (serve noCron "queue" {} finishedChildren).jobs.containsKey "parent" = true := by
    decide +kernel
  obtain ⟨parent, found⟩ := JobMap.containsKey_eq_true.mp retained
  exact dependency_views_agree (reaches_serve (by decide +kernel)) found

end Lane
