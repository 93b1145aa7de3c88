import Lane.Priority.Order

/-! The ordered view of the priority queue lists what repeated claims answer, and a push at the
last sequence number renumbers the pending items without touching their order.
-/

namespace Lane

namespace PriorityQueue

variable {τ : Type}

/-- What a push at the last sequence number promises about a queue that the heap gives up in
some order:
- the sequences stay distinct and counted, and a queue that fits into memory has room for them,
- repeated claims answer the items they answered before, in the same order, with the new item
  behind all of its own priority or a lower number, and before all others.
-/
structure RebasesFaithfully (queue pushed : PriorityQueue τ) (priority : Nat) (value : τ)
    : Prop where
  sequenced : pushed.Sequenced
  roomy : queue.entries.length < heapCapacity → pushed.nextSequence ≤ u64Max
  placed
    : ∀ items, queue.PopsAll items →
        ∃ front back earlier later,
          items = front ++ back
          ∧ (∀ popped,
              pushed.PopsAll popped
              ↔ popped
                = earlier ++ { priority, sequence := pushed.nextSequence, value } :: later)
          ∧ earlier.map PriorityItem.content = front.map PriorityItem.content
          ∧ later.map PriorityItem.content = back.map PriorityItem.content
          ∧ (∀ item ∈ front, item.priority ≤ priority)
          ∧ ∀ item ∈ back, priority < item.priority

end PriorityQueue

open PriorityQueue

variable {τ : Type}

/-- For every queue whose pending items have distinct sequences that were given out:
- the ordered view, from any order of iteration, is the one list repeated claims answer,
- a push at the last sequence number, from any order of draining, is faithful.
-/
theorem ordered_and_rebase_faithful (queue : PriorityQueue τ) (sequenced : queue.Sequenced)
    : (∀ iterated, iterated.Perm queue.entries →
        ∀ items, queue.PopsAll items ↔ items = ordered iterated)
      ∧ ∀ drained priority value, queue.nextSequence = u64Max → drained.Perm queue.entries →
          queue.RebasesFaithfully (queue.push drained priority value).1 priority value := by
  refine ⟨fun iterated iterates items => sequenced.popsAll_iff_ordered iterates, ?_⟩
  intro drained priority value last drains
  have pushedSequenced : (queue.push drained priority value).1.Sequenced :=
    sequenced_push_at_last last
  have counter : (queue.push drained priority value).1.nextSequence = drained.length + 1 := by
    rw [push_at_last last]
  refine ⟨pushedSequenced, ?_, ?_⟩
  · intro fits
    rw [counter, drains.length_eq]
    simp only [heapCapacity, u64Max] at *
    omega
  · intro items popsAll
    have arranged := popsAll_iff.mp popsAll
    have byPriority : items.Pairwise (fun a b => a.priority ≤ b.priority) :=
      arranged.2.imp PriorityItem.NoLater.priority_le
    obtain ⟨front, back, rfl, low, high⟩ := Selection.split_at_key byPriority priority
    have expected := arranges_push_at_last value sequenced last drains arranged low high
    refine ⟨front, back, front.map (rerank drained), back.map (rerank drained), rfl, ?_,
      content_map_rerank _ _, content_map_rerank _ _, low, high⟩
    intro popped
    rw [popsAll_iff, counter]
    constructor
    · intro arranges
      exact Selection.arrangement_unique pushedSequenced.noTies arranges expected
    · intro same
      rw [same]
      exact expected

/-- One item is pending, under the last sequence number. -/
def atLastSequence : PriorityQueue Unit :=
  { entries := [{ priority := 1, sequence := u64Max, value := () }], nextSequence := u64Max }

/-- A push renumbers the pending item and comes behind it. -/
theorem ordered_and_rebase_faithful_at_last
    : (atLastSequence.PopsAll atLastSequence.entries
        ↔ atLastSequence.entries = ordered atLastSequence.entries)
      ∧ atLastSequence.RebasesFaithfully
          (atLastSequence.push atLastSequence.entries 1 ()).1 1 () := by
  have faithful := ordered_and_rebase_faithful atLastSequence
    ⟨by simp [atLastSequence], by simp [atLastSequence]⟩
  exact ⟨faithful.1 _ (.refl _) _, faithful.2 _ 1 () rfl (.refl _)⟩

end Lane
