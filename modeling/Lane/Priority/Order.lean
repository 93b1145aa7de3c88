import Lane.Library.Selection
import Lane.Priority.Queue

/-! The order of the pending items: the heap's comparison, the explicit sort and the renumbering
agree on it.
-/

namespace Lane

open Selection

variable {τ : Type}

-----------------------------------------------------------------------------------------
-- The order of two items
-----------------------------------------------------------------------------------------

/-- Runs no later: a smaller priority, or the same one under a sequence that is not larger. -/
def PriorityItem.NoLater (left right : PriorityItem τ) : Prop := left.cmp right ≠ .lt

namespace PriorityItem

variable {left middle right : PriorityItem τ}

theorem noLater_iff
    : left.NoLater right
      ↔ left.priority < right.priority
        ∨ (left.priority = right.priority ∧ left.sequence ≤ right.sequence) :=
  cmp_ne_lt_iff

theorem NoLater.refl (item : PriorityItem τ) : item.NoLater item :=
  noLater_iff.mpr (.inr ⟨rfl, le_rfl⟩)

theorem NoLater.trans (first : left.NoLater middle) (second : middle.NoLater right)
    : left.NoLater right := by
  rw [noLater_iff] at *
  omega

theorem NoLater.total (left right : PriorityItem τ)
    : left.NoLater right ∨ right.NoLater left := by
  rw [noLater_iff, noLater_iff]
  omega

theorem NoLater.priority_le (first : left.NoLater right) : left.priority ≤ right.priority := by
  rw [noLater_iff] at first
  omega

/-- The sort of `ordered` compares as the heap does. -/
theorem isLE_iff
    : ((compare left.priority right.priority).then (compare left.sequence right.sequence)).isLE
        = true
      ↔ left.NoLater right := by
  rw [Ordering.isLE_iff_ne_gt, Ordering.then_eq_gt, Nat.compare_eq_gt, Nat.compare_eq_eq,
    Nat.compare_eq_gt, noLater_iff]
  omega

/-- An item without its sequence. -/
def content (item : PriorityItem τ) : Nat × τ := (item.priority, item.value)

end PriorityItem

namespace PriorityQueue

variable {queue : PriorityQueue τ} {drained iterated items : List (PriorityItem τ)}

-----------------------------------------------------------------------------------------
-- Repeated claims
-----------------------------------------------------------------------------------------

/-- Repeated `pop` until nothing is pending. -/
inductive PopsAll : PriorityQueue τ → List (PriorityItem τ) → Prop
  | empty {queue : PriorityQueue τ} (nothing : queue.entries = []) : PopsAll queue []
  | pop {queue rest : PriorityQueue τ} {item : PriorityItem τ} {items : List (PriorityItem τ)}
    (pops : queue.Pops item rest) (later : PopsAll rest items)
    : PopsAll queue (item :: items)

/-- Repeated claims empty the heap by its own comparison. -/
theorem popsAll_iff_selects
    : queue.PopsAll items ↔ Selects PriorityItem.NoLater queue.entries items := by
  constructor
  · intro popsAll
    induction popsAll with
    | empty nothing =>
        rw [nothing]
        exact .done
    | pop pops _ ih => exact .take pops.removed pops.greatest ih
  · intro selects
    induction items generalizing queue with
    | nil =>
        generalize pending : queue.entries = entries at selects
        cases selects
        exact .empty pending
    | cons item items ih =>
        generalize pending : queue.entries = entries at selects
        cases selects with
        | @take _ rest _ _ removed least later =>
            subst pending
            have popped : queue.Pops item { queue with entries := rest } :=
              ⟨removed, least, rfl⟩
            exact .pop popped (ih later)

/-- The answers of repeated claims are the sorted arrangements of the pending items. -/
theorem popsAll_iff
    : queue.PopsAll items
      ↔ items.Perm queue.entries ∧ items.Pairwise PriorityItem.NoLater := by
  rw [popsAll_iff_selects, selects_iff PriorityItem.NoLater.refl]

-----------------------------------------------------------------------------------------
-- Distinct sequences
-----------------------------------------------------------------------------------------

/-- The pending items have distinct sequences, none above the last one given out. -/
structure Sequenced (queue : PriorityQueue τ) : Prop where
  distinct : (queue.entries.map PriorityItem.sequence).Nodup
  bounded : ∀ item ∈ queue.entries, item.sequence ≤ queue.nextSequence

/-- Items with distinct sequences are told apart by the comparison. -/
theorem Sequenced.noTies (sequenced : queue.Sequenced)
    : ∀ a ∈ queue.entries, ∀ b ∈ queue.entries, a.NoLater b → b.NoLater a → a = b := by
  intro a inA b inB first second
  rw [PriorityItem.noLater_iff] at first second
  exact List.inj_on_of_nodup_map sequenced.distinct inA inB (by omega)

/-- The explicit sort arranges the items as the heap gives them up. -/
theorem ordered_arranges (iterates : iterated.Perm queue.entries)
    : (ordered iterated).Perm queue.entries
      ∧ (ordered iterated).Pairwise PriorityItem.NoLater := by
  constructor
  · exact (List.mergeSort_perm iterated _).trans iterates
  · have sorted : (ordered iterated).Pairwise (fun left right : PriorityItem τ =>
        ((compare left.priority right.priority).then
          (compare left.sequence right.sequence)).isLE = true) := by
      refine List.pairwise_mergeSort ?_ ?_ iterated
      · intro left middle right first second
        rw [PriorityItem.isLE_iff] at *
        exact first.trans second
      · intro left right
        rw [Bool.or_eq_true, PriorityItem.isLE_iff, PriorityItem.isLE_iff]
        exact PriorityItem.NoLater.total left right
    exact sorted.imp PriorityItem.isLE_iff.mp

/-- With distinct sequences the explicit sort is the one list that repeated claims answer. -/
theorem Sequenced.popsAll_iff_ordered (sequenced : queue.Sequenced)
    (iterates : iterated.Perm queue.entries)
    : queue.PopsAll items ↔ items = ordered iterated := by
  rw [popsAll_iff]
  constructor
  · intro arrangement
    exact arrangement_unique sequenced.noTies arrangement (ordered_arranges iterates)
  · intro same
    rw [same]
    exact ordered_arranges iterates

-----------------------------------------------------------------------------------------
-- Renumbering
-----------------------------------------------------------------------------------------

/-- An item under the rank of its sequence among the given ones. -/
def rerank (drained : List (PriorityItem τ)) (item : PriorityItem τ) : PriorityItem τ :=
  { item with sequence := rank PriorityItem.sequence drained item.sequence }

/-- Renumbering gives every item the rank of its sequence. -/
theorem renumbered_perm (distinct : (drained.map PriorityItem.sequence).Nodup)
    : (renumbered drained).Perm (drained.map (rerank drained)) := by
  have sorts := List.mergeSort_perm drained (fun left right => left.sequence ≤ right.sequence)
  have ascends : (drained.mergeSort (fun left right => left.sequence ≤ right.sequence)).Pairwise
      (fun left right => decide (left.sequence ≤ right.sequence)) :=
    List.pairwise_mergeSort (by grind) (by grind) drained
  have apart := List.pairwise_map.mp (((sorts.map PriorityItem.sequence).nodup_iff).mpr distinct)
  have increasing : (drained.mergeSort (fun left right => left.sequence ≤ right.sequence)).Pairwise
      (fun left right => left.sequence < right.sequence) := by
    refine (ascends.and apart).imp ?_
    intro left right both
    have ascend := of_decide_eq_true both.1
    have differ := both.2
    omega
  have ranked : renumbered drained
      = (drained.mergeSort (fun left right => left.sequence ≤ right.sequence)).map
          (rerank drained) := by
    refine List.ext_getElem (by simp [renumbered]) ?_
    intro index first second
    have within : index < (drained.mergeSort
        (fun left right => left.sequence ≤ right.sequence)).length := by
      simpa [renumbered] using first
    simp only [renumbered, List.getElem_mapIdx, List.getElem_map, rerank]
    rw [← rank_perm sorts, rank_getElem increasing index within]
  rw [ranked]
  exact sorts.map _

/-- Ranks keep the order of two items. -/
theorem rerank_noLater {left right : PriorityItem τ} (first : left.NoLater right)
    : (rerank drained left).NoLater (rerank drained right) := by
  rw [PriorityItem.noLater_iff] at first ⊢
  refine first.imp_right ?_
  intro both
  refine ⟨both.1, ?_⟩
  refine List.countP_mono_left ?_
  intro other _ below
  simp only [decide_eq_true_eq] at below ⊢
  omega

theorem content_map_rerank (drained items : List (PriorityItem τ))
    : (items.map (rerank drained)).map PriorityItem.content = items.map PriorityItem.content := by
  rw [List.map_map]
  rfl

theorem rerank_sequence_le (drained : List (PriorityItem τ)) (item : PriorityItem τ)
    : (rerank drained item).sequence ≤ drained.length :=
  List.countP_le_length

/-- The renumbered sequences count from one. -/
theorem renumbered_sequences (drained : List (PriorityItem τ))
    : (renumbered drained).map PriorityItem.sequence
      = (List.range drained.length).map (fun index => index + 1) := by
  refine List.ext_getElem ?_ ?_
  · simp [renumbered, List.length_mergeSort]
  · intro index first second
    simp [renumbered]

-----------------------------------------------------------------------------------------
-- A push at the last sequence
-----------------------------------------------------------------------------------------

variable {priority : Nat} {value : τ}

/-- At the last sequence a push renumbers the pending items and adds its own behind them. -/
theorem push_at_last (last : queue.nextSequence = u64Max)
    : (queue.push drained priority value).1
      = { entries := { priority, sequence := drained.length + 1, value } :: renumbered drained,
          nextSequence := drained.length + 1 } := by
  simp [push, ensureSequenceCapacity, last]

/-- The push keeps the sequences distinct and counted. -/
theorem sequenced_push_at_last (last : queue.nextSequence = u64Max)
    : (queue.push drained priority value).1.Sequenced := by
  rw [push_at_last last]
  have counted : ∀ sequence ∈ (renumbered drained).map PriorityItem.sequence,
      sequence ≤ drained.length := by
    intro sequence member
    rw [renumbered_sequences] at member
    obtain ⟨index, within, rfl⟩ := List.mem_map.mp member
    exact List.mem_range.mp within
  constructor
  · refine List.nodup_cons.mpr ⟨?_, ?_⟩
    · intro member
      have bound := counted _ member
      simp only at bound
      omega
    · rw [renumbered_sequences]
      exact List.nodup_range.map (fun a b same => by simpa using same)
  · intro item member
    rcases List.mem_cons.mp member with rfl | earlier
    · exact le_rfl
    · have bound := counted _ (List.mem_map_of_mem earlier)
      simp only
      omega

/-- The pushed queue is emptied as the old one was, with the new item in between. -/
theorem arranges_push_at_last (value : τ) {front back : List (PriorityItem τ)}
    (sequenced : queue.Sequenced) (last : queue.nextSequence = u64Max)
    (drains : drained.Perm queue.entries)
    (arranged
      : (front ++ back).Perm queue.entries ∧ (front ++ back).Pairwise PriorityItem.NoLater)
    (low : ∀ item ∈ front, item.priority ≤ priority)
    (high : ∀ item ∈ back, priority < item.priority)
    : (front.map (rerank drained)
          ++ { priority, sequence := drained.length + 1, value } :: back.map (rerank drained)).Perm
        (queue.push drained priority value).1.entries
      ∧ (front.map (rerank drained)
          ++ { priority, sequence := drained.length + 1, value }
            :: back.map (rerank drained)).Pairwise PriorityItem.NoLater := by
  have distinct := ((drains.map PriorityItem.sequence).nodup_iff).mpr sequenced.distinct
  have reranked : ((front ++ back).map (rerank drained)).Pairwise PriorityItem.NoLater :=
    List.pairwise_map.mpr (arranged.2.imp rerank_noLater)
  rw [List.map_append] at reranked
  obtain ⟨frontSorted, backSorted, across⟩ := List.pairwise_append.mp reranked
  constructor
  · rw [push_at_last last]
    refine List.perm_middle.trans (List.Perm.cons _ ?_)
    rw [← List.map_append]
    exact ((arranged.1.trans drains.symm).map _).trans (renumbered_perm distinct).symm
  · refine List.pairwise_append.mpr ⟨frontSorted, .cons ?_ backSorted, ?_⟩
    · intro other member
      obtain ⟨item, inBack, rfl⟩ := List.mem_map.mp member
      exact PriorityItem.noLater_iff.mpr (.inl (high item inBack))
    · intro earlier inFront later member
      rcases List.mem_cons.mp member with rfl | inBack
      · obtain ⟨item, member, rfl⟩ := List.mem_map.mp inFront
        have below : (rerank drained item).priority ≤ priority := low item member
        have counted := rerank_sequence_le drained item
        rw [PriorityItem.noLater_iff]
        simp only
        omega
      · exact across earlier inFront later inBack

end PriorityQueue

end Lane
