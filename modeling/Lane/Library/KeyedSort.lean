import Mathlib.Data.List.Induction
import Mathlib.Data.List.Sort
import Mathlib.Data.List.TakeWhile

/-! Lists that are kept sorted by a falling key while elements are appended to them: equal keys
stay in the order of their arrival, and the last element whose key reaches a bound is the
latest one with the least such key.
-/

namespace KeyedSort

variable {α κ : Type*} [LinearOrder κ] (key : α → κ)

/-- The stable sort by falling keys. -/
def sortDown (items : List α) : List α :=
  items.insertionSort (fun left right => key right ≤ key left)

/-- Keys never rise along the list. -/
def Falling (items : List α) : Prop := items.Pairwise (fun left right => key right ≤ key left)

/-- The last element whose key reaches the bound. -/
def lastReaching (bound : κ) (items : List α) : Option α :=
  (items.filter (fun item => bound ≤ key item)).getLast?

/-- One arrival: it is nearer than the best element so far if its key reaches the bound and is
not greater.
-/
def nearer (bound : κ) (best : Option α) (item : α) : Option α :=
  if bound ≤ key item ∧ ∀ other ∈ best, key item ≤ key other then some item else best

/-- The latest arrival with the least key that reaches the bound. -/
def nearest (bound : κ) (arrivals : List α) : Option α := arrivals.foldl (nearer key bound) none

variable {key}

theorem falling_sortDown (items : List α) : Falling key (sortDown key items) :=
  List.pairwise_insertionSort _ items

-----------------------------------------------------------------------------------------
-- One arrival
-----------------------------------------------------------------------------------------

/-- An appended element is sorted behind all elements whose key is not less, by induction on
the sorted list.
-/
theorem sortDown_concat {items : List α} (falling : Falling key items) (item : α)
    : sortDown key (items ++ [item])
      = items.takeWhile (fun other => key item ≤ key other)
        ++ item :: items.dropWhile (fun other => key item ≤ key other) := by
  induction items with
  | nil => rfl
  | cons head tail ih =>
      obtain ⟨below, rest⟩ := List.pairwise_cons.mp falling
      have step : sortDown key (head :: tail ++ [item])
          = (sortDown key (tail ++ [item])).orderedInsert
              (fun left right => key right ≤ key left) head := rfl
      by_cases front : key item ≤ key head
      · have least : ∀ other ∈ tail ++ [item], key other ≤ key head := by
          intro other member
          rcases List.mem_append.mp member with inTail | last
          · exact below other inTail
          · rw [List.mem_singleton.mp last]
            exact front
        have first : sortDown key (head :: tail ++ [item])
            = head :: sortDown key (tail ++ [item]) :=
          List.insertionSort_cons_of_forall_rel _ least
        rw [first, ih rest, List.takeWhile_cons_of_pos (by simpa using front),
          List.dropWhile_cons_of_pos (by simpa using front), List.cons_append]
      · have none : tail.takeWhile (fun other => key item ≤ key other) = [] := by
          cases tail with
          | nil => rfl
          | cons next _ =>
              apply List.takeWhile_cons_of_neg
              simpa using lt_of_le_of_lt (below next List.mem_cons_self) (not_le.mp front)
        have all : tail.dropWhile (fun other => key item ≤ key other) = tail := by
          have whole := tail.takeWhile_append_dropWhile
            (p := fun other => decide (key item ≤ key other))
          rwa [none, List.nil_append] at whole
        have same : tail.orderedInsert (fun left right => key right ≤ key left) head
            = head :: tail := by
          cases tail with
          | nil => rfl
          | cons next _ => exact List.orderedInsert_cons_of_le _ _ (below next List.mem_cons_self)
        have behind : (item :: tail).orderedInsert (fun left right => key right ≤ key left) head
            = item :: head :: tail := by
          rw [List.orderedInsert_of_not_le (fun left right => key right ≤ key left) tail front,
            same]
        rw [step, ih rest, none, all, List.nil_append, behind, List.takeWhile_cons_of_neg (by simpa using front),
          List.dropWhile_cons_of_neg (by simpa using front), List.nil_append]

/-- Elements from the first one with a lower key on are all lower. -/
theorem lt_of_mem_dropWhile {items : List α} (falling : Falling key items) {item other : α}
    (member : other ∈ items.dropWhile (fun other => key item ≤ key other))
    : key other < key item := by
  induction items with
  | nil => cases member
  | cons head tail ih =>
      obtain ⟨below, rest⟩ := List.pairwise_cons.mp falling
      by_cases front : key item ≤ key head
      · rw [List.dropWhile_cons_of_pos (by simpa using front)] at member
        exact ih rest member
      · rw [List.dropWhile_cons_of_neg (by simpa using front)] at member
        rcases List.mem_cons.mp member with rfl | inTail
        · exact not_le.mp front
        · exact lt_of_le_of_lt (below other inTail) (not_le.mp front)

/-- The arrival of an element changes the last element that reaches a bound as the latest one
with the least such key, by cases on whether a lower key reaches the bound.
-/
theorem lastReaching_concat {items : List α} (falling : Falling key items) (bound : κ) (item : α)
    : lastReaching key bound (sortDown key (items ++ [item]))
      = nearer key bound (lastReaching key bound items) item := by
  have parts := items.takeWhile_append_dropWhile
    (p := fun other => decide (key item ≤ key other))
  have high : ∀ other ∈ items.takeWhile (fun other => key item ≤ key other),
      key item ≤ key other := by
    intro other member
    simpa using List.mem_takeWhile_imp member
  have low : ∀ other ∈ items.dropWhile (fun other => key item ≤ key other),
      key other < key item := fun other member => lt_of_mem_dropWhile falling member
  rw [sortDown_concat falling]
  generalize items.takeWhile (fun other => key item ≤ key other) = front at *
  generalize items.dropWhile (fun other => key item ≤ key other) = back at *
  subst parts
  simp only [lastReaching, nearer, List.filter_append, List.getLast?_append, List.filter_cons]
  by_cases reaches : bound ≤ key item
  · simp only [reaches, decide_true, if_true, List.getLast?_cons, true_and]
    cases closer : (back.filter (fun other => bound ≤ key other)).getLast? with
    | none =>
        rw [if_pos]
        · rfl
        · intro other found
          rw [Option.none_or] at found
          have member := List.mem_of_getLast? found
          exact high other (List.mem_of_mem_filter member)
    | some other =>
        have member := List.mem_of_getLast? closer
        have lower := low other (List.mem_of_mem_filter member)
        rw [if_neg]
        · rfl
        · intro least
          exact absurd (least other rfl) (not_le.mpr lower)
  · have nobody : back.filter (fun other => bound ≤ key other) = [] := by
      apply List.filter_eq_nil_iff.mpr
      intro other member
      simpa using lt_trans (low other member) (not_le.mp reaches)
    simp only [reaches, decide_false, Bool.false_eq_true, if_false, false_and, nobody,
      List.getLast?_nil]

-----------------------------------------------------------------------------------------
-- All arrivals
-----------------------------------------------------------------------------------------

/-- Sorting after every arrival leaves the nearest one in the last place that reaches the bound,
by induction on the arrivals.
-/
theorem lastReaching_arrivals (bound : κ) (arrivals : List α)
    : lastReaching key bound
        (arrivals.foldl (fun items item => sortDown key (items ++ [item])) [])
      = nearest key bound arrivals := by
  have along : ∀ (arrivals items : List α), Falling key items
      → lastReaching key bound
          (arrivals.foldl (fun items item => sortDown key (items ++ [item])) items)
        = arrivals.foldl (nearer key bound) (lastReaching key bound items) := by
    intro arrivals
    induction arrivals with
    | nil => exact fun _ _ => rfl
    | cons item rest ih =>
        intro items falling
        rw [List.foldl_cons, List.foldl_cons, ih _ (falling_sortDown _),
          lastReaching_concat falling]
  exact along arrivals [] .nil

theorem nearest_concat (bound : κ) (arrivals : List α) (item : α)
    : nearest key bound (arrivals ++ [item])
      = nearer key bound (nearest key bound arrivals) item := by
  rw [nearest, List.foldl_append]
  rfl

/-- The nearest arrival arrived, and its key reaches the bound. -/
theorem nearest_mem {bound : κ} {arrivals : List α} {item : α}
    (found : nearest key bound arrivals = some item)
    : item ∈ arrivals ∧ bound ≤ key item := by
  induction arrivals using List.reverseRecOn with
  | nil => cases found
  | append_singleton arrivals last ih =>
      rw [nearest_concat, nearer] at found
      by_cases nearer : bound ≤ key last ∧ ∀ other ∈ nearest key bound arrivals, key last ≤ key other
      · rw [if_pos nearer] at found
        cases found
        exact ⟨List.mem_append_right _ List.mem_cons_self, nearer.1⟩
      · rw [if_neg nearer] at found
        obtain ⟨member, reaches⟩ := ih found
        exact ⟨List.mem_append_left _ member, reaches⟩

end KeyedSort
