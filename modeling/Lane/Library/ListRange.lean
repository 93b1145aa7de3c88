import Mathlib.Algebra.Order.Group.Int
import Mathlib.Data.List.Basic
import Mathlib.Data.List.Flatten

/-! Ranges of a list in the manner of the Redis command `LRANGE`: both ends are included, and
negative indices count from the end of the list.
-/

namespace ListRange

variable {α : Type*}

/-- The entries at the positions `first..=last`. -/
def slice (items : List α) (first last : Nat) : List α := (items.take (last + 1)).drop first

/-- A negative index counts from the end. -/
def fromEnd (length : Nat) (index : Int) : Int := if index < 0 then length + index else index

/-- `LRANGE`: the first index is raised to zero and the last one lowered to the last entry. -/
def lrange (items : List α) (start stop : Int) : List α :=
  let first := max 0 (fromEnd items.length start)
  let last := fromEnd items.length stop
  if first > last ∨ first ≥ items.length then []
  else slice items first.toNat (min last (items.length - 1)).toNat

-----------------------------------------------------------------------------------------
-- Slices
-----------------------------------------------------------------------------------------

theorem length_slice (items : List α) {first last : Nat} (inside : last < items.length)
    : (slice items first last).length = last + 1 - first := by
  rw [slice, List.length_drop, List.length_take, Nat.min_eq_left inside]

/-- A slice seen from the other end. -/
theorem reverse_slice (items : List α) {first last : Nat} (ordered : first ≤ last)
    (inside : last < items.length)
    : (slice items first last).reverse
      = slice items.reverse (items.length - 1 - last) (items.length - 1 - first) := by
  have shorter : (items.take (last + 1)).length = last + 1 := by simp; omega
  have near : items.length - 1 - first + 1 = items.length - first := by omega
  have far : items.length - 1 - last = items.length - (last + 1) := by omega
  have wide : items.length - first - (items.length - (last + 1)) = last + 1 - first := by omega
  rw [slice, List.reverse_drop, shorter, List.reverse_take, slice, near, far, List.drop_take,
    wide]

-----------------------------------------------------------------------------------------
-- Ranges
-----------------------------------------------------------------------------------------

theorem lrange_eq_nil (items : List α) {start stop : Int}
    (outside : max 0 (fromEnd items.length start) > fromEnd items.length stop
      ∨ max 0 (fromEnd items.length start) ≥ items.length)
    : lrange items start stop = [] :=
  if_pos outside

/-- A range that is not empty is the slice between its two positions. -/
theorem lrange_eq_slice (items : List α) {start stop : Int} {first last : Nat}
    (starts : max 0 (fromEnd items.length start) = first)
    (stops : min (fromEnd items.length stop) (items.length - 1) = last)
    (ordered : first ≤ last)
    : lrange items start stop = slice items first last := by
  have inside : ¬ ((first : Int) > fromEnd items.length stop ∨ (first : Int) ≥ items.length) := by
    omega
  rw [lrange]
  simp only [starts, stops, Int.toNat_natCast]
  exact if_neg inside

/-- Only the position of the first index, and that of a last index inside the list, matter. -/
theorem lrange_congr (items : List α) {start start' stop stop' : Int}
    (starts : max 0 (fromEnd items.length start) = max 0 (fromEnd items.length start'))
    (stops : max (-1) (fromEnd items.length stop) = max (-1) (fromEnd items.length stop'))
    : lrange items start stop = lrange items start' stop' := by
  by_cases outside : max 0 (fromEnd items.length start') > fromEnd items.length stop'
      ∨ max 0 (fromEnd items.length start') ≥ items.length
  · rw [lrange_eq_nil items outside, lrange_eq_nil items (by omega)]
  · have same : fromEnd items.length stop = fromEnd items.length stop' := by omega
    simp only [lrange, starts, same]

/-- The reversed list has the range whose two ends are counted from the other side. -/
theorem reverse_lrange (items : List α) (start stop : Int)
    : (lrange items (-(stop + 1)) (-(start + 1))).reverse = lrange items.reverse start stop := by
  by_cases outside : max 0 (fromEnd items.length start) > fromEnd items.length stop
      ∨ max 0 (fromEnd items.length start) ≥ items.length
  · rw [lrange_eq_nil items.reverse (by simpa using outside), lrange_eq_nil, List.reverse_nil]
    unfold fromEnd at *
    split_ifs at * <;> omega
  · obtain ⟨first, starts⟩ := Int.eq_ofNat_of_zero_le
      (le_max_left 0 (fromEnd items.length start))
    obtain ⟨last, stops⟩ := Int.eq_ofNat_of_zero_le
      (show 0 ≤ min (fromEnd items.length stop) (items.length - 1) by omega)
    have ordered : first ≤ last := by omega
    have inside : last < items.length := by omega
    have turned : lrange items (-(stop + 1)) (-(start + 1))
        = slice items (items.length - 1 - last) (items.length - 1 - first) := by
      apply lrange_eq_slice
      · unfold fromEnd at *
        split_ifs at * <;> omega
      · unfold fromEnd at *
        split_ifs at * <;> omega
      · omega
    have straight : lrange items.reverse start stop = slice items.reverse first last := by
      apply lrange_eq_slice
      · rw [List.length_reverse, starts]
      · rw [List.length_reverse, stops]
      · exact ordered
    have near : items.length - 1 - (items.length - 1 - first) = first := by omega
    have far : items.length - 1 - (items.length - 1 - last) = last := by omega
    rw [turned, straight, reverse_slice items (by omega) (by omega), near, far]

/-- Non-negative indices select a stretch of the list. -/
theorem lrange_stretch (items : List α) (first : Nat) {count : Nat} (positive : 0 < count)
    : lrange items first (first + count - 1) = (items.drop first).take count := by
  by_cases outside : items.length ≤ first
  · rw [lrange_eq_nil]
    · rw [List.drop_eq_nil_of_le outside, List.take_nil]
    · unfold fromEnd
      split_ifs <;> omega
  · have shape : lrange items first (first + count - 1)
        = slice items first (min (first + count - 1) (items.length - 1)) := by
      apply lrange_eq_slice
      · unfold fromEnd
        split_ifs <;> omega
      · unfold fromEnd
        split_ifs <;> omega
      · omega
    rw [shape, slice, List.drop_take]
    rcases Nat.le_total (first + count) items.length with within | beyond
    · congr 1
      omega
    · rw [List.take_of_length_le, List.take_of_length_le]
      · rw [List.length_drop]
        omega
      · rw [List.length_drop]
        omega

/-- From the first to the last entry. -/
theorem lrange_all (items : List α) : lrange items 0 (-1) = items := by
  have whole : ∀ length : Nat, fromEnd length (-1) = length - 1 := by
    intro length
    unfold fromEnd
    split_ifs <;> omega
  cases items with
  | nil => rfl
  | cons head rest =>
      have shape : lrange (head :: rest) 0 (-1) = slice (head :: rest) 0 rest.length := by
        apply lrange_eq_slice
        · rfl
        · rw [whole]
          simp
        · omega
      rw [shape, slice, List.drop_zero, List.take_of_length_le (by simp)]

/-- Consecutive pages put together are the beginning of the list. -/
theorem flatMap_pages (items : List α) {size : Nat} (positive : 0 < size) (pages : Nat)
    : (List.range pages).flatMap (fun page =>
        lrange items (page * size : Nat) ((page * size : Nat) + size - 1))
      = items.take (pages * size) := by
  induction pages with
  | zero => simp
  | succ pages ih =>
      rw [List.range_succ, List.flatMap_append, ih, List.flatMap_singleton,
        lrange_stretch items (pages * size) positive, Nat.succ_mul, List.take_add]

end ListRange
