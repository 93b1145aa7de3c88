import Mathlib.Algebra.Order.Ring.Int
import Mathlib.Order.Compare

/-! Comparisons of linear orders: when two of them agree, and how numbers that are packed into
buckets compare.
-/

/-- A comparison is decided by the two strict orders. -/
theorem compare_congr {α β : Type} [LinearOrder α] [LinearOrder β] {x y : α} {p q : β}
    (lower : x < y ↔ p < q) (higher : y < x ↔ q < p)
    : compare x y = compare p q := by
  rcases lt_trichotomy p q with less | rfl | greater
  · rw [compare_lt_iff_lt.mpr less, compare_lt_iff_lt.mpr (lower.mpr less)]
  · have same : x = y :=
      le_antisymm (not_lt.mp (higher.not.mpr (lt_irrefl p))) (not_lt.mp (lower.not.mpr (lt_irrefl p)))
    rw [compare_eq_iff_eq.mpr same, compare_eq_iff_eq.mpr rfl]
  · rw [compare_gt_iff_gt.mpr greater, compare_gt_iff_gt.mpr (higher.mpr greater)]

/-- Comparing packed numbers compares the buckets and then the places in them. -/
theorem compare_packed {bucket : Int} {p q : Nat} {left right : Int}
    (leftBounds : 0 ≤ left ∧ left < bucket) (rightBounds : 0 ≤ right ∧ right < bucket)
    : compare (p * bucket + left) (q * bucket + right)
      = (compare p q).then (compare left right) := by
  rcases lt_trichotomy p q with lower | rfl | higher
  · have apart : ((p : Int) + 1) * bucket ≤ q * bucket :=
      mul_le_mul_of_nonneg_right (by omega) (by omega)
    rw [compare_lt_iff_lt.mpr lower, compare_lt_iff_lt.mpr]
    · rfl
    · rw [add_mul, one_mul] at apart
      omega
  · rw [compare_eq_iff_eq.mpr rfl, Ordering.eq_then]
    exact compare_congr (by omega) (by omega)
  · have apart : ((q : Int) + 1) * bucket ≤ p * bucket :=
      mul_le_mul_of_nonneg_right (by omega) (by omega)
    rw [compare_gt_iff_gt.mpr higher, compare_gt_iff_gt.mpr]
    · rfl
    · rw [add_mul, one_mul] at apart
      omega
