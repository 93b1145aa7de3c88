import Mathlib.Algebra.Group.Nat.Defs
import Mathlib.Data.Int.Basic

/-! Integers as double-precision numbers: rounding to the nearest one, ties to even. Doubles
carry 53 significant bits; overflow plays no role for the magnitudes that are rounded here.
-/

namespace Double

/-- The integers up to `2 ^ 53` are doubles. -/
def exactLimit : Nat := 9007199254740992

/-- The quotient rounded to nearest, ties to even. -/
def divideToEven (n unit : Nat) : Nat :=
  let quotient := n / unit
  let remainder := 2 * (n % unit)
  if remainder < unit ∨ remainder = unit ∧ quotient % 2 = 0 then quotient else quotient + 1

/-- The double nearest to a natural number; `unit` is the distance of the doubles there. -/
def roundNat (n : Nat) : Nat :=
  if n < exactLimit then
    n
  else
    let unit := 2 ^ (n.log2 - 52)
    divideToEven n unit * unit

/-- The double nearest to an integer. -/
def round (n : Int) : Int := if n < 0 then -roundNat n.natAbs else roundNat n.natAbs

theorem roundNat_of_le {n : Nat} (within : n ≤ exactLimit) : roundNat n = n := by
  rcases Nat.lt_or_eq_of_le within with below | rfl
  · exact if_pos below
  · decide +kernel

/-- Integers within the exact range are not rounded. -/
theorem round_of_le {n : Int} (lower : 0 ≤ n) (upper : n ≤ exactLimit) : round n = n := by
  unfold round
  rw [if_neg (by omega), roundNat_of_le (by omega)]
  omega

end Double
