import Mathlib.Data.Char
import Mathlib.Data.List.Basic
import Mathlib.Tactic.Linarith

/-! Decimal numerals of a fixed width: their value, and their order among the texts that begin
with them.
-/

namespace Numeral

/-- The decimal digits of a number after as many zeros as it takes to make up the width. -/
def padded (width n : Nat) : List Char := (Nat.toDigits 10 n).leftpad width '0'

/-- The text consists of decimal digits. -/
def IsNumeral (text : List Char) : Prop := ∀ c ∈ text, c.isDigit = true

-----------------------------------------------------------------------------------------
-- The value of a numeral
-----------------------------------------------------------------------------------------

section Values

variable {n m width : Nat} {digits other rest otherRest : List Char}

theorem isNumeral_padded (width n : Nat) : IsNumeral (padded width n) := by
  intro c member
  rcases List.mem_append.mp member with zero | digit
  · rw [List.eq_of_mem_replicate zero]
    decide
  · exact Nat.isDigit_of_mem_toDigits (by decide) (by decide) digit

/-- A number that fits has a numeral of exactly that width. -/
theorem length_padded (positive : 0 < width) (fits : n < 10 ^ width)
    : (padded width n).length = width := by
  have short := (Nat.length_toDigits_le_iff (by decide) positive).mpr fits
  rw [padded, List.leftpad, List.length_append, List.length_replicate]
  omega

theorem value_padded (width n : Nat) : Nat.ofDigitChars 10 (padded width n) 0 = n := by
  rw [padded, List.leftpad, Nat.ofDigitChars_append, Nat.ofDigitChars_replicate_zero,
    Nat.mul_zero, Nat.ofDigitChars_ten_toDigits]

/-- The first digit counts as many times as there are numerals of the others. -/
theorem value_cons (c : Char) (digits : List Char)
    : Nat.ofDigitChars 10 (c :: digits) 0
      = 10 ^ digits.length * (c.toNat - 48) + Nat.ofDigitChars 10 digits 0 := by
  rw [Nat.ofDigitChars_cons, Nat.mul_zero, Nat.zero_add, Nat.ofDigitChars_eq_ofDigitChars_zero]
  rfl

/-- A numeral is worth less than the power of ten of its length, by induction on it. -/
theorem value_lt (numeral : IsNumeral digits)
    : Nat.ofDigitChars 10 digits 0 < 10 ^ digits.length := by
  induction digits with
  | nil => decide
  | cons c digits ih =>
      have last : c.toNat ≤ 57 := (Char.isDigit_iff_toNat.mp (numeral c List.mem_cons_self)).2
      have rest := ih (fun c member => numeral c (List.mem_cons_of_mem _ member))
      rw [value_cons, List.length_cons, Nat.pow_succ]
      have digit : c.toNat - 48 ≤ 9 := by omega
      have most := Nat.mul_le_mul_left (10 ^ digits.length) digit
      omega

-----------------------------------------------------------------------------------------
-- The order of texts
-----------------------------------------------------------------------------------------

/-- Texts that begin with numerals of one length are ordered as these are, if they differ; by
induction on the numerals.
-/
theorem append_lt_append (numeral : IsNumeral digits) (otherNumeral : IsNumeral other)
    (length : digits.length = other.length)
    (less : Nat.ofDigitChars 10 digits 0 < Nat.ofDigitChars 10 other 0)
    (rest otherRest : List Char)
    : digits ++ rest < other ++ otherRest := by
  induction digits generalizing other with
  | nil =>
      rw [List.eq_nil_of_length_eq_zero length.symm] at less
      exact absurd less (lt_irrefl _)
  | cons c digits ih =>
      cases other with
      | nil => cases length
      | cons d other =>
          have length : digits.length = other.length := Nat.succ.inj length
          have first : 48 ≤ d.toNat ∧ d.toNat ≤ 57 :=
            Char.isDigit_iff_toNat.mp (otherNumeral d List.mem_cons_self)
          have numeral : IsNumeral digits :=
            fun c member => numeral c (List.mem_cons_of_mem _ member)
          have otherNumeral : IsNumeral other :=
            fun c member => otherNumeral c (List.mem_cons_of_mem _ member)
          rw [value_cons, value_cons, length] at less
          rw [List.cons_append, List.cons_append, List.cons_lt_cons_iff]
          rcases lt_trichotomy c.toNat d.toNat with smaller | same | greater
          · exact .inl smaller
          · rw [same] at less
            exact .inr ⟨Char.toNat_inj.mp same, ih numeral otherNumeral length (by omega)⟩
          · -- a greater first digit outweighs all that follow
            have bound := value_lt otherNumeral
            have digit : d.toNat - 48 + 1 ≤ c.toNat - 48 := by omega
            have most := Nat.mul_le_mul_left (10 ^ other.length) digit
            rw [Nat.mul_add, Nat.mul_one] at most
            omega

/-- The padded numeral of a smaller number comes first. -/
theorem padded_append_lt (positive : 0 < width) (fits : m < 10 ^ width) (less : n < m)
    (rest otherRest : List Char)
    : padded width n ++ rest < padded width m ++ otherRest := by
  refine append_lt_append (isNumeral_padded width n) (isNumeral_padded width m) ?_ ?_ rest
    otherRest
  · rw [length_padded positive (less.trans fits), length_padded positive fits]
  · rw [value_padded, value_padded]
    exact less

end Values

end Numeral
