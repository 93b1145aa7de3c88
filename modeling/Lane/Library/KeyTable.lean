import Mathlib.Data.Set.Defs
import Mathlib.Tactic.TypeStar

/-! Tables whose records may hold a key, and tables in which every key has at most one
holder. The table is its lookup function, so the laws hold for every representation.
-/

namespace KeyTable

variable {ι ρ κ : Type*}

/-- The record at `i` holds the key `k`. -/
def Holds (key : ρ → Option κ) (table : ι → Option ρ) (k : κ) (i : ι) : Prop :=
  ∃ record, table i = some record ∧ key record = some k

/-- No key has two holders. -/
def Unique (key : ρ → Option κ) (table : ι → Option ρ) : Prop :=
  ∀ k i j, Holds key table k i → Holds key table k j → i = j

variable {key newKey : ρ → Option κ} {table newTable : ι → Option ρ}

/-- The empty table has no holders at all. -/
theorem unique_empty : Unique key (fun _ : ι => none) := by
  rintro k i j ⟨record, found, _⟩ _
  cases found

theorem Unique.eq {k : κ} {i j : ι} (unique : Unique key table) (first : Holds key table k i)
    (second : Holds key table k j)
    : i = j :=
  unique k i j first second

/-- Fewer holders stay unique, also under another key function. -/
theorem Unique.of_holds_subset (unique : Unique key table)
    (within : ∀ k i, Holds newKey newTable k i → Holds key table k i)
    : Unique newKey newTable := by
  intro k i j first second
  exact unique.eq (within k i first) (within k j second)

/-- Records that are new at `fresh` keep keys unique when each of their keys is held by no
old record and by no other new one.
-/
theorem Unique.add (fresh : Set ι) (unique : Unique key table)
    (within : ∀ k i, i ∉ fresh → Holds newKey newTable k i → Holds key table k i)
    (unheld : ∀ k i j, i ∈ fresh → Holds newKey newTable k i → j ∉ fresh → ¬ Holds key table k j)
    (distinct : ∀ k i j, i ∈ fresh → j ∈ fresh → Holds newKey newTable k i →
      Holds newKey newTable k j → i = j)
    : Unique newKey newTable := by
  intro k i j first second
  by_cases newFirst : i ∈ fresh
  · by_cases newSecond : j ∈ fresh
    · exact distinct k i j newFirst newSecond first second
    · exact absurd (within k j newSecond second) (unheld k i j newFirst first newSecond)
  · by_cases newSecond : j ∈ fresh
    · exact absurd (within k i newFirst first) (unheld k j i newSecond second newFirst)
    · exact unique.eq (within k i newFirst first) (within k j newSecond second)

/-- One new record keeps keys unique when no other record holds its key. -/
theorem Unique.addOne (fresh : ι) (unique : Unique key table)
    (within : ∀ k i, i ≠ fresh → Holds newKey newTable k i → Holds key table k i)
    (unheld : ∀ k j, Holds newKey newTable k fresh → j ≠ fresh → ¬ Holds key table k j)
    : Unique newKey newTable := by
  refine unique.add {i | i = fresh} within ?_ ?_
  · rintro k i j rfl holds different
    exact unheld k j holds different
  · rintro k i j rfl rfl _ _
    rfl

end KeyTable
