import Mathlib.Data.List.Basic

/-! Documents of named fields. A writer leaves some of its fields out, and a reader looks each field
up by its name; the items of a list are read one after the other.
-/

namespace Record

variable {α β δ : Type*} {name : String}

/-- The fields of a document, without those that its writer skips. -/
def present (fields : List (String × Option δ)) : List (String × δ) :=
  fields.filterMap (fun field => field.2.map (fun value => (field.1, value)))

@[simp] theorem lookup_present_nil
    : (present ([] : List (String × Option δ))).lookup name = none := rfl

/-- A field that is not skipped is found before the later ones. -/
@[simp] theorem lookup_present_cons (written : String) (value : Option δ)
    (rest : List (String × Option δ))
    : (present ((written, value) :: rest)).lookup name
      = if name = written then
          value.or ((present rest).lookup name)
        else
          (present rest).lookup name := by
  cases value with
  | none =>
      rw [Option.none_or, ite_self]
      rfl
  | some value =>
      change ((written, value) :: present rest).lookup name = _
      rw [List.lookup_cons, Option.some_or]
      by_cases same : name = written
      · rw [if_pos same, beq_iff_eq.mpr same]
      · rw [if_neg same, beq_false_of_ne same]

/-- Items that all read back are read back in order, by induction on them. -/
theorem mapM_map {write : α → δ} {read : δ → Option β} {back : α → β} {items : List α}
    (reads : ∀ item ∈ items, read (write item) = some (back item))
    : (items.map write).mapM read = some (items.map back) := by
  induction items with
  | nil => rfl
  | cons item rest ih =>
      rw [List.map_cons, List.mapM_cons, reads item List.mem_cons_self,
        ih (fun later within => reads later (.tail _ within))]
      rfl

/-- One item that does not read back makes the whole list unreadable. -/
theorem mapM_map_none {write : α → δ} {read : δ → Option β} {items : List α} {item : α}
    (member : item ∈ items) (fails : read (write item) = none)
    : (items.map write).mapM read = none := by
  induction items with
  | nil => cases member
  | cons first rest ih =>
      rw [List.map_cons, List.mapM_cons]
      rcases List.mem_cons.mp member with rfl | later
      · rw [fails]
        rfl
      · rw [ih later]
        cases read (write first) <;> rfl

end Record
