import Mathlib.Data.List.Sort

/-! Entries with their times, newest first, and the retention that removes the entries that are too
old and those that are too many.
-/

namespace NewestFirst

variable {ι τ υ : Type*}

-----------------------------------------------------------------------------------------
-- The order of entries
-----------------------------------------------------------------------------------------

section Orders

variable [LinearOrder ι] [LinearOrder τ] {entries others : List (ι × τ)}

/-- Later times come first, and greater ids among equal times. -/
def Newer (left right : ι × τ) : Prop :=
  right.2 < left.2 ∨ right.2 = left.2 ∧ right.1 < left.1

/-- The entries are listed newest first. -/
def Ordered (entries : List (ι × τ)) : Prop := entries.Pairwise Newer

instance : Std.Irrefl (α := ι × τ) Newer where
  irrefl entry := by
    rintro (later | ⟨_, greater⟩)
    · exact lt_irrefl _ later
    · exact lt_irrefl _ greater

instance : Std.Antisymm (α := ι × τ) Newer where
  antisymm left right := by
    rintro (later | ⟨same, greater⟩) (back | ⟨same, less⟩)
    · exact absurd later back.asymm
    · exact absurd same later.ne'
    · exact absurd same back.ne'
    · exact absurd greater less.asymm

/-- Ordered entries are determined by their members. -/
theorem Ordered.eq_of_mem_iff (ordered : Ordered entries) (otherOrdered : Ordered others)
    (same : ∀ entry, entry ∈ entries ↔ entry ∈ others)
    : entries = others :=
  List.Pairwise.eq_of_mem_iff ordered otherOrdered same

theorem Ordered.filter (ordered : Ordered entries) (keeps : ι × τ → Bool)
    : Ordered (entries.filter keeps) :=
  List.Pairwise.sublist List.filter_sublist ordered

/-- Times that are mapped in their order keep the entries ordered. -/
theorem Ordered.map [LinearOrder υ] {f : τ → υ} (ordered : Ordered entries) (mono : StrictMono f)
    : Ordered (entries.map (fun entry => (entry.1, f entry.2))) := by
  rw [Ordered, List.pairwise_map]
  apply List.Pairwise.imp _ ordered
  rintro left right (later | ⟨same, greater⟩)
  · exact .inl (mono later)
  · exact .inr ⟨congrArg f same, greater⟩

/-- Weakly ordered entries with distinct ids are ordered. -/
theorem ordered_of_weakly
    (weakly
      : entries.Pairwise (fun left right =>
          right.2 < left.2 ∨ right.2 = left.2 ∧ right.1 ≤ left.1))
    (distinct : (entries.map Prod.fst).Nodup)
    : Ordered entries := by
  apply List.Pairwise.imp _ (weakly.and (List.pairwise_map.mp distinct))
  rintro left right ⟨later | ⟨same, greater⟩, different⟩
  · exact .inl later
  · exact .inr ⟨same, lt_of_le_of_ne greater different.symm⟩

end Orders

-----------------------------------------------------------------------------------------
-- Retention
-----------------------------------------------------------------------------------------

section Retention

variable [DecidableEq ι] {old : τ → Bool} {limit : Nat} {count : Option Nat}
  {entries : List (ι × τ)}

/-- The first entries that are old, up to a limit. -/
def aged (old : τ → Bool) (limit : Nat) (entries : List (ι × τ)) : List ι :=
  ((entries.filter (fun entry => old entry.2)).take limit).map Prod.fst

/-- The entries behind the first ones that are kept. -/
def surplus (count : Option Nat) (entries : List (ι × τ)) : List ι :=
  match count with
  | none => []
  | some count => (entries.drop count).map Prod.fst

/-- The entries that are not among those. -/
def without (ids : List ι) (entries : List (ι × τ)) : List (ι × τ) :=
  entries.filter (fun entry => entry.1 ∉ ids)

/-- What retention removes: old entries up to a limit, and of the rest all but the newest. -/
def victims (old : τ → Bool) (limit : Nat) (count : Option Nat) (entries : List (ι × τ))
    : List ι :=
  aged old limit entries ++ surplus count (without (aged old limit entries) entries)

omit [DecidableEq ι] in
theorem surplus_map (f : τ → υ)
    : surplus count (entries.map (fun entry => (entry.1, f entry.2))) = surplus count entries := by
  cases count with
  | none => rfl
  | some count =>
      rw [surplus, surplus, ← List.map_drop, List.map_map]
      rfl

/-- Retention reads the times only through what is old. -/
theorem victims_map {old : υ → Bool} (f : τ → υ)
    : victims old limit count (entries.map (fun entry => (entry.1, f entry.2)))
      = victims (fun time => old (f time)) limit count entries := by
  have agedSame : aged old limit (entries.map (fun entry => (entry.1, f entry.2)))
      = aged (fun time => old (f time)) limit entries := by
    rw [aged, aged, List.filter_map, ← List.map_take, List.map_map]
    rfl
  rw [victims, victims, agedSame, without, List.filter_map, surplus_map]
  rfl

/-- Only entries are removed. -/
theorem mem_of_mem_victims {id : ι} (member : id ∈ victims old limit count entries)
    : ∃ time, (id, time) ∈ entries := by
  rcases List.mem_append.mp member with isOld | isSurplus
  · obtain ⟨⟨_, time⟩, found, rfl⟩ := List.mem_map.mp isOld
    exact ⟨time, (List.mem_filter.mp (List.mem_of_mem_take found)).1⟩
  · cases count with
    | none => cases isSurplus
    | some count =>
        obtain ⟨⟨_, time⟩, found, rfl⟩ := List.mem_map.mp isSurplus
        exact ⟨time, (List.mem_filter.mp (List.mem_of_mem_drop found)).1⟩

/-- The newest entry is removed when it is old. -/
theorem head_mem_victims {entry : ι × τ} {rest : List (ι × τ)} (isOld : old entry.2 = true)
    (removes : 0 < limit)
    : entry.1 ∈ victims old limit count (entry :: rest) := by
  obtain ⟨limit, rfl⟩ := Nat.exists_eq_succ_of_ne_zero removes.ne'
  have first : (entry :: rest).filter (fun entry => old entry.2)
      = entry :: rest.filter (fun entry => old entry.2) :=
    List.filter_cons_of_pos isOld
  apply List.mem_append_left
  rw [aged, first]
  exact List.mem_cons_self

/-- The newest entry stays when none is old and some are kept. -/
theorem head_not_mem_victims {entry : ι × τ} {rest : List (ι × τ)}
    (distinct : ((entry :: rest).map Prod.fst).Nodup)
    (young : ∀ other ∈ entry :: rest, old other.2 = false) (keeps : count ≠ some 0)
    : entry.1 ∉ victims old limit count (entry :: rest) := by
  have none : aged old limit (entry :: rest) = [] := by
    rw [aged, List.filter_eq_nil_iff.mpr]
    · simp
    · intro other member
      simp [young other member]
  have whole : without ([] : List ι) (entry :: rest) = entry :: rest := by
    simp [without]
  rw [victims, none, whole, List.nil_append]
  cases count with
  | none => exact List.not_mem_nil
  | some count =>
      obtain ⟨count, rfl⟩ := Nat.exists_eq_succ_of_ne_zero (fun zero => keeps (congrArg some zero))
      rw [surplus, List.drop_succ_cons, List.map_drop]
      exact fun member => (List.nodup_cons.mp distinct).1 (List.mem_of_mem_drop member)

end Retention

end NewestFirst
