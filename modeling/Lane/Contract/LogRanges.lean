import Lane.Job.Logs

/-! Log ranges against `LRANGE`: where a page of log lines is the range that Redis would give,
and where the clamped last index repeats a line that lies outside the range.
-/

namespace Lane

open ListRange

-----------------------------------------------------------------------------------------
-- Both directions
-----------------------------------------------------------------------------------------

/-- The range lies wholly before the first line that a page is read from. Forwards its last
index precedes the log; backwards its first index is past the oldest line, and the last one
reaches at least the oldest line.
-/
def OutsideLog (len : Nat) (start stop : Int) (ascending : Bool) : Prop :=
  0 < len
    ∧ if ascending then fromEnd len start ≤ 0 ∧ fromEnd len stop < 0
      else start ≥ len ∧ (stop = -1 ∨ stop + 1 ≥ len)

instance (len : Nat) (start stop : Int) (ascending : Bool)
    : Decidable (OutsideLog len start stop ascending) :=
  inferInstanceAs (Decidable (_ ∧ _))

/-- The lines of a page as a list range of the log read in the page's direction. -/
def ReadsRange (logs : List JobLogEntry) (start stop : Isize) (ascending : Bool) : Prop :=
  (logPage logs start stop ascending).logs
    = lrange (if ascending then logs else logs.reverse) start.val stop.val

/-- The lines of the first `pages` pages of `size` lines each. -/
def pageLines (logs : List JobLogEntry) (size pages : Nat) (ascending : Bool)
    : List JobLogEntry :=
  (List.range pages).flatMap (fun page =>
    (logPage logs (Isize.saturate (page * size : Nat))
      (Isize.saturate ((page * size : Nat) + size - 1)) ascending).logs)

variable {logs : List JobLogEntry}

/-- Backwards a page is clamped exactly when it starts past the oldest line and does not end
before it.
-/
theorem clamped_flip (fits : logs.length < isizeMax) (start stop : Isize)
    : Clamped logs.length ((stop.saturatingAdd 1).saturatingNeg).val
        ((start.saturatingAdd 1).saturatingNeg).val
      ↔ OutsideLog logs.length start.val stop.val false := by
  have first := start.val_flip
  have last := stop.val_flip
  generalize ((start.saturatingAdd 1).saturatingNeg).val = first' at *
  generalize ((stop.saturatingAdd 1).saturatingNeg).val = last' at *
  have lower := start.lower
  have lower' := stop.lower
  simp only [Clamped, OutsideLog, fromEnd, isizeMin, isizeMax, Bool.false_eq_true, if_false] at *
  split_ifs <;> omega

/-- Rounding `isize::MAX` does not change which lines a backward page selects. -/
theorem lrange_flip (fits : logs.length < isizeMax) (start stop : Isize)
    : lrange logs ((stop.saturatingAdd 1).saturatingNeg).val
        ((start.saturatingAdd 1).saturatingNeg).val
      = lrange logs (-(stop.val + 1)) (-(start.val + 1)) := by
  have first := start.val_flip
  have last := stop.val_flip
  generalize ((start.saturatingAdd 1).saturatingNeg).val = first' at *
  generalize ((stop.saturatingAdd 1).saturatingNeg).val = last' at *
  have startUpper := start.upper
  have stopUpper := stop.upper
  apply lrange_congr
  · simp only [fromEnd, isizeMax] at *
    split_ifs <;> omega
  · simp only [fromEnd, isizeMax] at *
    split_ifs <;> omega

/-- A page reads its range exactly when the range does not lie outside the log. -/
theorem readsRange_iff (fits : logs.length < isizeMax) (start stop : Isize) (ascending : Bool)
    : ReadsRange logs start stop ascending
      ↔ ¬ OutsideLog logs.length start.val stop.val ascending := by
  cases ascending with
  | true => exact redisRange_eq_lrange_iff logs start stop
  | false =>
      rw [← clamped_flip fits, ← redisRange_eq_lrange_iff, lrange_flip fits, ReadsRange, logPage]
      simp only [Bool.false_eq_true, if_false]
      rw [← reverse_lrange]
      exact List.reverse_inj

-----------------------------------------------------------------------------------------
-- Pages
-----------------------------------------------------------------------------------------

/-- A page whose indices are representable reads a stretch unless it starts past the oldest
line of a backward log.
-/
theorem page_lines (fits : logs.length < isizeMax) {size : Nat} (positive : 0 < size)
    (page : Nat) (ascending : Bool) (representable : (page * size : Nat) + (size : Int) ≤ isizeMax)
    : (logPage logs (Isize.saturate (page * size : Nat))
          (Isize.saturate ((page * size : Nat) + size - 1)) ascending).logs
        = lrange (if ascending then logs else logs.reverse) (page * size : Nat)
            ((page * size : Nat) + size - 1)
      ↔ ¬ (ascending = false ∧ 0 < logs.length ∧ logs.length ≤ page * size) := by
  have start : (Isize.saturate (page * size : Nat)).val = (page * size : Nat) := by
    apply Isize.val_saturate
    · simp only [isizeMin]
      omega
    · omega
  have stop : (Isize.saturate ((page * size : Nat) + size - 1)).val
      = (page * size : Nat) + size - 1 := by
    apply Isize.val_saturate
    · simp only [isizeMin]
      omega
    · omega
  have reads := readsRange_iff fits (Isize.saturate (page * size : Nat))
    (Isize.saturate ((page * size : Nat) + size - 1)) ascending
  rw [ReadsRange, start, stop] at reads
  rw [reads, OutsideLog]
  cases ascending with
  | true =>
      simp only [fromEnd, if_true, Bool.true_eq_false, false_and, not_false_iff, iff_true]
      split_ifs <;> omega
  | false =>
      simp only [Bool.false_eq_true, if_false, true_and]
      omega

theorem pageLines_succ (size pages : Nat) (ascending : Bool)
    : pageLines logs size (pages + 1) ascending
      = pageLines logs size pages ascending
        ++ (logPage logs (Isize.saturate (pages * size : Nat))
            (Isize.saturate ((pages * size : Nat) + size - 1)) ascending).logs := by
  rw [pageLines, List.range_succ, List.flatMap_append, List.flatMap_singleton]
  rfl

/-- Pages that start inside the log put it together, by induction on their number. -/
theorem pageLines_eq_take (fits : logs.length < isizeMax) {size : Nat} (positive : 0 < size)
    (pages : Nat) (ascending : Bool) (representable : (pages * size : Nat) ≤ isizeMax)
    (inside : ascending = true ∨ logs = [] ∨ pages * size < logs.length + size)
    : pageLines logs size pages ascending
      = (if ascending then logs else logs.reverse).take (pages * size) := by
  rw [← flatMap_pages _ positive]
  induction pages with
  | zero => rfl
  | succ pages ih =>
      have more : (pages + 1) * size = pages * size + size := Nat.succ_mul pages size
      rw [more] at representable inside
      push_cast at representable
      have read := (page_lines fits positive pages ascending (by push_cast; omega)).mpr (by
        rintro ⟨rfl, nonempty, past⟩
        rcases inside with impossible | rfl | near
        · cases impossible
        · cases nonempty
        · omega)
      have earlier := ih (by push_cast; omega) (by
        rcases inside with forward | empty | near
        · exact .inl forward
        · exact .inr (.inl empty)
        · exact .inr (.inr (by omega)))
      rw [pageLines_succ, read, earlier, List.range_succ, List.flatMap_append,
        List.flatMap_singleton]

/-- No page loses a line: backward pages have at least the lines of their stretches. -/
theorem length_take_le_pageLines (fits : logs.length < isizeMax) {size : Nat}
    (positive : 0 < size) (pages : Nat) (representable : (pages * size : Nat) ≤ isizeMax)
    : (logs.reverse.take (pages * size)).length ≤ (pageLines logs size pages false).length := by
  induction pages with
  | zero => simp
  | succ pages ih =>
      have more : (pages + 1) * size = pages * size + size := Nat.succ_mul pages size
      rw [more] at representable ⊢
      push_cast at representable
      have earlier := ih (by push_cast; omega)
      have read := page_lines fits positive pages false (by push_cast; omega)
      rw [pageLines_succ, List.take_add, List.length_append, List.length_append]
      apply Nat.add_le_add earlier
      by_cases past : logs.length ≤ pages * size
      · rw [List.drop_eq_nil_of_le (by simpa using past), List.take_nil]
        exact Nat.zero_le _
      · rw [read.mpr (fun outside => past outside.2.2), ← lrange_stretch _ _ positive]
        exact le_rfl

/-- A backward page past the oldest line repeats a line. -/
theorem pageLines_ne_take (fits : logs.length < isizeMax) {size : Nat} (positive : 0 < size)
    {pages : Nat} (representable : (pages * size : Nat) ≤ isizeMax) (nonempty : logs ≠ [])
    (past : logs.length + size ≤ pages * size)
    : pageLines logs size pages false ≠ logs.reverse.take (pages * size) := by
  cases pages with
  | zero => omega
  | succ pages =>
      have more : (pages + 1) * size = pages * size + size := Nat.succ_mul pages size
      rw [more] at representable past ⊢
      push_cast at representable
      have small : (pages * size : Nat) ≤ isizeMax := by push_cast; omega
      have all := length_take_le_pageLines fits positive pages small
      have read := page_lines fits positive pages false (by push_cast; omega)
      have blank : lrange logs.reverse (pages * size : Nat) ((pages * size : Nat) + size - 1)
          = [] := by
        rw [lrange_stretch _ _ positive, List.drop_eq_nil_of_le (by simp; omega), List.take_nil]
      have repeats := read.not.mpr (not_not.mpr
        ⟨rfl, List.length_pos_iff.mpr nonempty, by omega⟩)
      rw [if_neg Bool.false_ne_true, blank] at repeats
      have extra := List.length_pos_iff.mpr repeats
      intro same
      have lengths := congrArg List.length same
      rw [pageLines_succ, List.length_append] at lengths
      simp only [List.length_take, List.length_reverse] at lengths all
      omega

-----------------------------------------------------------------------------------------
-- The contract
-----------------------------------------------------------------------------------------

/-- Pages have `LRANGE` semantics exactly when the range does not lie outside the log. Forward
pages therefore partition the log, and backward pages do as long as none of them starts past
the oldest line.
-/
theorem log_pages_are_ranges (fits : logs.length < isizeMax)
    : (∀ start stop ascending,
        ReadsRange logs start stop ascending
        ↔ ¬ OutsideLog logs.length start.val stop.val ascending)
      ∧ ∀ size pages, 0 < size → (pages * size : Nat) ≤ isizeMax
        → pageLines logs size pages true = logs.take (pages * size)
          ∧ (pageLines logs size pages false = logs.reverse.take (pages * size)
            ↔ logs = [] ∨ pages * size < logs.length + size) := by
  refine ⟨readsRange_iff fits, fun size pages positive representable => ⟨?_, ?_⟩⟩
  · exact pageLines_eq_take fits positive pages true representable (.inl rfl)
  · constructor
    · intro same
      by_contra outside
      obtain ⟨nonempty, past⟩ := not_or.mp outside
      exact pageLines_ne_take fits positive representable nonempty (by omega) same
    · intro inside
      exact pageLines_eq_take fits positive pages false representable (.inr inside)

/-- A log of two lines, read in pages of one line each. -/
theorem log_pages_are_ranges_two_lines
    : pageLines [⟨0, "first"⟩, ⟨1, "second"⟩] 1 2 true = [⟨0, "first"⟩, ⟨1, "second"⟩]
      ∧ pageLines [⟨0, "first"⟩, ⟨1, "second"⟩] 1 2 false = [⟨1, "second"⟩, ⟨0, "first"⟩] := by
  obtain ⟨forward, backward⟩ :=
    (@log_pages_are_ranges [⟨0, "first"⟩, ⟨1, "second"⟩] (by decide)).2 1 2 (by decide) (by decide)
  exact ⟨forward, backward.mpr (.inr (by decide))⟩

/-- Reading the second page of a one-line log backwards gives its line again, and so does the
forward range that ends before the log.
-/
theorem second_page_repeats_oldest_line
    : ¬ ReadsRange [⟨0, "only"⟩] (Isize.saturate 1) (Isize.saturate 1) false
      ∧ ¬ ReadsRange [⟨0, "only"⟩] (Isize.saturate 0) (Isize.saturate (-2)) true := by
  constructor
  · intro same
    have lengths := congrArg List.length same
    revert lengths
    decide
  · intro same
    have lengths := congrArg List.length same
    revert lengths
    decide

end Lane
