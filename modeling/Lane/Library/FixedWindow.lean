import Mathlib.Algebra.Order.Ring.Int
import Mathlib.Data.List.Count
import Mathlib.Tactic.Linarith

/-! Counting in fixed windows. A window opens with the first admission after the last one has passed
and admits a number of times; so any stretch of time meets only the windows that open in it and the
one before them.
-/

namespace FixedWindow

/-- A window with the times of its admissions. -/
structure Window where
  start : Int
  times : List Int

/-- Windows, the latest first: each admits at most `max` times and opens at least `span` after the
one before it.
-/
inductive Windows (max : Nat) (span : Int) : List Window → Prop where
  | nil : Windows max span []
  | cons {window : Window} {rest : List Window} (few : window.times.length ≤ max)
    (after : ∀ time ∈ window.times, window.start ≤ time)
    (older : ∀ old ∈ rest, ∀ time ∈ old.times, time ≤ window.start)
    (apart : ∀ last ∈ rest.head?, last.start + span ≤ window.start)
    (windows : Windows max span rest)
    : Windows max span (window :: rest)

/-- All admissions. -/
def admissions (windows : List Window) : List Int := windows.flatMap Window.times

variable {max : Nat} {span now : Int} {window : Window} {rest windows : List Window}

theorem mem_admissions {time : Int}
    : time ∈ admissions windows ↔ ∃ window ∈ windows, time ∈ window.times :=
  List.mem_flatMap

/-- The first admission after a window has passed opens the next one. -/
theorem Windows.opens (opened : Windows max span windows) (some : 0 < max)
    (past : ∀ time ∈ admissions windows, time ≤ now)
    (apart : ∀ last ∈ windows.head?, last.start + span ≤ now)
    : Windows max span ({ start := now, times := [now] } :: windows) := by
  refine .cons some ?_ ?_ apart opened
  · intro time member
    rw [List.mem_singleton.mp member]
  · intro old member time admitted
    exact past time (mem_admissions.mpr ⟨old, member, admitted⟩)

/-- A window that has room admits once more. -/
theorem Windows.admits (opened : Windows max span (window :: rest)) (room : window.times.length < max)
    (started : window.start ≤ now)
    : Windows max span ({ window with times := now :: window.times } :: rest) := by
  cases opened with
  | cons _ after older apart windows =>
      refine .cons room ?_ older apart windows
      intro time member
      rcases List.mem_cons.mp member with rfl | admitted
      · exact started
      · exact after time admitted

/-- Since some time there were no more admissions than the windows have room that opened since, and
the one before them.
-/
theorem Windows.count_since (opened : Windows max span windows) (since : Int) (count : Nat)
    (recent : ∀ last ∈ windows.head?, last.start < since + count * span)
    : (admissions windows).countP (fun time => since ≤ time) ≤ max * (count + 1) := by
  induction opened generalizing count with
  | nil => exact Nat.zero_le _
  | @cons window rest few after older apart _ ih =>
      have own : window.times.countP (fun time => since ≤ time) ≤ max :=
        List.countP_le_length.trans few
      have bound : window.start < since + count * span := recent window rfl
      have all : (admissions (window :: rest)).countP (fun time => since ≤ time)
          = window.times.countP (fun time => since ≤ time)
            + (admissions rest).countP (fun time => since ≤ time) := by
        rw [admissions, List.flatMap_cons, List.countP_append]
        rfl
      rw [all]
      by_cases early : window.start < since
      · have none : (admissions rest).countP (fun time => since ≤ time) = 0 := by
          rw [List.countP_eq_zero]
          intro time member
          obtain ⟨old, known, admitted⟩ := mem_admissions.mp member
          have past := older old known time admitted
          simp only [decide_eq_true_eq]
          omega
        calc
          _ = window.times.countP (fun time => since ≤ time) := by rw [none, Nat.add_zero]
          _ ≤ max := own
          _ ≤ max * (count + 1) := Nat.le_mul_of_pos_right max (Nat.succ_pos count)
      · cases count with
        | zero =>
            simp only [Nat.cast_zero, zero_mul, add_zero] at bound
            exact absurd bound early
        | succ count =>
            have earlier : ∀ last ∈ rest.head?, last.start < since + count * span := by
              intro last first
              have distance := apart last first
              push_cast at bound
              linarith
            calc
              _ ≤ max + max * (count + 1) := Nat.add_le_add own (ih count earlier)
              _ = max * (count + 1 + 1) := by rw [Nat.mul_succ max (count + 1), Nat.add_comm]

/-- In any stretch of time that is so many spans long there were at most `max` admissions for each of
them, and for the window that was open at its beginning.
-/
theorem Windows.count_between (opened : Windows max span windows) (since : Int) (count : Nat)
    : (admissions windows).countP (fun time => since ≤ time ∧ time < since + count * span)
      ≤ max * (count + 1) := by
  induction opened with
  | nil => exact Nat.zero_le _
  | @cons window rest few after older apart windows ih =>
      by_cases late : since + count * span ≤ window.start
      · have none : window.times.countP (fun time => since ≤ time ∧ time < since + count * span)
            = 0 := by
          rw [List.countP_eq_zero]
          intro time member
          have started := after time member
          simp only [decide_eq_true_eq]
          omega
        rw [admissions, List.flatMap_cons, List.countP_append, none, Nat.zero_add]
        exact ih
      · refine .trans ?_
          ((Windows.cons few after older apart windows).count_since since count ?_)
        · refine List.countP_mono_left ?_
          intro time _ within
          simp only [decide_eq_true_eq] at within ⊢
          exact within.1
        · intro last first
          cases first
          exact not_le.mp late

end FixedWindow
