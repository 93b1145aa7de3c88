import Mathlib.Algebra.Order.Ring.Int
import Mathlib.Data.List.Count
import Mathlib.Tactic.Linarith

/-! Admission by a sliding window: a time is admitted when fewer than so many were admitted in the
window that ends with it. Then every window of that length has room for so many, wherever it begins.
-/

namespace SlidingWindow

/-- Times, the earliest first, each admitted by the window that ends with it. -/
inductive Admitted (max : Nat) (window : Int) : List Int → Prop where
  | nil : Admitted max window []
  | concat {times : List Int} {now : Int} (admitted : Admitted max window times)
    (past : ∀ time ∈ times, time ≤ now)
    (room : times.countP (fun time => now - window < time) < max)
    : Admitted max window (times ++ [now])

variable {max : Nat} {window : Int} {times : List Int}

/-- What satisfies one of two conditions is counted by one of them. -/
theorem countP_le_add {either left right : Int → Prop} [DecidablePred either] [DecidablePred left]
    [DecidablePred right] (split : ∀ time, either time → left time ∨ right time)
    : times.countP (fun time => either time)
      ≤ times.countP (fun time => left time) + times.countP (fun time => right time) := by
  induction times with
  | nil => exact Nat.le_refl _
  | cons time rest ih =>
      have one := split time
      simp only [List.countP_cons, decide_eq_true_eq]
      split_ifs <;> first | omega | tauto

/-- A window that holds the latest admission begins after the one that admitted it. -/
theorem Admitted.count_window (admitted : Admitted max window times) (since : Int)
    : times.countP (fun time => since ≤ time ∧ time < since + window) ≤ max := by
  induction admitted with
  | nil => exact Nat.zero_le _
  | @concat times now _ past room ih =>
      rw [List.countP_append, List.countP_singleton]
      by_cases held : since ≤ now ∧ now < since + window
      · have fewer : times.countP (fun time => since ≤ time ∧ time < since + window)
            ≤ times.countP (fun time => now - window < time) := by
          refine List.countP_mono_left ?_
          intro time _ within
          simp only [decide_eq_true_eq] at within ⊢
          omega
        rw [if_pos (decide_eq_true held)]
        omega
      · rw [if_neg (by simpa using held), Nat.add_zero]
        exact ih

/-- A stretch of time that is so many windows long has room for so many times the maximum. -/
theorem Admitted.count_between (admitted : Admitted max window times) (since : Int) (count : Nat)
    : times.countP (fun time => since ≤ time ∧ time < since + count * window) ≤ max * count := by
  induction count with
  | zero =>
      rw [Nat.mul_zero, Nat.le_zero, List.countP_eq_zero]
      intro time _
      simp only [decide_eq_true_eq]
      push_cast
      omega
  | succ count ih =>
      have next := admitted.count_window (since + count * window)
      have split : times.countP (fun time => since ≤ time ∧ time < since + (count + 1 : Nat) * window)
          ≤ times.countP (fun time => since ≤ time ∧ time < since + count * window)
            + times.countP (fun time =>
                since + count * window ≤ time ∧ time < since + count * window + window) := by
        refine countP_le_add ?_
        intro time
        push_cast
        rintro ⟨after, before⟩
        rcases lt_or_ge time (since + count * window) with earlier | later
        · exact .inl ⟨after, earlier⟩
        · exact .inr ⟨later, by linarith⟩
      calc
        _ ≤ max * count + max := split.trans (Nat.add_le_add ih next)
        _ = max * (count + 1) := (Nat.mul_succ max count).symm

end SlidingWindow
