import Mathlib.Algebra.Order.Field.Basic
import Mathlib.Data.List.Basic
import Mathlib.Tactic.Linarith
import Mathlib.Tactic.Ring

/-! Events that are paid for from a credit: the credit grows at a bounded rate, counts only up to
a cap, and an event costs one. Then the number of events in any stretch of time is bounded by the
cap and the growth in that stretch.
-/

namespace CreditWindow

variable {κ : Type*} [Field κ] [LinearOrder κ] [IsStrictOrderedRing κ]

/-- The events from `first` to `last`, both included. -/
def within (first last : κ) (events : List κ) : List κ :=
  events.filter (fun time => first ≤ time ∧ time ≤ last)

/-- The account of the events from `first` to `last` at the time `clock`: before the stretch there
are none, in it they and the credit that is left are paid for, and after it they are.
-/
structure Paid (cap rate first last clock credit : κ) (events : List κ) : Prop where
  before : clock < first → within first last events = []
  during
    : first ≤ clock → clock ≤ last
      → (within first last events).length + min credit cap ≤ cap + rate * (clock - first)
  after : last < clock → ((within first last events).length : κ) ≤ cap + rate * (last - first)

variable {cap rate first last clock later credit lower : κ} {events : List κ}

omit [Field κ] [IsStrictOrderedRing κ] in
theorem within_concat (first last : κ) (events : List κ) (time : κ)
    : within first last (events ++ [time])
      = within first last events ++ (if first ≤ time ∧ time ≤ last then [time] else []) := by
  rw [within, List.filter_append, within]
  congr 1
  by_cases inside : first ≤ time ∧ time ≤ last
  · rw [if_pos inside, List.filter_cons_of_pos (by simpa using inside), List.filter_nil]
  · rw [if_neg inside, List.filter_cons_of_neg (by simpa using inside), List.filter_nil]

/-- Without events everything is paid for. -/
theorem paid_nil (cap_nonneg : 0 ≤ cap) (rate_nonneg : 0 ≤ rate) (ordered : first ≤ last)
    : Paid cap rate first last clock credit [] where
  before _ := rfl
  during started _ := by
    have growth : 0 ≤ rate * (clock - first) := mul_nonneg rate_nonneg (sub_nonneg.mpr started)
    have capped : min credit cap ≤ cap := min_le_right _ _
    simp only [within, List.filter_nil, List.length_nil, Nat.cast_zero]
    linarith
  after _ := by
    have growth : 0 ≤ rate * (last - first) := mul_nonneg rate_nonneg (sub_nonneg.mpr ordered)
    simp only [within, List.filter_nil, List.length_nil, Nat.cast_zero]
    linarith

/-- Losing credit above or below the cap keeps the account. -/
theorem Paid.lose (paid : Paid cap rate first last clock credit events)
    (less : min lower cap ≤ min credit cap)
    : Paid cap rate first last clock lower events where
  before := paid.before
  during started going := le_trans (by linarith) (paid.during started going)
  after := paid.after

/-- The events of a stretch are bounded by the cap and the growth in it. -/
theorem Paid.bound (paid : Paid cap rate first last clock credit events) (cap_nonneg : 0 ≤ cap)
    (rate_nonneg : 0 ≤ rate) (ordered : first ≤ last) (credit_nonneg : 0 ≤ credit)
    : ((within first last events).length : κ) ≤ cap + rate * (last - first) := by
  have growth : 0 ≤ rate * (last - first) := mul_nonneg rate_nonneg (sub_nonneg.mpr ordered)
  rcases lt_or_ge clock first with early | started
  · rw [paid.before early, List.length_nil, Nat.cast_zero]
    linarith
  · rcases lt_or_ge last clock with ended | going
    · exact paid.after ended
    · have account := paid.during started going
      have left : 0 ≤ min credit cap := le_min credit_nonneg cap_nonneg
      have elapsed : rate * (clock - first) ≤ rate * (last - first) :=
        mul_le_mul_of_nonneg_left (by linarith) rate_nonneg
      linarith

/-- Time goes on and the credit grows with the rate. -/
theorem Paid.advance (paid : Paid cap rate first last clock credit events)
    (cap_nonneg : 0 ≤ cap) (rate_nonneg : 0 ≤ rate) (ordered : first ≤ last)
    (credit_nonneg : 0 ≤ credit) (goes : clock ≤ later)
    : Paid cap rate first last later (credit + rate * (later - clock)) events where
  before early := paid.before (lt_of_le_of_lt goes early)
  during started going := by
    have capped : min (credit + rate * (later - clock)) cap ≤ cap := min_le_right _ _
    rcases lt_or_ge clock first with early | begun
    · have growth : 0 ≤ rate * (later - first) := mul_nonneg rate_nonneg (by linarith)
      rw [paid.before early, List.length_nil, Nat.cast_zero]
      linarith
    · have account := paid.during begun (le_trans goes going)
      have growth : 0 ≤ rate * (later - clock) := mul_nonneg rate_nonneg (by linarith)
      have split : rate * (later - first) = rate * (clock - first) + rate * (later - clock) := by
        ring
      have grown : min (credit + rate * (later - clock)) cap
          ≤ min credit cap + rate * (later - clock) := by
        rcases min_cases credit cap with ⟨same, _⟩ | ⟨same, _⟩
        · rw [same]
          exact min_le_left _ _
        · rw [same]
          linarith
      linarith
  after _ := paid.bound cap_nonneg rate_nonneg ordered credit_nonneg

/-- An event at the present time costs one, unless the credit exceeded the cap. -/
theorem Paid.spend (paid : Paid cap rate first last clock credit events)
    (capped : credit ≤ cap)
    : Paid cap rate first last clock (credit - 1) (events ++ [clock]) where
  before early := by
    rw [within_concat, if_neg (fun inside => absurd inside.1 (not_le.mpr early)),
      List.append_nil]
    exact paid.before early
  during started going := by
    have account := paid.during started going
    rw [min_eq_left capped] at account
    rw [within_concat, if_pos ⟨started, going⟩, List.length_append, List.length_singleton]
    push_cast
    have less : min (credit - 1) cap ≤ credit - 1 := min_le_left _ _
    linarith
  after ended := by
    rw [within_concat, if_neg (fun inside => absurd inside.2 (not_le.mpr ended)),
      List.append_nil]
    exact paid.after ended

end CreditWindow
