import Lane.Library.Ledger
import Lane.Life.Processing
import Mathlib.Data.Prod.Lex
import Mathlib.Data.String.Basic

/-! The line in which jobs wait, kept as a ledger of their entries, and how the sequence numbers
of the records date the ledger.
-/

namespace Lane

-----------------------------------------------------------------------------------------
-- The ledger of a sequence of turns
-----------------------------------------------------------------------------------------

/-- What a mark does to the ledger. -/
def Mark.record (ledger : Ledger JobId) : Mark → Ledger JobId
  | .enters id => ledger.enter id
  | .returns id => ledger.giveBack id

def recordAll (ledger : Ledger JobId) (marks : List Mark) : Ledger JobId :=
  marks.foldl Mark.record ledger

/-- The waiting sequence number of a life that waits. -/
def Life.date (l : Life) : Option Nat := if l.state = .waiting then some l.enqueuedSeq else none

def Lives.date (a : Lives) (id : JobId) : Option Nat := (a.life id).bind Life.date

section Dates

variable {o : Occasion} {a b : Lives} {marks : List Mark} {ledger : Ledger JobId} {id : JobId}
  {l after : Life}

@[simp] theorem Lives.draw_sequence (a : Lives)
    : a.draw.sequence = saturatingSucc64 a.sequence := rfl

@[simp] theorem Lives.set_sequence (a : Lives) (id : JobId) (after : Option Life)
    : (a.set id after).sequence = a.sequence := rfl

theorem Lives.date_set (a : Lives) (id : JobId) (after : Option Life)
    : (a.set id after).date = Function.update a.date id (after.bind Life.date) := by
  funext other
  simp only [Lives.date, Lives.set, Function.update_apply]
  split <;> rfl

/-- The counter never goes back. -/
theorem Turn.sequence_le (turn : Turn o a marks b) (bounded : a.sequence ≤ u64Max)
    : a.sequence ≤ b.sequence ∧ b.sequence ≤ u64Max := by
  have drawn : a.sequence ≤ saturatingSucc64 a.sequence ∧ saturatingSucc64 a.sequence ≤ u64Max := by
    unfold saturatingSucc64
    omega
  cases turn <;> first | exact drawn | exact ⟨le_refl _, bounded⟩

theorem Turns.sequence_le (turns : Turns o a marks b) (bounded : a.sequence ≤ u64Max)
    : a.sequence ≤ b.sequence ∧ b.sequence ≤ u64Max := by
  induction turns with
  | nil => exact ⟨le_refl _, bounded⟩
  | cons first _ ih =>
      obtain ⟨before, still⟩ := first.sequence_le bounded
      obtain ⟨after, last⟩ := ih still
      exact ⟨le_trans before after, last⟩

/-- A job that does not wait after a turn does not change the ledger. -/
theorem dates_idle (dates : ledger.Dates a.date a.sequence) (idle : after.state ≠ .waiting)
    : ledger.Dates (a.set id (some after)).date a.sequence := by
  refine dates.leave ?_
  intro other n known
  rw [Lives.date_set] at known
  by_cases same : other = id
  · subst same
    simp [Life.date, idle] at known
  · rw [Function.update_of_ne same] at known
    exact known

/-- A job that draws the next number takes the last place. -/
theorem dates_drawn (dates : ledger.Dates a.date a.sequence) (waiting : after.state = .waiting)
    (drawn : after.enqueuedSeq = saturatingSucc64 a.sequence)
    (unsaturated : saturatingSucc64 a.sequence < u64Max)
    : (ledger.enter id).Dates (a.draw.set id (some after)).date (saturatingSucc64 a.sequence) := by
  have next : saturatingSucc64 a.sequence = a.sequence + 1 := by
    unfold saturatingSucc64 at unsaturated ⊢
    omega
  have date : (some after).bind Life.date = some (a.sequence + 1) := by
    simp [Life.date, waiting, drawn, next]
  rw [Lives.date_set, date, next]
  exact dates.enter id

/-- A turn keeps the ledger dated while the counter is not saturated, by cases on the turn. -/
theorem Turn.dates (turn : Turn o a marks b) (dates : ledger.Dates a.date a.sequence)
    (unsaturated : b.sequence < u64Max)
    : (recordAll ledger marks).Dates b.date b.sequence := by
  cases turn with
  | claimed => exact dates_idle dates (by simp)
  | renewed _ active => exact dates_idle dates (by simp [active])
  | completed _ _ _ ended => exact dates_idle dates (by simp [ended.1])
  | failed _ _ _ ended => exact dates_idle dates (by simp [ended.1])
  | queued _ _ _ waiting _ drawn => exact dates_drawn dates waiting drawn unsaturated
  | @released id l after _ _ _ waiting _ first =>
      have date : (some after).bind Life.date = some 0 := by simp [Life.date, waiting, first]
      rw [Lives.date_set, date]
      exact dates.giveBack id
  | shelved _ _ _ shelved =>
      refine dates_idle dates ?_
      rcases shelved with state | state <;> simp [state]
  | reprioritized _ waiting => exact dates_drawn dates waiting rfl unsaturated
  | reordered _ idle => exact dates_idle dates idle
  | entered _ _ waiting _ drawn => exact dates_drawn dates waiting drawn unsaturated
  | planned _ _ planned =>
      refine dates_idle dates ?_
      rcases planned with state | state <;> simp [state]
  | dropped id =>
      refine dates.leave ?_
      intro other n known
      rw [Lives.date_set] at known
      by_cases same : other = id
      · subst same
        simp at known
      · rw [Function.update_of_ne same] at known
        exact known
  | obliterated =>
      refine dates.leave ?_
      intro other n known
      cases known

theorem recordAll_append (ledger : Ledger JobId) (marks later : List Mark)
    : recordAll ledger (marks ++ later) = recordAll (recordAll ledger marks) later :=
  List.foldl_append

/-- Turns keep the ledger dated, by induction on them. -/
theorem Turns.dates (turns : Turns o a marks b) (bounded : a.sequence ≤ u64Max)
    (dates : ledger.Dates a.date a.sequence) (unsaturated : b.sequence < u64Max)
    : (recordAll ledger marks).Dates b.date b.sequence := by
  induction turns generalizing ledger with
  | nil => exact dates
  | cons first rest ih =>
      have still := (first.sequence_le bounded).2
      have before := (rest.sequence_le still).1
      rw [recordAll_append]
      exact ih still (first.dates dates (lt_of_le_of_lt before unsaturated)) unsaturated

end Dates

end Lane
