import Mathlib.Data.List.Sort
import Mathlib.Data.List.Pairwise

/-! A waiting line that is kept as the history of its entries: members that entered it, in the
order of their last entries, and members that were given back to its front. Counting the
entries with a clock dates the members, and the dates tell the order of the line.
-/

/-- The members of a line by their last entries, and those that were given back, in order. -/
structure Ledger (α : Type*) where
  entered : List α := []
  returned : List α := []

namespace Ledger

variable {α : Type*}

/-- In a list ordered by a relation, an element that is related to all others is the head. -/
theorem head_of_least {id : α} {r : α → α → Prop} {ids : List α} (ordered : ids.Pairwise r)
    (member : id ∈ ids) (least : ∀ other ∈ ids, r other id → other = id)
    : ids.head? = some id := by
  cases ordered with
  | nil => cases member
  | cons before _ =>
      rcases List.mem_cons.mp member with rfl | later
      · rfl
      · rw [List.head?_cons, least _ List.mem_cons_self (before id later)]

variable [LinearOrder α]

/-- The member takes the last place. -/
def enter (l : Ledger α) (id : α) : Ledger α :=
  { entered := l.entered.filter (· ≠ id) ++ [id]
    returned := l.returned.filter (· ≠ id) }

/-- The member is given back. -/
def giveBack (l : Ledger α) (id : α) : Ledger α :=
  { entered := l.entered.filter (· ≠ id)
    returned := (l.returned.filter (· ≠ id)).orderedInsert (· ≤ ·) id }

/-- The dates of those who wait agree with the ledger: zero for a member that was given back,
otherwise the clock at its last entry.
-/
structure Dates (l : Ledger α) (date : α → Option ℕ) (clock : ℕ) : Prop where
  returned : ∀ {id}, date id = some 0 → id ∈ l.returned
  entered : ∀ {id n}, date id = some n → n ≠ 0 → id ∈ l.entered ∧ n ≤ clock
  given : ∀ {id n}, id ∈ l.returned → date id = some n → n = 0
  dated : ∀ {id n}, id ∈ l.entered → date id = some n → n ≠ 0
  ordered
    : l.entered.Pairwise (fun left right =>
        ∀ m n, date left = some m → date right = some n → m < n)
  sorted : l.returned.Pairwise (· ≤ ·)

variable {l : Ledger α} {date : α → Option ℕ} {clock n : ℕ} {id : α}

theorem dates_empty {date : α → Option ℕ} (nobody : ∀ id, date id = none)
    : ({} : Ledger α).Dates date clock where
  returned known := by
    rw [nobody] at known
    cases known
  entered known := by
    rw [nobody] at known
    cases known
  given member := nomatch member
  dated member := nomatch member
  ordered := .nil
  sorted := .nil

/-- Members that stop waiting do not change the ledger. -/
theorem Dates.leave (dates : l.Dates date clock) {later : α → Option ℕ}
    (left : ∀ id n, later id = some n → date id = some n)
    : l.Dates later clock where
  returned known := dates.returned (left _ _ known)
  entered known drawn := dates.entered (left _ _ known) drawn
  given member known := dates.given member (left _ _ known)
  dated member known := dates.dated member (left _ _ known)
  ordered := dates.ordered.imp (fun before m n leftKnown rightKnown =>
    before m n (left _ _ leftKnown) (left _ _ rightKnown))
  sorted := dates.sorted

/-- An entry is dated by the next tick of the clock. -/
theorem Dates.enter (dates : l.Dates date clock) (id : α)
    : (l.enter id).Dates (Function.update date id (some (clock + 1))) (clock + 1) where
  returned := by
    intro other known
    by_cases same : other = id
    · subst same
      rw [Function.update_self] at known
      cases known
    · rw [Function.update_of_ne same] at known
      simp [Ledger.enter, same, dates.returned known]
  entered := by
    intro other n known drawn
    by_cases same : other = id
    · subst same
      rw [Function.update_self] at known
      cases known
      simp [Ledger.enter]
    · rw [Function.update_of_ne same] at known
      obtain ⟨member, before⟩ := dates.entered known drawn
      exact ⟨by simp [Ledger.enter, same, member], by omega⟩
  given := by
    intro other n member known
    simp only [Ledger.enter, List.mem_filter, decide_eq_true_eq] at member
    rw [Function.update_of_ne member.2] at known
    exact dates.given member.1 known
  dated := by
    intro other n member known
    by_cases same : other = id
    · subst same
      rw [Function.update_self] at known
      cases known
      exact Nat.succ_ne_zero _
    · rw [Function.update_of_ne same] at known
      simp only [Ledger.enter, List.mem_append, List.mem_filter, decide_eq_true_eq,
        List.mem_singleton, same, or_false] at member
      exact dates.dated member.1 known
  ordered := by
    refine List.pairwise_append.mpr ⟨?_, List.pairwise_singleton _ _, ?_⟩
    · refine (dates.ordered.filter _).imp_of_mem ?_
      intro left right leftIn rightIn before m n leftKnown rightKnown
      simp only [List.mem_filter, decide_eq_true_eq] at leftIn rightIn
      rw [Function.update_of_ne leftIn.2] at leftKnown
      rw [Function.update_of_ne rightIn.2] at rightKnown
      exact before m n leftKnown rightKnown
    · intro left leftIn right rightIn m n leftKnown rightKnown
      obtain rfl := List.mem_singleton.mp rightIn
      simp only [List.mem_filter, decide_eq_true_eq] at leftIn
      rw [Function.update_of_ne leftIn.2] at leftKnown
      rw [Function.update_self] at rightKnown
      cases rightKnown
      have drawn := dates.dated leftIn.1 leftKnown
      have before := (dates.entered leftKnown drawn).2
      omega
  sorted := dates.sorted.filter _

/-- A member that is given back is dated zero. -/
theorem Dates.giveBack (dates : l.Dates date clock) (id : α)
    : (l.giveBack id).Dates (Function.update date id (some 0)) clock where
  returned := by
    intro other known
    by_cases same : other = id
    · subst same
      simp [Ledger.giveBack]
    · rw [Function.update_of_ne same] at known
      simp [Ledger.giveBack, same, dates.returned known]
  entered := by
    intro other n known drawn
    by_cases same : other = id
    · subst same
      rw [Function.update_self] at known
      cases known
      exact absurd rfl drawn
    · rw [Function.update_of_ne same] at known
      obtain ⟨member, before⟩ := dates.entered known drawn
      exact ⟨by simp [Ledger.giveBack, same, member], before⟩
  given := by
    intro other n member known
    by_cases same : other = id
    · subst same
      rw [Function.update_self] at known
      exact (Option.some.inj known).symm
    · rw [Function.update_of_ne same] at known
      simp only [Ledger.giveBack, List.mem_orderedInsert, same, false_or, List.mem_filter] at member
      exact dates.given member.1 known
  dated := by
    intro other n member known
    simp only [Ledger.giveBack, List.mem_filter, decide_eq_true_eq] at member
    rw [Function.update_of_ne member.2] at known
    exact dates.dated member.1 known
  ordered := by
    refine (dates.ordered.filter _).imp_of_mem ?_
    intro left right leftIn rightIn before m n leftKnown rightKnown
    simp only [List.mem_filter, decide_eq_true_eq] at leftIn rightIn
    rw [Function.update_of_ne leftIn.2] at leftKnown
    rw [Function.update_of_ne rightIn.2] at rightKnown
    exact before m n leftKnown rightKnown
  sorted := (dates.sorted.filter _).orderedInsert id _

-----------------------------------------------------------------------------------------
-- Heads
-----------------------------------------------------------------------------------------

variable {waits : α → Bool}

/-- Among the members given back, the least one is first. -/
theorem Dates.head_returned (dates : l.Dates date clock) (known : date id = some 0)
    (waiting : waits id = true) (least : ∀ other, waits other = true → other ∈ l.returned → id ≤ other)
    : (l.returned.filter waits).head? = some id := by
  refine head_of_least (dates.sorted.filter _)
    (List.mem_filter.mpr ⟨dates.returned known, waiting⟩) ?_
  intro other member below
  obtain ⟨isReturned, otherWaits⟩ := List.mem_filter.mp member
  exact le_antisymm below (least other otherWaits isReturned)

/-- Among the members that entered, the one with the earliest date is first. -/
theorem Dates.head_oldest (dates : l.Dates date clock) (known : date id = some n) (drawn : n ≠ 0)
    (waiting : waits id = true)
    (oldest : ∀ other, waits other = true → other ∈ l.entered → ∃ m, date other = some m ∧ n ≤ m)
    : (l.entered.filter waits).head? = some id := by
  refine head_of_least (dates.ordered.filter _)
    (List.mem_filter.mpr ⟨(dates.entered known drawn).1, waiting⟩) ?_
  intro other member before
  obtain ⟨isEntered, otherWaits⟩ := List.mem_filter.mp member
  obtain ⟨m, otherKnown, order⟩ := oldest other otherWaits isEntered
  exact absurd (before m n otherKnown known) (by omega)

/-- Among the members that entered, the one with the latest date is last. -/
theorem Dates.head_newest (dates : l.Dates date clock) (known : date id = some n) (drawn : n ≠ 0)
    (waiting : waits id = true)
    (newest : ∀ other, waits other = true → other ∈ l.entered → ∃ m, date other = some m ∧ m ≤ n)
    : (l.entered.filter waits).reverse.head? = some id := by
  have reversed := List.pairwise_reverse.mpr (dates.ordered.filter waits)
  refine head_of_least reversed
    (List.mem_reverse.mpr (List.mem_filter.mpr ⟨(dates.entered known drawn).1, waiting⟩)) ?_
  intro other member before
  obtain ⟨isEntered, otherWaits⟩ := List.mem_filter.mp (List.mem_reverse.mp member)
  obtain ⟨m, otherKnown, order⟩ := newest other otherWaits isEntered
  exact absurd (before n m known otherKnown) (by omega)

end Ledger
