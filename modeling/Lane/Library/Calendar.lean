import Mathlib.Algebra.Order.SuccPred
import Mathlib.Data.Int.ConditionallyCompleteOrder
import Mathlib.Order.SuccPred.IntervalSucc
import Mathlib.Tactic.Linarith

/-! The proleptic Gregorian calendar: leap years, the lengths of months, valid dates and their
order, and numberings of the days that respect them.
-/

namespace Calendar

-----------------------------------------------------------------------------------------
-- Years, months and dates
-----------------------------------------------------------------------------------------

def IsLeapYear (year : Int) : Prop := year % 4 = 0 ∧ (year % 100 ≠ 0 ∨ year % 400 = 0)

instance (year : Int) : Decidable (IsLeapYear year) := instDecidableAnd

/-- The number of days of a month. -/
def monthLength (year month : Int) : Int :=
  if month = 2 then if IsLeapYear year then 29 else 28
  else if month = 4 ∨ month = 6 ∨ month = 9 ∨ month = 11 then 30
  else 31

structure CivilDate where
  year : Int
  month : Int
  day : Int
  deriving DecidableEq

structure CivilDate.IsValid (date : CivilDate) : Prop where
  firstMonth : 1 ≤ date.month
  lastMonth : date.month ≤ 12
  firstDay : 1 ≤ date.day
  lastDay : date.day ≤ monthLength date.year date.month

/-- The order of dates: years first, then months, then days. -/
def CivilDate.Before (left right : CivilDate) : Prop :=
  left.year < right.year
    ∨ left.year = right.year
      ∧ (left.month < right.month ∨ left.month = right.month ∧ left.day < right.day)

theorem monthLength_pos (year month : Int) : 0 < monthLength year month := by
  unfold monthLength
  split_ifs <;> decide

/-- Of two different dates one is before the other. -/
theorem CivilDate.before_trichotomy (left right : CivilDate)
    : left.Before right ∨ left = right ∨ right.Before left := by
  rcases lt_trichotomy left.year right.year with years | years | years
  · exact .inl (.inl years)
  · rcases lt_trichotomy left.month right.month with months | months | months
    · exact .inl (.inr ⟨years, .inl months⟩)
    · rcases lt_trichotomy left.day right.day with days | days | days
      · exact .inl (.inr ⟨years, .inr ⟨months, days⟩⟩)
      · refine .inr (.inl ?_)
        cases left
        cases right
        cases years
        cases months
        cases days
        rfl
      · exact .inr (.inr (.inr ⟨years.symm, .inr ⟨months.symm, days⟩⟩))
    · exact .inr (.inr (.inr ⟨years.symm, .inl months⟩))
  · exact .inr (.inr (.inl years))

-----------------------------------------------------------------------------------------
-- Numbering the days
-----------------------------------------------------------------------------------------

/-- A numbering counts the days of a month one by one, and goes on with the first day of the
next month after the last day of this one.
-/
structure NumbersDays (number : CivilDate → Int) : Prop where
  day : ∀ year month day, number ⟨year, month, day⟩ = number ⟨year, month, 1⟩ + (day - 1)
  month
    : ∀ year month, 1 ≤ month → month < 12
      → number ⟨year, month + 1, 1⟩ = number ⟨year, month, 1⟩ + monthLength year month
  year : ∀ year, number ⟨year + 1, 1, 1⟩ = number ⟨year, 12, 1⟩ + monthLength year 12

/-- The first day of a month, where the months of all years are counted through. -/
def firstOfMonth (index : Int) : CivilDate := ⟨index / 12, index % 12 + 1, 1⟩

/-- The number of a month, counted through. -/
def CivilDate.monthIndex (date : CivilDate) : Int := 12 * date.year + (date.month - 1)

section Numberings

variable {number : CivilDate → Int} {left right : CivilDate}

theorem CivilDate.IsValid.firstOfMonth (valid : left.IsValid)
    : firstOfMonth left.monthIndex = ⟨left.year, left.month, 1⟩ := by
  have first := valid.firstMonth
  have last := valid.lastMonth
  have year : left.monthIndex / 12 = left.year := by
    rw [monthIndex]
    omega
  have month : left.monthIndex % 12 + 1 = left.month := by
    rw [monthIndex]
    omega
  rw [Calendar.firstOfMonth, year, month]

/-- The next month begins when this one ends. -/
theorem NumbersDays.firstOfMonth_succ (numbers : NumbersDays number) (index : Int)
    : number (firstOfMonth (index + 1))
      = number (firstOfMonth index) + monthLength (index / 12) (index % 12 + 1) := by
  rw [firstOfMonth, firstOfMonth]
  by_cases december : index % 12 = 11
  · have year : (index + 1) / 12 = index / 12 + 1 := by omega
    have month : (index + 1) % 12 + 1 = 1 := by omega
    rw [year, month, december]
    exact numbers.year (index / 12)
  · have year : (index + 1) / 12 = index / 12 := by omega
    have month : (index + 1) % 12 + 1 = index % 12 + 1 + 1 := by omega
    rw [year, month]
    exact numbers.month (index / 12) (index % 12 + 1) (by omega) (by omega)

/-- Later months begin later, by induction on the months between them. -/
theorem NumbersDays.strictMono_firstOfMonth (numbers : NumbersDays number)
    : StrictMono (fun index => number (firstOfMonth index)) := by
  refine strictMono_int_of_lt_succ (fun index => ?_)
  have length := monthLength_pos (index / 12) (index % 12 + 1)
  have next := numbers.firstOfMonth_succ index
  linarith

/-- A numbering respects the order of valid dates. -/
theorem NumbersDays.lt_of_before (numbers : NumbersDays number) (leftValid : left.IsValid)
    (rightValid : right.IsValid) (before : left.Before right)
    : number left < number right := by
  have leftNumber : number left = number ⟨left.year, left.month, 1⟩ + (left.day - 1) :=
    numbers.day left.year left.month left.day
  have rightNumber : number right = number ⟨right.year, right.month, 1⟩ + (right.day - 1) :=
    numbers.day right.year right.month right.day
  have leftLast := leftValid.lastDay
  have rightFirst := rightValid.firstDay
  by_cases same : left.year = right.year ∧ left.month = right.month
  · -- within one month the days decide
    have days : left.day < right.day := by
      rcases before with years | ⟨_, months | ⟨_, days⟩⟩
      · exact absurd same.1 years.ne
      · exact absurd same.2 months.ne
      · exact days
    rw [same.1, same.2] at leftNumber
    linarith
  · have earlier : left.monthIndex + 1 ≤ right.monthIndex := by
      have leftMonths := leftValid.lastMonth
      have rightMonths := rightValid.firstMonth
      rw [CivilDate.monthIndex, CivilDate.monthIndex]
      rcases before with years | ⟨years, months | ⟨months, _⟩⟩
      · omega
      · omega
      · exact absurd ⟨years, months⟩ same
    have later : number (firstOfMonth (left.monthIndex + 1))
        ≤ number (firstOfMonth right.monthIndex) :=
      numbers.strictMono_firstOfMonth.monotone earlier
    have next := numbers.firstOfMonth_succ left.monthIndex
    have leftYear : left.monthIndex / 12 = left.year := congrArg CivilDate.year leftValid.firstOfMonth
    have leftMonth : left.monthIndex % 12 + 1 = left.month :=
      congrArg CivilDate.month leftValid.firstOfMonth
    rw [leftYear, leftMonth, leftValid.firstOfMonth] at next
    rw [next, rightValid.firstOfMonth] at later
    linarith

/-- And so the order of the numbers is that of the dates. -/
theorem NumbersDays.before_of_lt (numbers : NumbersDays number) (leftValid : left.IsValid)
    (rightValid : right.IsValid) (earlier : number left < number right)
    : left.Before right := by
  rcases left.before_trichotomy right with before | same | after
  · exact before
  · rw [same] at earlier
    exact absurd earlier (lt_irrefl _)
  · exact absurd earlier (numbers.lt_of_before rightValid leftValid after).asymm

end Numberings

end Calendar
