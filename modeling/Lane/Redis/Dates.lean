import Lane.Library.Calendar
import Lane.Library.Numeral
import Mathlib.Data.List.DropRight
import Mathlib.Tactic.IntervalCases

/-! The dates of the Redis scripts: `days_from_civil`, `civil_from_days` and the conversions between
milliseconds and timestamps. Numbers are exact integers, so that `math.floor` of a quotient is
the division of integers.
-/

namespace Lane

open Calendar

-----------------------------------------------------------------------------------------
-- Days and dates
-----------------------------------------------------------------------------------------

def daysFromCivil (date : CivilDate) : Int :=
  let year := if date.month ≤ 2 then date.year - 1 else date.year
  let era := year / 400
  let yoe := year - era * 400
  let shiftedMonth := if date.month > 2 then date.month - 3 else date.month + 9
  let doy := (153 * shiftedMonth + 2) / 5 + date.day - 1
  let doe := yoe * 365 + yoe / 4 - yoe / 100 + doy
  era * 146097 + doe - 719468

def civilFromDays (days : Int) : CivilDate :=
  let z := days + 719468
  let era := z / 146097
  let doe := z - era * 146097
  let yoe := (doe - doe / 1460 + doe / 36524 - doe / 146096) / 365
  let year := yoe + era * 400
  let doy := doe - (365 * yoe + yoe / 4 - yoe / 100)
  let mp := (5 * doy + 2) / 153
  let day := doy - (153 * mp + 2) / 5 + 1
  let month := if mp ≥ 10 then mp - 9 else mp + 3
  { year := if month ≤ 2 then year + 1 else year, month, day }

-----------------------------------------------------------------------------------------
-- Days are numbered by the calendar
-----------------------------------------------------------------------------------------

/-- The number of a day, where years begin in March. -/
theorem daysFromCivil_eq (year month day : Int)
    : daysFromCivil ⟨year, month, day⟩
      = let marchYear := if month ≤ 2 then year - 1 else year
        let shiftedMonth := if month > 2 then month - 3 else month + 9
        365 * marchYear + marchYear / 4 - marchYear / 100 + marchYear / 400
          + (153 * shiftedMonth + 2) / 5 + day - 719469 := by
  simp only [daysFromCivil]
  generalize (if month ≤ 2 then year - 1 else year) = marchYear
  generalize (if month > 2 then month - 3 else month + 9) = shiftedMonth
  omega

/-- `days_from_civil` counts the days of every month, and the months one after the other. -/
theorem numbersDays_daysFromCivil : NumbersDays daysFromCivil := by
  refine ⟨fun year month day => ?_, fun year month first last => ?_, fun year => ?_⟩
  · rw [daysFromCivil_eq, daysFromCivil_eq]
    simp only
    omega
  · rw [daysFromCivil_eq, daysFromCivil_eq, monthLength]
    interval_cases month <;> simp [IsLeapYear] <;> omega
  · rw [daysFromCivil_eq, daysFromCivil_eq, monthLength]
    simp
    omega

-----------------------------------------------------------------------------------------
-- Every day has its date
-----------------------------------------------------------------------------------------

section Eras

variable {days doe yoe century quad year doy : Int}

/-- A day of an era is in one of its four centuries, there in one of the cycles of four years,
and there in one of the four years; only a last year may have the 366th day.
-/
theorem exists_yearOfEra (first : 0 ≤ doe) (last : doe < 146097)
    : ∃ century quad year doy : Int,
        (0 ≤ century ∧ century ≤ 3) ∧ (0 ≤ quad ∧ quad ≤ 24) ∧ (0 ≤ year ∧ year ≤ 3)
        ∧ (0 ≤ doy ∧ doy ≤ 365) ∧ (doy = 365 → year = 3 ∧ (quad = 24 → century = 3))
        ∧ doe = 36524 * century + 1461 * quad + 365 * year + doy := by
  refine ⟨min (doe / 36524) 3, (doe - 36524 * min (doe / 36524) 3) / 1461,
    min ((doe - 36524 * min (doe / 36524) 3) % 1461 / 365) 3, _, ?_, ?_, ?_, ?_, ?_,
    (add_sub_cancel _ _).symm⟩ <;> omega

/-- The year of the era that `civil_from_days` computes is that year. -/
theorem yoe_eq (centuries : 0 ≤ century ∧ century ≤ 3) (quads : 0 ≤ quad ∧ quad ≤ 24)
    (years : 0 ≤ year ∧ year ≤ 3) (inYear : 0 ≤ doy ∧ doy ≤ 365)
    (leap : doy = 365 → year = 3 ∧ (quad = 24 → century = 3))
    (same : doe = 36524 * century + 1461 * quad + 365 * year + doy)
    : (doe - doe / 1460 + doe / 36524 - doe / 146096) / 365
      = 100 * century + 4 * quad + year := by
  -- the last day of the era would begin a fifth century
  have elapsed : doe / 36524 - doe / 146096 = century := by
    by_cases final : doe = 146096
    · rw [final]
      omega
    · have beforeLast : doe / 146096 = 0 := by omega
      omega
  by_cases late : 1460 ≤ 24 * century + quad + 365 * year + doy
  · have leapDays : doe / 1460 = 25 * century + quad + 1 := by omega
    omega
  · have leapDays : doe / 1460 = 25 * century + quad := by omega
    omega

/-- The date of a day of a year that begins in March. -/
def dateInYear (year doy : Int) : CivilDate :=
  let mp := (5 * doy + 2) / 153
  let month := if mp ≥ 10 then mp - 9 else mp + 3
  { year := if month ≤ 2 then year + 1 else year
    month
    day := doy - (153 * mp + 2) / 5 + 1 }

theorem civilFromDays_of_yoe
    (era : days + 719468 - (days + 719468) / 146097 * 146097 = doe)
    (years : (doe - doe / 1460 + doe / 36524 - doe / 146096) / 365 = yoe)
    (inYear : doe - (365 * yoe + yoe / 4 - yoe / 100) = doy)
    : civilFromDays days = dateInYear (yoe + (days + 719468) / 146097 * 400) doy := by
  simp only [civilFromDays, era, years, inYear]
  rfl

/-- `civil_from_days` finds the day in its year. -/
theorem civilFromDays_eq (days : Int)
    : ∃ year doy,
        civilFromDays days = dateInYear year doy
        ∧ (0 ≤ doy ∧ doy ≤ 365) ∧ (doy = 365 → IsLeapYear (year + 1))
        ∧ 365 * year + year / 4 - year / 100 + year / 400 + doy = days + 719468 := by
  obtain ⟨century, quad, year, doy, centuries, quads, years, inYear, leap, same⟩ :=
    @exists_yearOfEra (days + 719468 - (days + 719468) / 146097 * 146097) (by omega) (by omega)
  have quarters : (100 * century + 4 * quad + year) / 4 = 25 * century + quad := by omega
  have hundreds : (100 * century + 4 * quad + year) / 100 = century := by omega
  have civil := @civilFromDays_of_yoe days _ (100 * century + 4 * quad + year) doy same
    (yoe_eq centuries quads years inYear leap rfl) (by omega)
  generalize (days + 719468) / 146097 = era at same civil
  refine ⟨_, doy, civil, inYear, ?_, ?_⟩
  · intro last
    obtain ⟨third, centennial⟩ := leap last
    unfold IsLeapYear
    omega
  · omega

/-- The date of a day of such a year is valid, by cases on the month. -/
theorem dateInYear_isValid (inYear : 0 ≤ doy ∧ doy ≤ 365)
    (leap : doy = 365 → IsLeapYear (year + 1))
    : (dateInYear year doy).IsValid := by
  have months : 0 ≤ (5 * doy + 2) / 153 ∧ (5 * doy + 2) / 153 ≤ 11 := by omega
  simp only [dateInYear]
  generalize month : (5 * doy + 2) / 153 = mp at months
  obtain ⟨low, high⟩ := months
  refine ⟨?_, ?_, ?_, ?_⟩
  · simp only
    split <;> omega
  · simp only
    split <;> omega
  · simp only
    omega
  · by_cases february : mp = 11
    · subst february
      simp only [monthLength]
      by_cases last : doy = 365
      · simp [leap last, last]
      · have early : doy ≤ 364 := by omega
        simp
        split_ifs <;> omega
    · interval_cases mp <;> simp [monthLength] <;> omega

theorem daysFromCivil_dateInYear (inYear : 0 ≤ doy ∧ doy ≤ 365)
    : daysFromCivil (dateInYear year doy)
      = 365 * year + year / 4 - year / 100 + year / 400 + doy - 719468 := by
  simp only [dateInYear, daysFromCivil_eq]
  by_cases late : (5 * doy + 2) / 153 ≥ 10
  · simp only [if_pos late]
    split_ifs <;> omega
  · simp only [if_neg late]
    split_ifs <;> omega

end Eras

theorem civilFromDays_isValid (days : Int) : (civilFromDays days).IsValid := by
  obtain ⟨year, doy, same, inYear, leap, _⟩ := civilFromDays_eq days
  rw [same]
  exact dateInYear_isValid inYear leap

/-- The date of a day has the number of the day. -/
@[simp] theorem daysFromCivil_civilFromDays (days : Int)
    : daysFromCivil (civilFromDays days) = days := by
  obtain ⟨year, doy, same, inYear, _, days⟩ := civilFromDays_eq days
  rw [same, daysFromCivil_dateInYear inYear]
  omega

/-- Later days have later dates. -/
theorem civilFromDays_before {left right : Int} (earlier : left < right)
    : (civilFromDays left).Before (civilFromDays right) := by
  refine numbersDays_daysFromCivil.before_of_lt (civilFromDays_isValid left)
    (civilFromDays_isValid right) ?_
  rw [daysFromCivil_civilFromDays, daysFromCivil_civilFromDays]
  exact earlier

-----------------------------------------------------------------------------------------
-- Texts
-----------------------------------------------------------------------------------------

/-- `string.sub`, for positions that count from the start. -/
def stringSub (value : List Char) (first last : Nat) : List Char :=
  (value.take last).drop (first - 1)

def isSpace (c : Char) : Bool := c = ' ' || 9 ≤ c.toNat && c.toNat ≤ 13

/-- The number of a text of decimal digits. -/
def decimal (digits : List Char) : Option Int :=
  if digits.isEmpty || !digits.all Char.isDigit then none
  else some (Nat.ofDigitChars 10 digits 0)

/-- `tonumber` for decimal integers: spaces around the number and a sign are allowed. -/
def tonumber (text : List Char) : Option Int :=
  let number := (text.dropWhile isSpace).rdropWhile isSpace
  if number.head? = some '-' then (decimal number.tail).map Neg.neg
  else if number.head? = some '+' then decimal number.tail
  else decimal number

/-- `string.format` with a conversion `%0wd`. -/
def formatInteger (width : Nat) (n : Int) : List Char :=
  if n < 0 then '-' :: Numeral.padded (width - 1) n.natAbs else Numeral.padded width n.toNat

-----------------------------------------------------------------------------------------
-- Timestamps
-----------------------------------------------------------------------------------------

/-- The milliseconds of a fraction of a second, or zero where there is none. -/
def fractionMillis (value : List Char) : Int :=
  if stringSub value 20 20 = ['.'] then
    let digits := (value.drop 20).takeWhile Char.isDigit
    if digits.isEmpty then 0
    else (tonumber (stringSub (digits ++ ['0', '0', '0']) 1 3)).getD 0
  else 0

def isoToMillis (text : String) : Int :=
  let value := text.toList
  let fields := do
    let year ← tonumber (stringSub value 1 4)
    let month ← tonumber (stringSub value 6 7)
    let day ← tonumber (stringSub value 9 10)
    let hour ← tonumber (stringSub value 12 13)
    let minute ← tonumber (stringSub value 15 16)
    let second ← tonumber (stringSub value 18 19)
    return (daysFromCivil ⟨year, month, day⟩, hour, minute, second)
  match fields with
  | none => 0
  | some (days, hour, minute, second) =>
      (((days * 24 + hour) * 60 + minute) * 60 + second) * 1000 + fractionMillis value

def millisToIso (value : Int) : String :=
  let dayMillis := 86400000
  let days := value / dayMillis
  let remainder := value - days * dayMillis
  let (days, remainder) :=
    if remainder < 0 then (days - 1, remainder + dayMillis) else (days, remainder)
  let hour := remainder / 3600000
  let remainder := remainder - hour * 3600000
  let minute := remainder / 60000
  let remainder := remainder - minute * 60000
  let second := remainder / 1000
  let millisecond := remainder - second * 1000
  let date := civilFromDays days
  String.ofList
    (formatInteger 4 date.year ++ '-' :: formatInteger 2 date.month
      ++ '-' :: formatInteger 2 date.day ++ 'T' :: formatInteger 2 hour
      ++ ':' :: formatInteger 2 minute ++ ':' :: formatInteger 2 second
      ++ '.' :: formatInteger 3 millisecond ++ ['+', '0', '0', ':', '0', '0'])

example : isoToMillis "2024-02-29T23:59:59.5+00:00" = 1709251199500 := by decide

example : millisToIso (-1) = "1969-12-31T23:59:59.999+00:00" := by decide

end Lane
