import Lane.Redis.Dates

/-! Date texts: the conversions of the Redis scripts between days and dates, and between
milliseconds and timestamps, are inverse, and later times have later timestamps.
-/

namespace Lane

open Calendar Numeral

-----------------------------------------------------------------------------------------
-- Reading numerals
-----------------------------------------------------------------------------------------

section Numerals

variable {digits : List Char} {c : Char}

theorem isSpace_of_isDigit (digit : c.isDigit = true) : isSpace c = false := by
  have bounds : 48 ≤ c.toNat ∧ c.toNat ≤ 57 := Char.isDigit_iff_toNat.mp digit
  have different : c ≠ ' ' := by
    rintro rfl
    cases digit
  simp [isSpace, different]
  omega

/-- The text of a numeral reads as its value. -/
theorem tonumber_numeral (numeral : IsNumeral digits) (nonempty : digits ≠ [])
    : tonumber digits = some (Nat.ofDigitChars 10 digits 0 : Int) := by
  have first := numeral _ (List.head_mem nonempty)
  have last := numeral _ (List.getLast_mem nonempty)
  have trimmed : (digits.dropWhile isSpace).rdropWhile isSpace = digits := by
    rw [List.dropWhile_eq_self_iff.mpr, List.rdropWhile_eq_self_iff.mpr]
    · intro _
      rw [isSpace_of_isDigit last]
      exact Bool.false_ne_true
    · intro positive
      rw [List.getElem_zero, isSpace_of_isDigit first]
      exact Bool.false_ne_true
  have sign {c : Char} (noDigit : c.isDigit = false) : ¬ digits.head? = some c := by
    intro head
    rw [List.head?_eq_some_head nonempty, Option.some.injEq] at head
    rw [head, noDigit] at first
    cases first
  have all : digits.all Char.isDigit = true := List.all_eq_true.mpr numeral
  rw [tonumber, trimmed, if_neg (sign (by decide)), if_neg (sign (by decide)), decimal, all]
  simp [nonempty]

end Numerals

-----------------------------------------------------------------------------------------
-- The text of a timestamp
-----------------------------------------------------------------------------------------

/-- A date and a time of the day in the layout of a timestamp. -/
def stamp (date : CivilDate) (hour minute second millisecond : Int) : List Char :=
  padded 4 date.year.toNat ++ '-' :: (padded 2 date.month.toNat ++ '-' ::
    (padded 2 date.day.toNat ++ 'T' :: (padded 2 hour.toNat ++ ':' ::
      (padded 2 minute.toNat ++ ':' :: (padded 2 second.toNat ++ '.' ::
        (padded 3 millisecond.toNat ++ ['+', '0', '0', ':', '0', '0']))))))

/-- The date of the time lies in the years that have four digits. -/
def HasFourDigitYear (value : Int) : Prop :=
  0 ≤ (civilFromDays (value / 86400000)).year ∧ (civilFromDays (value / 86400000)).year ≤ 9999

theorem formatInteger_of_nonneg {n : Int} (nonneg : 0 ≤ n) (width : Nat)
    : formatInteger width n = padded width n.toNat := by
  rw [formatInteger, if_neg (not_lt.mpr nonneg)]

section Stamps

variable {value left right : Int}

theorem monthLength_le (year month : Int) : monthLength year month ≤ 31 := by
  unfold monthLength
  split_ifs <;> decide

/-- A time with a year of four digits is written as its date and its time of the day. -/
theorem millisToIso_eq (fourDigits : HasFourDigitYear value)
    : millisToIso value
      = String.ofList
          (stamp (civilFromDays (value / 86400000)) (value % 86400000 / 3600000)
            (value % 3600000 / 60000) (value % 60000 / 1000) (value % 1000)) := by
  have valid := civilFromDays_isValid (value / 86400000)
  have firstMonth := valid.firstMonth
  have firstDay := valid.firstDay
  have remainder : value - value / 86400000 * 86400000 = value % 86400000 := by omega
  have inDay : ¬ value % 86400000 < 0 := by omega
  have minutes : value % 86400000 - value % 86400000 / 3600000 * 3600000 = value % 3600000 := by
    omega
  have seconds : value % 3600000 - value % 3600000 / 60000 * 60000 = value % 60000 := by omega
  have millis : value % 60000 - value % 60000 / 1000 * 1000 = value % 1000 := by omega
  simp only [millisToIso, remainder, if_neg inDay, minutes, seconds, millis, stamp]
  rw [formatInteger_of_nonneg fourDigits.1, formatInteger_of_nonneg (by omega),
    formatInteger_of_nonneg (by omega), formatInteger_of_nonneg (by omega),
    formatInteger_of_nonneg (by omega), formatInteger_of_nonneg (by omega),
    formatInteger_of_nonneg (by omega)]
  simp only [List.append_assoc, List.cons_append]

/-- Three digits after the dot are read as milliseconds. -/
theorem fractionMillis_of_digits {value digits : List Char} (numeral : IsNumeral digits)
    (length : digits.length = 3) (dot : stringSub value 20 20 = ['.'])
    (fraction : value.drop 20 = digits ++ ['+', '0', '0', ':', '0', '0'])
    : fractionMillis value = Nat.ofDigitChars 10 digits 0 := by
  obtain ⟨first, second, third, rfl⟩ := List.length_eq_three.mp length
  have taken : ([first, second, third] ++ ['+', '0', '0', ':', '0', '0']).takeWhile Char.isDigit
      = [first, second, third] := by
    rw [List.takeWhile_append_of_pos (fun c member => numeral c member)]
    rfl
  have cut : stringSub ([first, second, third] ++ ['0', '0', '0']) 1 3 = [first, second, third] :=
    rfl
  rw [fractionMillis, if_pos dot, fraction]
  simp only [taken, cut]
  rw [tonumber_numeral numeral (List.cons_ne_nil _ _)]
  rfl

/-- The fields of a timestamp are read where they are written. -/
theorem isoToMillis_stamp {year month day hour minute second millisecond : List Char}
    (numerals
      : IsNumeral year ∧ IsNumeral month ∧ IsNumeral day ∧ IsNumeral hour ∧ IsNumeral minute
        ∧ IsNumeral second ∧ IsNumeral millisecond)
    (lengths
      : year.length = 4 ∧ month.length = 2 ∧ day.length = 2 ∧ hour.length = 2
        ∧ minute.length = 2 ∧ second.length = 2 ∧ millisecond.length = 3)
    : isoToMillis
        (String.ofList
          (year ++ '-' :: (month ++ '-' :: (day ++ 'T' :: (hour ++ ':' :: (minute ++ ':' ::
            (second ++ '.' :: (millisecond ++ ['+', '0', '0', ':', '0', '0']))))))))
      = (((daysFromCivil
            ⟨Nat.ofDigitChars 10 year 0, Nat.ofDigitChars 10 month 0, Nat.ofDigitChars 10 day 0⟩
              * 24 + Nat.ofDigitChars 10 hour 0) * 60 + Nat.ofDigitChars 10 minute 0) * 60
            + Nat.ofDigitChars 10 second 0) * 1000 + Nat.ofDigitChars 10 millisecond 0 := by
  obtain ⟨yearNumeral, monthNumeral, dayNumeral, hourNumeral, minuteNumeral, secondNumeral,
    millisecondNumeral⟩ := numerals
  obtain ⟨yearLength, monthLength, dayLength, hourLength, minuteLength, secondLength,
    millisecondLength⟩ := lengths
  obtain ⟨y, year, rfl⟩ := List.exists_cons_of_length_eq_add_one yearLength
  obtain ⟨y₁, y₂, y₃, rfl⟩ := List.length_eq_three.mp (Nat.succ.inj yearLength)
  obtain ⟨m₁, m₂, rfl⟩ := List.length_eq_two.mp monthLength
  obtain ⟨d₁, d₂, rfl⟩ := List.length_eq_two.mp dayLength
  obtain ⟨h₁, h₂, rfl⟩ := List.length_eq_two.mp hourLength
  obtain ⟨n₁, n₂, rfl⟩ := List.length_eq_two.mp minuteLength
  obtain ⟨s₁, s₂, rfl⟩ := List.length_eq_two.mp secondLength
  -- every field now has a fixed position in the text
  have years := tonumber_numeral yearNumeral (List.cons_ne_nil _ _)
  have months := tonumber_numeral monthNumeral (List.cons_ne_nil _ _)
  have days := tonumber_numeral dayNumeral (List.cons_ne_nil _ _)
  have hours := tonumber_numeral hourNumeral (List.cons_ne_nil _ _)
  have minutes := tonumber_numeral minuteNumeral (List.cons_ne_nil _ _)
  have seconds := tonumber_numeral secondNumeral (List.cons_ne_nil _ _)
  simp only [isoToMillis, String.toList_ofList]
  rw [fractionMillis_of_digits millisecondNumeral millisecondLength rfl rfl]
  simp only [stringSub, List.cons_append, List.nil_append, List.take_succ_cons, List.take_zero,
    List.drop_succ_cons, List.drop_zero, Nat.reduceSub, years, months, days, hours, minutes,
    seconds]
  rfl

/-- The fields of a time are in their ranges. -/
theorem fieldRanges (fourDigits : HasFourDigitYear value)
    : (civilFromDays (value / 86400000)).year.toNat < 10 ^ 4
      ∧ (civilFromDays (value / 86400000)).month.toNat < 10 ^ 2
      ∧ (civilFromDays (value / 86400000)).day.toNat < 10 ^ 2
      ∧ (value % 86400000 / 3600000).toNat < 10 ^ 2
      ∧ (value % 3600000 / 60000).toNat < 10 ^ 2
      ∧ (value % 60000 / 1000).toNat < 10 ^ 2
      ∧ (value % 1000).toNat < 10 ^ 3 := by
  have valid := civilFromDays_isValid (value / 86400000)
  have lastMonth := valid.lastMonth
  have lastDay := valid.lastDay.trans (monthLength_le _ _)
  have lastYear := fourDigits.2
  refine ⟨?_, ?_, ?_, ?_, ?_, ?_, ?_⟩ <;> omega

/-- A time with a year of four digits is read back from its timestamp. -/
theorem isoToMillis_millisToIso (fourDigits : HasFourDigitYear value)
    : isoToMillis (millisToIso value) = value := by
  obtain ⟨year, month, day, hour, minute, second, millisecond⟩ := fieldRanges fourDigits
  have valid := civilFromDays_isValid (value / 86400000)
  have firstMonth := valid.firstMonth
  have firstDay := valid.firstDay
  have days := daysFromCivil_civilFromDays (value / 86400000)
  rw [millisToIso_eq fourDigits, stamp, isoToMillis_stamp]
  · simp only [value_padded]
    rw [Int.toNat_of_nonneg fourDigits.1, Int.toNat_of_nonneg (by omega),
      Int.toNat_of_nonneg (by omega), days]
    omega
  · exact ⟨isNumeral_padded _ _, isNumeral_padded _ _, isNumeral_padded _ _,
      isNumeral_padded _ _, isNumeral_padded _ _, isNumeral_padded _ _, isNumeral_padded _ _⟩
  · exact ⟨length_padded (by decide) year, length_padded (by decide) month,
      length_padded (by decide) day, length_padded (by decide) hour,
      length_padded (by decide) minute, length_padded (by decide) second,
      length_padded (by decide) millisecond⟩

/-- A field that is equal leaves the order to the text after its separator. -/
theorem padded_cons_lt {width n : Nat} {separator : Char} {rest otherRest : List Char}
    (less : rest < otherRest)
    : padded width n ++ separator :: rest < padded width n ++ separator :: otherRest :=
  List.append_left_lt (List.cons_lt_cons_iff.mpr (.inr ⟨rfl, less⟩))

/-- Later times have later timestamps: the first field that differs decides. -/
theorem millisToIso_lt (leftDigits : HasFourDigitYear left)
    (rightDigits : HasFourDigitYear right) (earlier : left < right)
    : millisToIso left < millisToIso right := by
  obtain ⟨year, month, day, hour, minute, second, millisecond⟩ := fieldRanges rightDigits
  rw [millisToIso_eq leftDigits, millisToIso_eq rightDigits, String.lt_iff,
    String.toList_ofList, String.toList_ofList, stamp, stamp]
  have leftValid := civilFromDays_isValid (left / 86400000)
  have rightValid := civilFromDays_isValid (right / 86400000)
  have firstMonth := leftValid.firstMonth
  have firstDay := leftValid.firstDay
  have firstYear := leftDigits.1
  by_cases sameDay : left / 86400000 = right / 86400000
  · rw [sameDay]
    refine padded_cons_lt (padded_cons_lt (padded_cons_lt ?_))
    by_cases sameHour : left % 86400000 / 3600000 = right % 86400000 / 3600000
    · rw [sameHour]
      refine padded_cons_lt ?_
      by_cases sameMinute : left % 3600000 / 60000 = right % 3600000 / 60000
      · rw [sameMinute]
        refine padded_cons_lt ?_
        by_cases sameSecond : left % 60000 / 1000 = right % 60000 / 1000
        · rw [sameSecond]
          refine padded_cons_lt (padded_append_lt (by decide) millisecond (by omega) _ _)
        · exact padded_append_lt (by decide) second (by omega) _ _
      · exact padded_append_lt (by decide) minute (by omega) _ _
    · exact padded_append_lt (by decide) hour (by omega) _ _
  · have days : left / 86400000 < right / 86400000 := by omega
    rcases civilFromDays_before days with years | ⟨years, months | ⟨months, inMonth⟩⟩
    · exact padded_append_lt (by decide) year (by omega) _ _
    · rw [years]
      exact padded_cons_lt (padded_append_lt (by decide) month (by omega) _ _)
    · rw [years, months]
      exact padded_cons_lt (padded_cons_lt (padded_append_lt (by decide) day (by omega) _ _))

end Stamps

-----------------------------------------------------------------------------------------
-- The contract
-----------------------------------------------------------------------------------------

/-- Every day number has a valid date, which has that day number; every time whose date has a
year of four digits is read back from its timestamp; and among these later times have later
timestamps.
-/
theorem date_conversions_inverse
    : (∀ days, (civilFromDays days).IsValid ∧ daysFromCivil (civilFromDays days) = days)
      ∧ (∀ value, HasFourDigitYear value → isoToMillis (millisToIso value) = value)
      ∧ ∀ left right, HasFourDigitYear left → HasFourDigitYear right → left < right
        → millisToIso left < millisToIso right :=
  ⟨fun days => ⟨civilFromDays_isValid days, daysFromCivil_civilFromDays days⟩,
    fun _ fourDigits => isoToMillis_millisToIso fourDigits,
    fun _ _ leftDigits rightDigits earlier => millisToIso_lt leftDigits rightDigits earlier⟩

/-- The last millisecond before the epoch is read back, and its timestamp is before that of the
epoch.
-/
theorem date_conversions_inverse_epoch
    : isoToMillis (millisToIso (-1)) = -1 ∧ millisToIso (-1) < millisToIso 0 :=
  ⟨date_conversions_inverse.2.1 (-1) ⟨by decide, by decide⟩,
    date_conversions_inverse.2.2 (-1) 0 ⟨by decide, by decide⟩ ⟨by decide, by decide⟩
      (by decide)⟩

end Lane
