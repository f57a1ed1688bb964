import Antenna.CarrierEvents
import Antenna.Library.Calendar

/-!
The timestamps of carrier events and of log lines: a date is found by counting off years and months
from 1970, and the time of day is the remainder of the seconds. No value leaves the range of `i64`.
-/

namespace LeanAntenna

open Calendar

/-- The body that `format_timestamp` and `iso8601_millis` share, from the seconds on. -/
def dateTimeText (secs : Int) : Text :=
  let daysSinceEpoch := secs.tdiv 86400
  let timeOfDay := secs.emod 86400
  let (year, inYear) := yearOf (daysSinceEpoch.toNat + 1) 1970 daysSinceEpoch
  let (month, inMonth) := monthOf (daysInMonths (isLeap year)) 0 inYear
  padded 4 year ++ '-' :: padded 2 (month + 1) ++ '-' :: padded 2 (inMonth + 1) ++
    'T' :: padded 2 (timeOfDay / 3600) ++ ':' :: padded 2 (timeOfDay % 3600 / 60) ++
    ':' :: padded 2 (timeOfDay % 60)

theorem formatTimestamp_eq (timestamp : Int64) :
    formatTimestamp timestamp = dateTimeText (timestamp.toInt.tdiv 1000) := rfl

/-- `logging::iso8601_millis` of the time that is so many nanoseconds behind the epoch; an earlier
time counts as the epoch. -/
def iso8601Millis (nanos : Int) : Text :=
  let secs := nanos.toNat / 1000000000
  let millis := nanos.toNat % 1000000000 / 1000000
  dateTimeText secs ++ '.' :: padded 3 millis ++ ['Z']

section Years

theorem isLeap_iff (year : Int) (positive : 0 ≤ year) : isLeap year = true ↔ IsLeap year := by
  simp only [isLeap, IsLeap, Bool.and_eq_true, Bool.or_eq_true, decide_eq_true_eq,
    Int.tmod_eq_emod_of_nonneg positive, ne_eq]

theorem yearLength_eq (year : Int) (positive : 0 ≤ year) :
    (if isLeap year then (366 : Int) else 365) = yearLength year := by
  simp only [yearLength, isLeap_iff year positive]

/-- The years are counted off as the calendar has them, and the rounds suffice. -/
theorem yearOf_spec {rounds : Nat} {year remaining : Int} (positive : 0 ≤ year)
    (later : 0 ≤ remaining) (enough : remaining.toNat < rounds) :
    year ≤ (yearOf rounds year remaining).1 ∧ (yearOf rounds year remaining).1 ≤ year + remaining ∧
      0 ≤ (yearOf rounds year remaining).2 ∧
      (yearOf rounds year remaining).2 < yearLength (yearOf rounds year remaining).1 ∧
      daysBeforeYear (yearOf rounds year remaining).1 + (yearOf rounds year remaining).2 =
        daysBeforeYear year + remaining := by
  induction rounds generalizing year remaining with
  | zero => omega
  | succ rounds ih =>
      have bounds := yearLength_bounds year
      have next := daysBeforeYear_succ year
      simp only [yearOf, yearLength_eq year positive]
      by_cases inside : remaining < yearLength year
      · rw [if_pos inside]
        exact ⟨Int.le_refl _, by omega, later, inside, rfl⟩
      · rw [if_neg inside]
        obtain ⟨above, below, least, most, whole⟩ :=
          @ih (year + 1) (remaining - yearLength year) (by omega) (by omega) (by omega)
        exact ⟨by omega, by omega, least, most, by omega⟩

theorem yearOf_stays {rounds : Nat} {year remaining : Int} (early : remaining < 365) :
    yearOf rounds year remaining = (year, remaining) := by
  cases rounds with
  | zero => rfl
  | succ rounds =>
      rw [yearOf, if_pos]
      split <;> omega

end Years

section Months

theorem daysInMonths_eq (year : Int) (positive : 0 ≤ year) :
    daysInMonths (isLeap year) = (List.range' 1 12).map (monthLength year) := by
  have february : (if isLeap year then (29 : Int) else 28) = monthLength year 2 := by
    simp only [monthLength, isLeap_iff year positive]
  rw [daysInMonths, february]
  rfl

/-- From some month on the loop finds the month in which the day lies. -/
theorem monthOf_spec (year : Int) (count index : Nat) (day : Int) (all : index + count = 12)
    (least : daysBeforeMonth year (index + 1) ≤ day) (most : day < daysBeforeMonth year 13) :
    ∃ month inMonth, monthOf ((List.range' (index + 1) count).map (monthLength year)) index
        (day - daysBeforeMonth year (index + 1)) = (month, inMonth) ∧
      month < 12 ∧ 0 ≤ inMonth ∧ inMonth < monthLength year (month + 1) ∧
        daysBeforeMonth year (month + 1) + inMonth = day := by
  induction count generalizing index with
  | zero =>
      obtain rfl : index = 12 := by omega
      exact absurd most (Int.not_lt.mpr least)
  | succ count ih =>
      have next : daysBeforeMonth year (index + 2) =
          daysBeforeMonth year (index + 1) + monthLength year (index + 1) := rfl
      rw [List.range'_succ, List.map_cons, monthOf]
      split
      · rename_i inside
        exact ⟨index, _, rfl, by omega, by omega, inside, by omega⟩
      · rename_i past
        have found := ih (index + 1) (by omega) (by rw [next]; omega)
        rw [next] at found
        rw [Int.sub_sub]
        exact found

end Months

section Dates

theorem tdiv_nonneg {value divisor : Int} (positive : 0 ≤ value) :
    value.tdiv divisor = value / divisor :=
  Int.tdiv_eq_ediv_of_nonneg positive

/-- Division truncates towards zero. -/
theorem tdiv_neg {value divisor : Int} (negative : value ≤ 0) :
    value.tdiv divisor = -(-value / divisor) := by
  have positive : 0 ≤ -value := by omega
  rw [← tdiv_nonneg positive, Int.neg_tdiv, Int.neg_neg]

theorem padded_nonneg (width : Nat) {value : Int} (positive : 0 ≤ value) :
    padded width value = zeroPadded width value.toNat := by
  have absolute : value.natAbs = value.toNat := by omega
  simp only [padded, zeroPadded, if_neg (Int.not_lt.mpr positive), absolute, List.nil_append,
    List.length_nil, Nat.sub_zero]

theorem padded_neg (width : Nat) {value : Int} (negative : value < 0) :
    ∃ digits, padded width value = '-' :: digits := by
  simp only [padded, if_pos negative, List.cons_append]
  exact ⟨_, rfl⟩

/-- The time of day in hours, minutes and seconds. -/
def clockText (timeOfDay : Int) : Text :=
  padded 2 (timeOfDay / 3600) ++ ':' :: (padded 2 (timeOfDay % 3600 / 60) ++
    ':' :: padded 2 (timeOfDay % 60))

theorem clockText_eq {timeOfDay : Int} (least : 0 ≤ timeOfDay) :
    clockText timeOfDay = zeroPadded 2 (timeOfDay / 3600).toNat ++
      ':' :: (zeroPadded 2 (timeOfDay % 3600 / 60).toNat ++
        ':' :: zeroPadded 2 (timeOfDay % 60).toNat) := by
  rw [clockText, padded_nonneg 2 (by omega), padded_nonneg 2 (by omega), padded_nonneg 2 (by omega)]

theorem dateTimeText_eq {secs year inYear inMonth : Int} {month : Nat}
    (years : yearOf ((secs.tdiv 86400).toNat + 1) 1970 (secs.tdiv 86400) = (year, inYear))
    (months : monthOf (daysInMonths (isLeap year)) 0 inYear = (month, inMonth)) :
    dateTimeText secs = padded 4 year ++ '-' :: (padded 2 (month + 1) ++
      '-' :: (padded 2 (inMonth + 1) ++ 'T' :: clockText (secs % 86400))) := by
  unfold dateTimeText
  simp only [years, months]
  simp only [List.append_assoc, List.cons_append]
  rfl

/-- Later than a day before 1970, the text is that of a date-time: the day in which the seconds fall
when they are cut towards zero, and the time of day they are cut to. -/
theorem dateTimeText_civil {secs : Int} (later : -86400 < secs) :
    ∃ time : DateTime, dateTimeText secs = time.text ∧
      time.seconds = secs.tdiv 86400 * 86400 + secs % 86400 := by
  have days : 0 ≤ secs.tdiv 86400 := by
    rcases Int.le_total 0 secs with positive | negative
    · rw [tdiv_nonneg positive]
      omega
    · rw [tdiv_neg negative]
      omega
  obtain ⟨above, -, least, most, wholeYears⟩ :=
    yearOf_spec (show (0 : Int) ≤ 1970 by decide) days (Nat.lt_succ_self _)
  generalize years : yearOf ((secs.tdiv 86400).toNat + 1) 1970 (secs.tdiv 86400) = found at above least most wholeYears
  obtain ⟨year, inYear⟩ := found
  simp only at above least most wholeYears
  rw [← daysBeforeMonth_all] at most
  obtain ⟨month, inMonth, months, inside, first, last, wholeMonths⟩ :=
    monthOf_spec year 12 0 inYear rfl least most
  have start : daysBeforeMonth year (0 + 1) = 0 := rfl
  rw [start, Int.sub_zero, Nat.zero_add, ← daysInMonths_eq year (by omega)] at months
  have rest : 0 ≤ secs % 86400 ∧ secs % 86400 < 86400 := by omega
  have sameYear : (year.toNat : Int) = year := Int.toNat_of_nonneg (by omega)
  let time : DateTime :=
    { year := year.toNat
      month := month + 1
      day := (inMonth + 1).toNat
      hour := (secs % 86400 / 3600).toNat
      minute := (secs % 86400 % 3600 / 60).toNat
      second := (secs % 86400 % 60).toNat
      inYear := by omega
      inMonth := by
        rw [sameYear]
        omega
      inDay := by omega
      inHour := by omega
      inMinute := by omega }
  refine ⟨time, ?_, ?_⟩
  · rw [dateTimeText_eq years months, clockText_eq rest.1, padded_nonneg 4 (by omega),
      padded_nonneg 2 (by omega), padded_nonneg 2 (by omega)]
    rfl
  · simp only [DateTime.seconds, daysFromCivil, time, sameYear]
    omega

/-- Earlier than that, the day is no day of a month. -/
theorem dateTimeText_early {secs : Int} (early : secs ≤ -86400) (time : DateTime) :
    dateTimeText secs ≠ time.text := by
  intro same
  have days : secs.tdiv 86400 < 0 := by
    rw [tdiv_neg (by omega)]
    omega
  have months : monthOf (daysInMonths (isLeap 1970)) 0 (secs.tdiv 86400) = (0, secs.tdiv 86400) := by
    rw [daysInMonths, monthOf, if_pos (by omega)]
  rw [dateTimeText_eq (yearOf_stays (by omega)) months, padded_nonneg 4 (by decide),
    padded_nonneg 2 (by decide)] at same
  have digits := zeroPadded_digits
  obtain ⟨-, -, rest⟩ := digits_split (digits 4 _) (digits 4 _) rfl rfl same
  obtain ⟨-, -, rest⟩ := digits_split (digits 2 _) (digits 2 _) rfl rfl rest
  have day := time.inMonth
  rcases Int.lt_or_le (secs.tdiv 86400 + 1) 0 with negative | zero
  · obtain ⟨marked, sign⟩ := padded_neg 2 negative
    rw [sign] at rest
    cases field : zeroPadded 2 time.day with
    | nil =>
        rw [field] at rest
        exact absurd (List.cons.inj rest).1 (by decide)
    | cons c field' =>
        rw [field] at rest
        have digit := digits 2 time.day c (by rw [field]; exact List.mem_cons_self)
        rw [← (List.cons.inj rest).1] at digit
        exact absurd digit (by decide)
  · rw [padded_nonneg 2 zero] at rest
    obtain ⟨field, -, -⟩ := digits_split (digits 2 _) (digits 2 _) rfl rfl rest
    have sameDay := zeroPadded_inj field
    omega

end Dates

/-- From 1970 on, a timestamp is written as the Gregorian date-time of its whole seconds, and the log
writes the same with the milliseconds behind it. -/
theorem format_timestamp_gregorian (tsMs : Int64) (later : 0 ≤ tsMs.toInt) :
    ∃ time : DateTime, formatTimestamp tsMs = time.text ∧ time.seconds = tsMs.toInt / 1000 ∧
      ∀ nanos : Int, nanos / 1000000 = tsMs.toInt →
        iso8601Millis nanos =
          time.text ++ '.' :: zeroPadded 3 (tsMs.toInt % 1000).toNat ++ ['Z'] := by
  obtain ⟨time, text, seconds⟩ := dateTimeText_civil (show -86400 < tsMs.toInt / 1000 by omega)
  rw [tdiv_nonneg (by omega)] at seconds
  refine ⟨time, ?_, by omega, ?_⟩
  · rw [formatTimestamp_eq, tdiv_nonneg later, text]
  · intro nanos instant
    have secs : ((nanos.toNat / 1000000000 : Nat) : Int) = tsMs.toInt / 1000 := by omega
    have millis : nanos.toNat % 1000000000 / 1000000 = (tsMs.toInt % 1000).toNat := by omega
    rw [iso8601Millis]
    simp only [secs, millis, text]
    rw [padded_nonneg 3 (by omega), Int.toNat_natCast]

theorem format_timestamp_gregorian_second_day :
    ∃ time : DateTime, formatTimestamp 86400100 = time.text ∧ time.seconds = 86400 ∧
      ∀ nanos : Int, nanos / 1000000 = 86400100 →
        iso8601Millis nanos = time.text ++ '.' :: zeroPadded 3 100 ++ ['Z'] :=
  format_timestamp_gregorian 86400100 (by decide)

/-- Both texts are date-times, and the first is not the later one. -/
def InOrder (left right : Text) : Prop :=
  ∃ first second : DateTime, left = first.text ∧ right = second.text ∧ first.seconds ≤ second.seconds

theorem tdiv_cases (value : Int) :
    (0 ≤ value ∧ value.tdiv 1000 = value / 1000) ∨
      (value < 0 ∧ value.tdiv 1000 = -(-value / 1000)) := by
  rcases Int.lt_or_le value 0 with negative | positive
  · exact Or.inr ⟨negative, tdiv_neg (by omega)⟩
  · exact Or.inl ⟨positive, tdiv_nonneg positive⟩

/-- The day before 1970 is written as the first day of 1970. -/
theorem formatTimestamp_civil {tsMs : Int64} (later : -86400000 < tsMs.toInt) :
    ∃ time : DateTime, formatTimestamp tsMs = time.text ∧
      (0 ≤ tsMs.toInt.tdiv 1000 → time.seconds = tsMs.toInt.tdiv 1000) ∧
      (tsMs.toInt.tdiv 1000 < 0 → time.seconds = tsMs.toInt.tdiv 1000 + 86400) := by
  have above : -86400 < tsMs.toInt.tdiv 1000 := by
    have cut := tdiv_cases tsMs.toInt
    omega
  obtain ⟨time, text, seconds⟩ := dateTimeText_civil above
  refine ⟨time, text, fun positive => ?_, fun negative => ?_⟩
  · rw [seconds, tdiv_nonneg positive]
    omega
  · rw [seconds, tdiv_neg (Int.le_of_lt negative)]
    omega

theorem formatTimestamp_early {tsMs : Int64} (early : tsMs.toInt ≤ -86400000) (time : DateTime) :
    formatTimestamp tsMs ≠ time.text := by
  refine dateTimeText_early ?_ time
  have cut := tdiv_cases tsMs.toInt
  omega

theorem inOrder_iff {left right : Int64} (ordered : left ≤ right) :
    InOrder (formatTimestamp left) (formatTimestamp right) ↔
      -86400000 < left.toInt ∧
        (-1000 < left.toInt ∨ right.toInt ≤ -1000 ∨
          left.toInt.tdiv 1000 + 86400 ≤ right.toInt.tdiv 1000) := by
  have before : left.toInt ≤ right.toInt := Int64.le_iff_toInt_le.mp ordered
  rcases Int.lt_or_le (-86400000) left.toInt with above | early
  · obtain ⟨first, text, positive, negative⟩ := formatTimestamp_civil above
    obtain ⟨second, textRight, positiveRight, negativeRight⟩ :=
      formatTimestamp_civil (Int.lt_of_lt_of_le above before)
    have known : InOrder (formatTimestamp left) (formatTimestamp right) ↔
        first.seconds ≤ second.seconds := by
      constructor
      · rintro ⟨one, two, textOne, textTwo, order⟩
        rwa [DateTime.text_injective (text.symm.trans textOne),
          DateTime.text_injective (textRight.symm.trans textTwo)]
      · exact fun order => ⟨first, second, text, textRight, order⟩
    rw [known]
    have cut := tdiv_cases left.toInt
    have cutRight := tdiv_cases right.toInt
    rcases Int.lt_or_le (left.toInt.tdiv 1000) 0 with under | late
    · rw [negative under]
      rcases Int.lt_or_le (right.toInt.tdiv 1000) 0 with underRight | overRight
      · rw [negativeRight underRight]
        omega
      · rw [positiveRight overRight]
        omega
    · rw [positive late, positiveRight (by omega)]
      omega
  · refine iff_of_false ?_ fun both => absurd both.1 (Int.not_lt.mpr early)
    rintro ⟨first, -, text, -⟩
    exact formatTimestamp_early early first text

/-- Two timestamps are written as date-times in their order exactly if the earlier one is less than a
day before 1970, and they are on the same side of 1970 or a day apart. -/
theorem format_timestamp_ordered_iff (earlier later : Int64) (ordered : earlier ≤ later) :
    InOrder (formatTimestamp earlier) (formatTimestamp later) ↔
      -86400000 < earlier.toInt ∧
        (-1000 < earlier.toInt ∨ later.toInt ≤ -1000 ∨
          earlier.toInt.tdiv 1000 + 86400 ≤ later.toInt.tdiv 1000) :=
  inOrder_iff ordered

theorem format_timestamp_ordered_first_second :
    InOrder (formatTimestamp 0) (formatTimestamp 1000) ↔
      -86400000 < (0 : Int64).toInt ∧
        (-1000 < (0 : Int64).toInt ∨ (1000 : Int64).toInt ≤ -1000 ∨
          (0 : Int64).toInt.tdiv 1000 + 86400 ≤ (1000 : Int64).toInt.tdiv 1000) :=
  format_timestamp_ordered_iff 0 1000 (by decide)

/-- The second before 1970 is written as later than its start, and the day before it has no day. -/
theorem before_epoch_disordered :
    ¬ InOrder (formatTimestamp (-1000)) (formatTimestamp 0) ∧
      ¬ InOrder (formatTimestamp (-86400000)) (formatTimestamp (-86400000)) := by
  constructor
  · rw [inOrder_iff (by decide)]
    decide
  · rw [inOrder_iff (by decide)]
    decide

end LeanAntenna
