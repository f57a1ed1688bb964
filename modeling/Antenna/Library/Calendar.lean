import Antenna.Library.Text

/-!
The proleptic Gregorian calendar: the days before a year and a month, date-times of whole seconds, and
the text of a date-time with its fields in decimal digits.
-/

namespace Calendar

def IsLeap (year : Int) : Prop := year % 4 = 0 ∧ (year % 100 ≠ 0 ∨ year % 400 = 0)

instance (year : Int) : Decidable (IsLeap year) := inferInstanceAs (Decidable (_ ∧ _))

def yearLength (year : Int) : Int := if IsLeap year then 366 else 365

def monthLength (year : Int) (month : Nat) : Int :=
  match month with
  | 2 => if IsLeap year then 29 else 28
  | 4 | 6 | 9 | 11 => 30
  | _ => 31

/-- The days from the first of January of year 1 to that of the year. -/
def daysBeforeYear (year : Int) : Int :=
  365 * (year - 1) + (year - 1) / 4 - (year - 1) / 100 + (year - 1) / 400

/-- The days of a year before the first of the month. -/
def daysBeforeMonth (year : Int) : Nat → Int
  | 0 => 0
  | 1 => 0
  | month + 2 => daysBeforeMonth year (month + 1) + monthLength year (month + 1)

/-- The days from the first of January 1970. -/
def daysFromCivil (year : Int) (month day : Nat) : Int :=
  daysBeforeYear year - daysBeforeYear 1970 + daysBeforeMonth year month + (day - 1)

/-- A date-time of the calendar, with no leap seconds. -/
structure DateTime where
  year : Nat
  month : Nat
  day : Nat
  hour : Nat
  minute : Nat
  second : Nat
  inYear : 1 ≤ month ∧ month ≤ 12
  inMonth : 1 ≤ day ∧ (day : Int) ≤ monthLength year month
  inDay : hour < 24
  inHour : minute < 60
  inMinute : second < 60

namespace DateTime

/-- The seconds since the start of 1970. -/
def seconds (time : DateTime) : Int :=
  daysFromCivil time.year time.month time.day * 86400 + time.hour * 3600 + time.minute * 60 +
    time.second

end DateTime

section Years

theorem daysBeforeYear_succ (year : Int) :
    daysBeforeYear (year + 1) = daysBeforeYear year + yearLength year := by
  by_cases leap : IsLeap year
  · rw [daysBeforeYear, daysBeforeYear, yearLength, if_pos leap]
    obtain ⟨fourth, century⟩ := leap
    omega
  · rw [daysBeforeYear, daysBeforeYear, yearLength, if_neg leap]
    unfold IsLeap at leap
    omega

theorem yearLength_bounds (year : Int) : 365 ≤ yearLength year ∧ yearLength year ≤ 366 := by
  unfold yearLength
  split <;> decide

/-- The twelve months make up the year. -/
theorem daysBeforeMonth_all (year : Int) : daysBeforeMonth year 13 = yearLength year := by
  simp only [daysBeforeMonth, monthLength, yearLength]
  split <;> rfl

end Years

section Digits

/-- Decimal digits with zeros in front up to a width. -/
def zeroPadded (width value : Nat) : Text :=
  List.replicate (width - (Nat.toDigits 10 value).length) '0' ++ Nat.toDigits 10 value

theorem zeroPadded_value (width value : Nat) :
    Nat.ofDigitChars 10 (zeroPadded width value) 0 = value := by
  rw [zeroPadded, Nat.ofDigitChars_append, Nat.ofDigitChars_replicate_zero, Nat.mul_zero,
    Nat.ofDigitChars_ten_toDigits]

theorem zeroPadded_inj {width value other : Nat}
    (same : zeroPadded width value = zeroPadded width other) : value = other := by
  have values := congrArg (fun digits => Nat.ofDigitChars 10 digits 0) same
  simpa only [zeroPadded_value] using values

theorem zeroPadded_digits (width value : Nat) : ∀ c ∈ zeroPadded width value, c.isDigit = true := by
  intro c member
  rcases List.mem_append.mp member with zero | digit
  · rw [List.eq_of_mem_replicate zero]
    rfl
  · exact Nat.isDigit_of_mem_toDigits (by decide) (by decide) digit

/-- Digits end where something else begins. -/
theorem digits_split {front other back rest : Text} {c d : Char}
    (digits : ∀ char ∈ front, char.isDigit = true) (others : ∀ char ∈ other, char.isDigit = true)
    (mark : c.isDigit = false) (otherMark : d.isDigit = false)
    (same : front ++ c :: back = other ++ d :: rest) : front = other ∧ c = d ∧ back = rest := by
  induction front generalizing other with
  | nil =>
      cases other with
      | nil =>
          obtain ⟨first, behind⟩ := List.cons.inj same
          exact ⟨rfl, first, behind⟩
      | cons e other =>
          obtain ⟨rfl, -⟩ := List.cons.inj same
          rw [others c List.mem_cons_self] at mark
          cases mark
  | cons e front ih =>
      cases other with
      | nil =>
          obtain ⟨rfl, -⟩ := List.cons.inj same
          rw [digits e List.mem_cons_self] at otherMark
          cases otherMark
      | cons f other =>
          obtain ⟨rfl, behind⟩ := List.cons.inj same
          obtain ⟨rfl, marks, rest⟩ := ih
            (fun char member => digits char (List.mem_cons_of_mem _ member))
            (fun char member => others char (List.mem_cons_of_mem _ member)) behind
          exact ⟨rfl, marks, rest⟩

end Digits

namespace DateTime

/-- The lexical form of XML Schema without a fraction and a time zone. -/
def text (time : DateTime) : Text :=
  zeroPadded 4 time.year ++ '-' :: (zeroPadded 2 time.month ++ '-' :: (zeroPadded 2 time.day ++
    'T' :: (zeroPadded 2 time.hour ++ ':' :: (zeroPadded 2 time.minute ++
      ':' :: zeroPadded 2 time.second))))

/-- A date-time is known by its text. -/
theorem text_injective {left right : DateTime} (same : left.text = right.text) : left = right := by
  have digits := zeroPadded_digits
  obtain ⟨year, -, rest⟩ := digits_split (digits 4 _) (digits 4 _) rfl rfl same
  obtain ⟨month, -, rest⟩ := digits_split (digits 2 _) (digits 2 _) rfl rfl rest
  obtain ⟨day, -, rest⟩ := digits_split (digits 2 _) (digits 2 _) rfl rfl rest
  obtain ⟨hour, -, rest⟩ := digits_split (digits 2 _) (digits 2 _) rfl rfl rest
  obtain ⟨minute, -, second⟩ := digits_split (digits 2 _) (digits 2 _) rfl rfl rest
  have years := zeroPadded_inj year
  have months := zeroPadded_inj month
  have days := zeroPadded_inj day
  have hours := zeroPadded_inj hour
  have minutes := zeroPadded_inj minute
  have seconds := zeroPadded_inj second
  cases left
  cases right
  simp only at years months days hours minutes seconds
  subst years months days hours minutes seconds
  rfl

end DateTime

end Calendar
