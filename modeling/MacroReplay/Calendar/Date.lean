/-!
# Dates and times of day

Date-times of the proleptic Gregorian calendar, to the second, and their distance from the start of
1970.
-/

namespace MacroReplay.Calendar

structure DateTime where
  year : Int
  month : Nat
  day : Nat
  hour : Nat
  minute : Nat
  second : Nat
  deriving DecidableEq, Repr

/-- Years with a 29th of February. -/
def isLeap (year : Int) : Bool :=
  year % 4 == 0 && (year % 100 != 0 || year % 400 == 0)

def daysInMonth (year : Int) (month : Nat) : Nat :=
  match month with
  | 2 => if isLeap year then 29 else 28
  | 4 | 6 | 9 | 11 => 30
  | _ => 31

/-- The days of a year before the first of a month. -/
def daysBeforeMonth (year : Int) : Nat → Nat
  | 0 => 0
  | 1 => 0
  | month + 1 => daysBeforeMonth year month + daysInMonth year month

/-- The days from the first of January of year 0 to that of a year: 365 for each year between, and
one more for each leap year. -/
def daysBeforeYear (year : Int) : Int :=
  365 * year + (year + 3) / 4 - (year + 99) / 100 + (year + 399) / 400

def epochDays : Int := daysBeforeYear 1970

def leastYear : Int := -262143

def greatestYear : Int := 262142

namespace DateTime

/-- A date-time that the calendar has. -/
def Valid (t : DateTime) : Prop :=
  leastYear ≤ t.year ∧ t.year ≤ greatestYear ∧ 1 ≤ t.month ∧ t.month ≤ 12 ∧
    1 ≤ t.day ∧ t.day ≤ daysInMonth t.year t.month ∧ t.hour < 24 ∧ t.minute < 60 ∧ t.second < 60

instance (t : DateTime) : Decidable t.Valid :=
  inferInstanceAs (Decidable (_ ∧ _ ∧ _ ∧ _ ∧ _ ∧ _ ∧ _ ∧ _ ∧ _))

/-- The day of the year, from 1. -/
def ordinal (t : DateTime) : Nat :=
  daysBeforeMonth t.year t.month + t.day

def epochDay (t : DateTime) : Int :=
  daysBeforeYear t.year - epochDays + t.ordinal - 1

/-- The day of the week, Sunday being 1. The start of 1970 was a Thursday. -/
def weekday (t : DateTime) : Nat :=
  ((t.epochDay + 4) % 7).toNat + 1

def epochSecond (t : DateTime) : Int :=
  t.epochDay * 86400 + (t.hour * 3600 + t.minute * 60 + t.second : Nat)

end DateTime

/-- The month and day of the `n`-th day of a year, counted from 0, searched from `month` on through at
most `months` of them. -/
def monthOfDay (year : Int) : (month months n : Nat) → Nat × Nat
  | month, 0, n => (month, n + 1)
  | month, months + 1, n =>
      let size := daysInMonth year month
      if n < size then (month, n + 1) else monthOfDay year (month + 1) months (n - size)

/-- The year that a day since the start of year 0 falls into: an average year gives a guess that is
off by at most one. -/
def yearOfDay (day : Int) : Int :=
  let guess := day * 400 / 146097
  if day < daysBeforeYear guess then guess - 1
  else if daysBeforeYear (guess + 1) ≤ day then guess + 1
  else guess

/-- The date-time a number of seconds after the start of 1970. -/
def DateTime.ofEpochSecond (seconds : Int) : DateTime :=
  let day := seconds / 86400 + epochDays
  let rest := (seconds % 86400).toNat
  let year := yearOfDay day
  let (month, dayOfMonth) := monthOfDay year 1 11 (day - daysBeforeYear year).toNat
  { year := year, month := month, day := dayOfMonth,
    hour := rest / 3600, minute := rest / 60 % 60, second := rest % 60 }

end MacroReplay.Calendar
