import TypedCsv.Number.Power

/-! # Dates and times of day

* `Date`: a day of the Gregorian calendar, carried back before its start, in the years
  -262143 to 262142.
* `TimeOfDay`: a time to the nanosecond. A leap second is a second whose nanoseconds have run past
  `10 ^ 9`. Any second may, but numbers name one only at the end of a minute
  (`TimeOfDay.ofNumbers?`).
* `Timestamp`: a date with a time of day. -/

namespace TypedCsv

namespace Date

/-- Whether a year has a 29th of February. -/
def isLeapYear (year : Int) : Bool :=
  year % 4 == 0 && (year % 100 != 0 || year % 400 == 0)

/-- The number of days of a month; no month has number zero or a number above twelve. -/
def daysInMonth (year : Int) (month : Nat) : Nat :=
  if month = 2 then (if isLeapYear year then 29 else 28)
  else if month = 4 ∨ month = 6 ∨ month = 9 ∨ month = 11 then 30
  else if 1 ≤ month ∧ month ≤ 12 then 31
  else 0

/-- The first supported year. -/
def firstYear : Int := -262143

/-- The last supported year. -/
def lastYear : Int := 262142

/-- Whether three numbers name a supported day. -/
def Valid (year : Int) (month day : Nat) : Prop :=
  firstYear ≤ year ∧ year ≤ lastYear ∧ 1 ≤ day ∧ day ≤ daysInMonth year month

instance (year : Int) (month day : Nat) : Decidable (Valid year month day) :=
  inferInstanceAs (Decidable (_ ∧ _))

end Date

/-- A day of the calendar. -/
structure Date where
  year : Int
  month : Nat
  day : Nat
  valid : Date.Valid year month day
deriving DecidableEq

/-- The day with the given numbers, if there is one. -/
def Date.ofNumbers? (year : Int) (month day : Nat) : Option Date :=
  if h : Date.Valid year month day then some ⟨year, month, day, h⟩ else none

namespace TimeOfDay

/-- The nanoseconds of one second. -/
def nanosPerSecond : Nat := 10 ^ 9

/-- Whether four numbers are those of a time of day; any second may run past its end. -/
def Valid (hour minute second nano : Nat) : Prop :=
  hour < 24 ∧ minute < 60 ∧ second < 60 ∧ nano < 2 * nanosPerSecond

instance (hour minute second nano : Nat) : Decidable (Valid hour minute second nano) :=
  inferInstanceAs (Decidable (_ ∧ _))

end TimeOfDay

/-- A time of day to the nanosecond. -/
structure TimeOfDay where
  hour : Nat
  minute : Nat
  second : Nat
  nano : Nat
  valid : TimeOfDay.Valid hour minute second nano
deriving DecidableEq

namespace TimeOfDay

/-- The time of day that four numbers name, if they name one. A leap second is named only at the
end of a minute. -/
def ofNumbers? (hour minute second nano : Nat) : Option TimeOfDay :=
  if h : Valid hour minute second nano ∧ (nano < nanosPerSecond ∨ second = 59) then
    some ⟨hour, minute, second, nano, h.1⟩
  else none

/-- The time of day that a clock shows; it shows a leap second as second 60. -/
def ofClock? (hour minute second nano : Nat) : Option TimeOfDay :=
  if second = 60 then ofNumbers? hour minute 59 (nano + nanosPerSecond)
  else ofNumbers? hour minute second nano

end TimeOfDay

/-- A date with a time of day. -/
structure Timestamp where
  date : Date
  time : TimeOfDay
deriving DecidableEq

end TypedCsv
