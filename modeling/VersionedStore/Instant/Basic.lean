/-
  VersionedStore.Instant.Basic

  Points in time and the proleptic Gregorian calendar in UTC.

  An instant counts seconds from the start of 1970 and nanoseconds into the
  second.  A leap second is the second before it with more than a second's worth
  of nanoseconds.
-/
import VersionedStore.Decimal.Digits
import VersionedStore.Nanos

namespace VersionedStore

/-- A point in time. -/
structure Instant where
  /-- Seconds since the start of 1970, in UTC. -/
  seconds : Int
  /-- Nanoseconds into the second; a thousand million or more in a leap second. -/
  nanoseconds : Nat
  lt_two_seconds : nanoseconds < 2 * nanosPerSecond
deriving DecidableEq, Repr

/-- A day of the calendar. -/
structure Date where
  year : Int
  month : Nat
  day : Nat
deriving DecidableEq, Repr

namespace Date

/-- Whether the year has a 29th of February. -/
def isLeapYear (year : Int) : Bool :=
  year % 4 == 0 && (year % 100 != 0 || year % 400 == 0)

/-- The number of days in a month. -/
def daysInMonth (year : Int) (month : Nat) : Nat :=
  match month with
  | 2 => if isLeapYear year then 29 else 28
  | 4 | 6 | 9 | 11 => 30
  | _ => 31

/-- The years that the calendar is kept for. -/
def firstYear : Int := -262143

/-- The last year that the calendar is kept for. -/
def lastYear : Int := 262142

/-- Whether the calendar has this day. -/
def isValid (d : Date) : Bool :=
  firstYear ≤ d.year && d.year ≤ lastYear && 1 ≤ d.month && d.month ≤ 12
    && 1 ≤ d.day && d.day ≤ daysInMonth d.year d.month

/-- The number of days from the first of January 1970 to this day.  Years are counted from
    March, so that the leap day is the last of its year. -/
def dayNumber (d : Date) : Int :=
  let y := if d.month ≤ 2 then d.year - 1 else d.year
  let era := y / 400
  let yearOfEra := y % 400
  let dayOfYear : Int := ((153 * ((d.month + 9) % 12) + 2) / 5 + d.day : Nat) - 1
  let dayOfEra := yearOfEra * 365 + yearOfEra / 4 - yearOfEra / 100 + dayOfYear
  era * 146097 + dayOfEra - 719468

/-- The day that lies this many days after the first of January 1970. -/
def ofDayNumber (n : Int) : Date :=
  let z := n + 719468
  let era := z / 146097
  let dayOfEra := z % 146097
  let yearOfEra :=
    (dayOfEra - dayOfEra / 1460 + dayOfEra / 36524 - dayOfEra / 146096) / 365
  let dayOfYear := dayOfEra - (365 * yearOfEra + yearOfEra / 4 - yearOfEra / 100)
  let shifted := (5 * dayOfYear + 2) / 153
  let month := (if shifted < 10 then shifted + 3 else shifted - 9).toNat
  let day := (dayOfYear - (153 * shifted + 2) / 5 + 1).toNat
  let year := yearOfEra + era * 400
  ⟨if month ≤ 2 then year + 1 else year, month, day⟩

example : dayNumber ⟨1970, 1, 1⟩ = 0 ∧ dayNumber ⟨2000, 3, 1⟩ = 11017 := by decide +kernel
example : ofDayNumber 19782 = ⟨2024, 2, 29⟩ ∧ ofDayNumber (-1) = ⟨1969, 12, 31⟩ := by
  decide +kernel

end Date

namespace Instant

/-- The number of seconds in a day. -/
def secondsPerDay : Nat := 86400

/-- The instant this many nanoseconds after the start of 1970. -/
def ofNanoseconds (n : Nat) : Instant :=
  ⟨(n / nanosPerSecond : Nat), n % nanosPerSecond, by
    have := Nat.mod_lt n (show 0 < nanosPerSecond by decide)
    omega⟩

instance : Inhabited Instant := ⟨ofNanoseconds 0⟩

/-- The day on which the instant falls, in UTC. -/
def date (t : Instant) : Date :=
  Date.ofDayNumber (t.seconds / secondsPerDay)

/-- The seconds from the start of the day, in UTC. -/
def secondOfDay (t : Instant) : Nat :=
  (t.seconds % secondsPerDay).toNat

end Instant

end VersionedStore
