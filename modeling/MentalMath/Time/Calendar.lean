import MentalMath.Time.Instant

/-! Dates of the Gregorian calendar, extended to all years, and times of day. Days are counted from
the start of 1970; years are counted from March, so that the leap day is the last of its year and
four hundred years are one era of 146097 days. -/

namespace MentalMath

structure Date where
  /-- The year, where zero is the year before the first. -/
  year : Int
  month : Nat
  day : Nat
  deriving DecidableEq, Repr

namespace Date

def isLeap (year : Int) : Bool :=
  year % 4 == 0 && (year % 100 != 0 || year % 400 == 0)

def daysInMonth (year : Int) (month : Nat) : Nat :=
  if month = 2 then if isLeap year then 29 else 28
  else if month = 4 ∨ month = 6 ∨ month = 9 ∨ month = 11 then 30 else 31

/-- The day with the given year, month and day of the month, if the calendar has it. -/
def ofParts? (year : Int) (month day : Nat) : Option Date :=
  if -262143 ≤ year ∧ year ≤ 262142 ∧ 1 ≤ month ∧ month ≤ 12 ∧ 1 ≤ day
      ∧ day ≤ daysInMonth year month then
    some ⟨year, month, day⟩
  else none

/-- The number of days from the start of 1970 to a day. -/
def toDays (d : Date) : Int :=
  let y : Int := if d.month ≤ 2 then d.year - 1 else d.year
  let m : Int := if d.month ≤ 2 then d.month + 9 else d.month - 3
  365 * y + y / 4 - y / 100 + y / 400 + (153 * m + 2) / 5 + d.day - 1 - 719468

/-- The day that many days after the start of 1970. -/
def ofDays (days : Int) : Date :=
  let z := days + 719468
  let era := z / 146097
  let doe := z % 146097
  let yoe := (doe - doe / 1460 + doe / 36524 - doe / 146096) / 365
  let doy := doe - (365 * yoe + yoe / 4 - yoe / 100)
  let mp := (5 * doy + 2) / 153
  let day := doy - (153 * mp + 2) / 5 + 1
  let month := if mp < 10 then mp + 3 else mp - 9
  let year := yoe + era * 400
  ⟨if month ≤ 2 then year + 1 else year, month.toNat, day.toNat⟩

/-- The same day a month earlier, or the last day of that month if it is shorter. -/
def monthBefore? (d : Date) : Option Date :=
  let year := if d.month ≤ 1 then d.year - 1 else d.year
  let month := if d.month ≤ 1 then 12 else d.month - 1
  ofParts? year month (min d.day (daysInMonth year month))

end Date

/-- A time of UTC written out: a date and a time of day. The second 60 is a leap second. -/
structure CivilTime where
  date : Date
  hour : Nat
  minute : Nat
  second : Nat
  nanos : Nat
  deriving DecidableEq, Repr

namespace CivilTime

/-- The instant of a time, if the calendar has it. A leap second goes on from the second before
it. -/
def toInstant? (t : CivilTime) : Option Instant :=
  let minute := t.date.toDays * 86400 + t.hour * 3600 + t.minute * 60
  if t.second = 60 then Instant.ofParts? (minute + 59) (t.nanos + 1000000000)
  else Instant.ofParts? (minute + t.second) t.nanos

end CivilTime

namespace Instant

def toCivil (t : Instant) : CivilTime :=
  let ofDay := (t.second % 86400).toNat
  let leap : Nat := if t.nanos < 1000000000 then 0 else 1
  ⟨Date.ofDays (t.second / 86400), ofDay / 3600, ofDay / 60 % 60, ofDay % 60 + leap,
    t.nanos - leap * 1000000000⟩

def midnight (t : Instant) : Instant :=
  ⟨t.second / 86400 * 86400, 0, by
    have := t.inRange
    omega, Or.inl (by decide)⟩

/-- The same time of day a month earlier, if the calendar has it. -/
def monthBefore? (t : Instant) : Option Instant :=
  match (Date.ofDays (t.second / 86400)).monthBefore? with
  | some date => ofParts? (date.toDays * 86400 + t.second % 86400) t.nanos
  | none => none

end Instant

end MentalMath
