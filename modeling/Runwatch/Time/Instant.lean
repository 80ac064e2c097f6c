/-
Runwatch.Time.Instant — points in time on the proleptic Gregorian calendar.

An instant counts seconds from the start of 1970 in universal time and
nanoseconds within the second. Inside a leap second the seconds stand still
and the nanoseconds run on, from one to two thousand million.

`days` and `civil` turn a date into a day number and back; `rfc3339` writes
an instant with as many digits of the fraction, in threes, as it needs.
-/
import Runwatch.Text.Decimal

namespace Runwatch.Time

/-- A point in time. -/
structure Instant where
  secs : Int
  nanos : Nat
  deriving DecidableEq, Repr, Inhabited

/-- Earlier in seconds, or in the same second by nanoseconds. -/
def Instant.before (a b : Instant) : Bool :=
  a.secs < b.secs || (a.secs == b.secs && a.nanos < b.nanos)

theorem Instant.before_iff {a b : Instant} :
    a.before b = true ↔ a.secs < b.secs ∨ a.secs = b.secs ∧ a.nanos < b.nanos := by
  simp [before]

theorem Instant.not_before_self (a : Instant) : a.before a = false := by
  simp [before]

theorem Instant.before_trans {a b c : Instant} (hab : a.before b = true) (hbc : b.before c = true) :
    a.before c = true := by
  rw [before_iff] at *
  omega

/-- Of two instants one is earlier, or they are one. -/
theorem Instant.before_or_eq_or_after (a b : Instant) :
    a.before b = true ∨ a = b ∨ b.before a = true := by
  obtain ⟨secs, nanos⟩ := a
  obtain ⟨secs', nanos'⟩ := b
  simp only [before_iff, mk.injEq]
  omega

/-- A calendar date. -/
structure Date where
  year : Int
  month : Nat
  day : Nat
  deriving DecidableEq, Repr

/-- A year with a 29th of February. -/
def isLeap (year : Int) : Bool := year % 4 == 0 && (year % 100 != 0 || year % 400 == 0)

/-- The days of a month. -/
def monthLength (year : Int) (month : Nat) : Nat :=
  if month == 2 then (if isLeap year then 29 else 28)
  else if month == 4 || month == 6 || month == 9 || month == 11 then 30
  else 31

/-- The years that can be represented. -/
def leastYear : Int := -262143

/-- The last year that can be represented. -/
def greatestYear : Int := 262142

/-- The date of a year, month and day, if there is one. -/
def date? (year : Int) (month day : Nat) : Option Date :=
  if leastYear ≤ year && year ≤ greatestYear && 1 ≤ month && month ≤ 12
      && 1 ≤ day && day ≤ monthLength year month then
    some ⟨year, month, day⟩
  else none

/-- The number of a day, counted from the first of January 1970. Years are
taken to begin in March, so that a leap day is the last day of its year. -/
def days (d : Date) : Int :=
  let y := if d.month ≤ 2 then d.year - 1 else d.year
  let era := y / 400
  let yearOfEra := y % 400
  let monthIndex : Int := ((d.month + 9) % 12 : Nat)
  let dayOfYear := (153 * monthIndex + 2) / 5 + (d.day : Int) - 1
  let dayOfEra := yearOfEra * 365 + yearOfEra / 4 - yearOfEra / 100 + dayOfYear
  era * 146097 + dayOfEra - 719468

/-- The date of a day number. -/
def civil (n : Int) : Date :=
  let z := n + 719468
  let era := z / 146097
  let dayOfEra := z % 146097
  let yearOfEra := (dayOfEra - dayOfEra / 1460 + dayOfEra / 36524 - dayOfEra / 146096) / 365
  let dayOfYear := dayOfEra - (365 * yearOfEra + yearOfEra / 4 - yearOfEra / 100)
  let monthIndex := (5 * dayOfYear + 2) / 153
  let day := dayOfYear - (153 * monthIndex + 2) / 5 + 1
  let month := if monthIndex < 10 then monthIndex + 3 else monthIndex - 9
  let year := yearOfEra + era * 400
  ⟨if month ≤ 2 then year + 1 else year, month.toNat, day.toNat⟩

/-- The first second that can be represented. -/
def leastSecond : Int := days ⟨leastYear, 1, 1⟩ * 86400

/-- The last second that can be represented. -/
def greatestSecond : Int := days ⟨greatestYear, 12, 31⟩ * 86400 + 86399

/-- Whether an instant's date can be represented. -/
def Instant.inRange (t : Instant) : Bool := leastSecond ≤ t.secs && t.secs ≤ greatestSecond

/-- The instant of a second and a nanosecond, if it can be represented. -/
def Instant.of? (secs : Int) (nanos : Nat) : Option Instant :=
  let t : Instant := ⟨secs, nanos⟩
  if t.inRange && (nanos < 1000000000 || (nanos < 2000000000 && secs % 60 == 59)) then some t
  else none

/-- The instant `secs > 0` seconds later, if it can be represented; a leap
second ends with the second before it. -/
def Instant.after? (t : Instant) (secs : Int) : Option Instant :=
  let later : Instant :=
    ⟨t.secs + secs, if t.nanos ≥ 1000000000 then t.nanos - 1000000000 else t.nanos⟩
  if later.inRange then some later else none

/-- The text of a year: four digits, other years with a sign. -/
def yearText (year : Int) : String :=
  if 0 ≤ year ∧ year ≤ 9999 then Text.padded 4 year.toNat
  else (if year < 0 then "-" else "+") ++ Text.padded 4 year.natAbs

/-- The fraction of a second with a point, in groups of three digits. -/
def fractionText (nanos : Nat) : String :=
  if nanos == 0 then ""
  else if nanos % 1000000 == 0 then "." ++ Text.padded 3 (nanos / 1000000)
  else if nanos % 1000 == 0 then "." ++ Text.padded 6 (nanos / 1000)
  else "." ++ Text.padded 9 nanos

/-- Date and time of an instant in universal time, without zone. -/
def Instant.localText (t : Instant) : String :=
  let date := civil (t.secs / 86400)
  let second := (t.secs % 86400).toNat
  let (extra, nanos) := if t.nanos ≥ 1000000000 then (1, t.nanos - 1000000000) else (0, t.nanos)
  yearText date.year ++ "-" ++ Text.padded 2 date.month ++ "-" ++ Text.padded 2 date.day ++ "T"
    ++ Text.padded 2 (second / 3600) ++ ":" ++ Text.padded 2 (second / 60 % 60) ++ ":"
    ++ Text.padded 2 (second % 60 + extra) ++ fractionText nanos

/-- The text of an instant with the zone as an offset. -/
def Instant.rfc3339 (t : Instant) : String := t.localText ++ "+00:00"

/-- The text of an instant with the zone as a letter. -/
def Instant.zulu (t : Instant) : String := t.localText ++ "Z"

end Runwatch.Time
