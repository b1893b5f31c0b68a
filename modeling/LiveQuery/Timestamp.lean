import LiveQuery.Text.Integer

/-!
# Points in time

A point in time is a number of seconds since the start of 1970, UTC, and nanoseconds after that. A
leap second is the one before it with a thousand million nanoseconds more.
-/

namespace LiveQuery

/-- A point in time. -/
structure Timestamp where
  seconds : Int
  nanoseconds : Nat
  deriving DecidableEq, Repr

namespace Timestamp

/-- The point in time that many milliseconds later. -/
def addMs (t : Timestamp) (ms : Nat) : Timestamp :=
  let nanoseconds := t.nanoseconds + ms * 1000000
  ⟨t.seconds + (nanoseconds / 1000000000 : Nat), nanoseconds % 1000000000⟩

/-- The days since the start of 1970. -/
def days (t : Timestamp) : Int := t.seconds.fdiv 86400

/-- The second of the day. -/
def secondOfDay (t : Timestamp) : Nat := (t.seconds.fmod 86400).toNat

/-- The year, month and day of a number of days since the start of 1970. Years are counted from
March on, so that the leap day is the last of its year, and in eras of 400 years of 146097 days. -/
def date (days : Int) : Int × Nat × Nat :=
  let shifted := days + 719468
  let era := shifted.fdiv 146097
  let dayOfEra := (shifted.fmod 146097).toNat
  let yearOfEra :=
    (dayOfEra - dayOfEra / 1460 + dayOfEra / 36524 - dayOfEra / 146096) / 365
  let dayOfYear := dayOfEra - (365 * yearOfEra + yearOfEra / 4 - yearOfEra / 100)
  let month := (5 * dayOfYear + 2) / 153
  let day := dayOfYear - (153 * month + 2) / 5 + 1
  let month := if month < 10 then month + 3 else month - 9
  let year := era * 400 + yearOfEra
  (if month ≤ 2 then year + 1 else year, month, day)

/-- A year: four digits, and a sign where it has more or lies before the year zero. -/
def yearText (year : Int) : String :=
  if year < 0 then "-" ++ Text.padded 4 year.natAbs
  else if 9999 < year then "+" ++ Text.padded 4 year.natAbs
  else Text.padded 4 year.natAbs

/-- Hours, minutes and seconds. -/
def clockText (t : Timestamp) : String :=
  let s := t.secondOfDay
  ":".intercalate
    [Text.padded 2 (s / 3600), Text.padded 2 (s / 60 % 60),
      Text.padded 2 (s % 60 + t.nanoseconds / 1000000000)]

/-- The fraction of the second in as many groups of three digits as it needs. -/
def fractionText (t : Timestamp) : String :=
  let n := t.nanoseconds % 1000000000
  if n = 0 then ""
  else if n % 1000000 = 0 then "." ++ Text.padded 3 (n / 1000000)
  else if n % 1000 = 0 then "." ++ Text.padded 6 (n / 1000)
  else "." ++ Text.padded 9 n

/-- Date and time, as they are exchanged. -/
def text (t : Timestamp) : String :=
  let (year, month, day) := date t.days
  "-".intercalate [yearText year, Text.padded 2 month, Text.padded 2 day] ++ "T"
    ++ t.clockText ++ t.fractionText ++ "Z"

end Timestamp
end LiveQuery
