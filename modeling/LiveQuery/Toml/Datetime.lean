import LiveQuery.Text.Integer

/-!
# Dates and times of day

A date, a time of day, or both, and with both an offset from UTC. Every part has a fixed number of
digits; only the fraction of a second may have any number, of which nine count.
-/

namespace LiveQuery.Toml

/-- A day of the calendar. -/
structure Date where
  year : Nat
  month : Nat
  day : Nat
  deriving DecidableEq, Repr

/-- A time of day. -/
structure Time where
  hour : Nat
  minute : Nat
  second : Nat
  nanosecond : Nat
  deriving DecidableEq, Repr

/-- How far a clock is off UTC. -/
inductive Offset where
  | utc
  | minutes (n : Int)
  deriving DecidableEq, Repr

/-- A date, a time, or both; an offset goes with both. -/
inductive Datetime where
  | date (d : Date)
  | time (t : Time)
  | both (d : Date) (t : Time) (offset : Option Offset)
  deriving DecidableEq, Repr

/-- A number of exactly so many digits. -/
def fixed (digits : Nat) (cs : List Char) : Option (Nat × List Char) :=
  let front := cs.take digits
  if front.length = digits ∧ front.all Char.isDigit then some (Text.decimal front, cs.drop digits)
  else none

/-- The characters behind a given one. -/
def behind (c : Char) : List Char → Option (List Char)
  | [] => none
  | d :: rest => if d = c then some rest else none

namespace Date

/-- How many days a month has. -/
def daysIn (year month : Nat) : Nat :=
  if month = 2 then
    if year % 4 = 0 ∧ (year % 100 ≠ 0 ∨ year % 400 = 0) then 29 else 28
  else if month = 4 ∨ month = 6 ∨ month = 9 ∨ month = 11 then 30
  else 31

/-- Reads a date. -/
def read (cs : List Char) : Option (Date × List Char) := do
  let (year, cs) ← fixed 4 cs
  let (month, cs) ← fixed 2 (← behind '-' cs)
  let (day, cs) ← fixed 2 (← behind '-' cs)
  if 1 ≤ month ∧ month ≤ 12 ∧ 1 ≤ day ∧ day ≤ daysIn year month then some (⟨year, month, day⟩, cs)
  else none

/-- The text of a date. -/
def text (d : Date) : String :=
  "-".intercalate [Text.padded 4 d.year, Text.padded 2 d.month, Text.padded 2 d.day]

end Date

namespace Time

/-- The nanoseconds that the digits of a fraction spell. -/
def nanoseconds (digits : List Char) : Nat :=
  Text.decimal (digits.take 9 ++ List.replicate (9 - digits.length) '0')

/-- Reads the fraction of a second, if there is one. -/
def readFraction (cs : List Char) : Option (Nat × List Char) :=
  match cs with
  | '.' :: rest =>
    let digits := rest.takeWhile Char.isDigit
    if digits.isEmpty then none else some (nanoseconds digits, rest.dropWhile Char.isDigit)
  | _ => some (0, cs)

/-- Reads hours and minutes. -/
def readMinute (cs : List Char) : Option ((Nat × Nat) × List Char) := do
  let (hour, cs) ← fixed 2 cs
  let (minute, cs) ← fixed 2 (← behind ':' cs)
  if hour ≤ 23 ∧ minute ≤ 59 then some ((hour, minute), cs) else none

/-- Reads a time of day; a minute may have a leap second. -/
def read (cs : List Char) : Option (Time × List Char) := do
  let ((hour, minute), cs) ← readMinute cs
  let (second, cs) ← fixed 2 (← behind ':' cs)
  let (nanosecond, cs) ← readFraction cs
  if second ≤ 60 then some (⟨hour, minute, second, nanosecond⟩, cs) else none

/-- The text of a fraction of a second, without the zeros that end it. -/
def fractionText (nanosecond : Nat) : String :=
  if nanosecond = 0 then ""
  else
    let digits := (Text.padded 9 nanosecond).toList
    String.ofList ('.' :: (digits.reverse.dropWhile (· = '0')).reverse)

/-- The text of a time of day. -/
def text (t : Time) : String :=
  ":".intercalate [Text.padded 2 t.hour, Text.padded 2 t.minute, Text.padded 2 t.second]
    ++ fractionText t.nanosecond

end Time

namespace Offset

/-- Reads an offset, if there is one. -/
def read (cs : List Char) : Option (Option Offset × List Char) :=
  match cs with
  | 'Z' :: rest => some (some .utc, rest)
  | 'z' :: rest => some (some .utc, rest)
  | '+' :: rest => do
    let ((hour, minute), rest) ← Time.readMinute rest
    some (some (.minutes (hour * 60 + minute : Nat)), rest)
  | '-' :: rest => do
    let ((hour, minute), rest) ← Time.readMinute rest
    some (some (.minutes (-(hour * 60 + minute : Nat))), rest)
  | _ => some (none, cs)

/-- The text of an offset. -/
def text : Offset → String
  | utc => "Z"
  | minutes n =>
    (if n < 0 then "-" else "+")
      ++ ":".intercalate [Text.padded 2 (n.natAbs / 60), Text.padded 2 (n.natAbs % 60)]

end Offset

namespace Datetime

/-- Whether a character may stand between a date and a time. -/
def isSeparator (c : Char) : Bool := c = 'T' || c = 't' || c = ' '

/-- What the whole of a text spells. -/
def ofChars? (cs : List Char) : Option Datetime :=
  match Date.read cs with
  | some (d, []) => some (.date d)
  | some (d, c :: rest) => do
    guard (isSeparator c)
    let (t, rest) ← Time.read rest
    match ← Offset.read rest with
    | (offset, []) => some (.both d t offset)
    | _ => none
  | none =>
    match Time.read cs with
    | some (t, []) => some (.time t)
    | _ => none

/-- The text of a date, a time or both. -/
def text : Datetime → String
  | date d => d.text
  | time t => t.text
  | both d t offset => d.text ++ "T" ++ t.text ++ ((offset.map Offset.text).getD "")

end Datetime
end LiveQuery.Toml
