import LiveQuery.Toml.Basic
import LiveQuery.Toml.Quoted

/-!
# Values without quotes

Truth values, numbers, dates and times are written as one word of letters, digits and a few signs.
`Scalar.ofWord?` gives what a word spells. Digits may be grouped by single underscores, a decimal
number has no zeros in front, and an integer has 64 bits with its sign.
-/

namespace LiveQuery.Toml

/-- Digits, of which single underscores may separate any two: the digits, and what follows them. -/
def moreDigits (isDigit : Char → Bool) : List Char → List Char × List Char
  | [] => ([], [])
  | '_' :: c :: rest =>
    if isDigit c then
      let (digits, rest) := moreDigits isDigit rest
      (c :: digits, rest)
    else ([], '_' :: c :: rest)
  | c :: rest =>
    if isDigit c then
      let (digits, rest) := moreDigits isDigit rest
      (c :: digits, rest)
    else ([], c :: rest)

/-- One digit at least, and more of them. -/
def someDigits (isDigit : Char → Bool) (cs : List Char) : Option (List Char × List Char) :=
  match cs with
  | [] => none
  | c :: rest =>
    if isDigit c then
      let (digits, rest) := moreDigits isDigit rest
      some (c :: digits, rest)
    else none

/-- Whether a number starts with a minus, and what follows its sign. -/
def readSign : List Char → Bool × List Char
  | '-' :: rest => (true, rest)
  | '+' :: rest => (false, rest)
  | rest => (false, rest)

/-- The digits of a whole decimal number, which has no zero in front of others. -/
def wholeDigits (cs : List Char) : Option (List Char × List Char) := do
  let (digits, rest) ← someDigits Char.isDigit cs
  if digits.head? = some '0' ∧ digits.length ≠ 1 then none else some (digits, rest)

/-- An integer, if it has 64 bits. -/
def inRange (n : Int) : Option Int :=
  if -0x8000000000000000 ≤ n ∧ n ≤ 0x7FFFFFFFFFFFFFFF then some n else none

/-- The integer that digits of another base spell. -/
def integerIn (base : Nat) (cs : List Char) : Option Int := do
  let isDigit (c : Char) : Bool := ((Text.hexValue? c).map (decide <| · < base)).getD false
  match ← someDigits isDigit cs with
  | (digits, []) =>
    inRange (digits.foldl (fun n c => n * base + (Text.hexValue? c).getD 0) 0 : Nat)
  | _ => none

/-- The integer that a word spells. -/
def integerOf? (cs : List Char) : Option Int :=
  match cs with
  | '0' :: 'x' :: rest => integerIn 16 rest
  | '0' :: 'o' :: rest => integerIn 8 rest
  | '0' :: 'b' :: rest => integerIn 2 rest
  | _ => do
    let (negative, cs) := readSign cs
    match ← wholeDigits cs with
    | (digits, []) =>
      let n : Int := Text.decimal digits
      inRange (if negative then -n else n)
    | _ => none

/-- The digits of a fraction and what follows them; there may be no fraction. -/
def readFraction (cs : List Char) : Option (List Char × List Char) :=
  match cs with
  | '.' :: rest => someDigits Char.isDigit rest
  | _ => some ([], cs)

/-- The exponent that a number ends with, zero if it has none. -/
def exponentOf? (cs : List Char) : Option Int := do
  match cs with
  | [] => some 0
  | c :: rest =>
    guard (c = 'e' || c = 'E')
    let (negative, rest) := readSign rest
    match ← someDigits Char.isDigit rest with
    | (digits, []) =>
      let n : Int := Text.decimal digits
      some (if negative then -n else n)
    | _ => none

/-- The floating-point number that a word spells; it has a fraction or an exponent. One too large is
none, but for a negative one, which is infinite. -/
def realOf? (cs : List Char) : Option Real := do
  let (negative, cs) := readSign cs
  if cs = ['i', 'n', 'f'] then some (.infinite negative)
  else if cs = ['n', 'a', 'n'] then some .nan
  else
    let (whole, cs) ← wholeDigits cs
    guard (!cs.isEmpty)
    let (fraction, cs) ← readFraction cs
    let e ← exponentOf? cs
    match Binary64.ofDecimal negative (Text.decimal (whole ++ fraction)) (e - fraction.length) with
    | some x => some (.finite x)
    | none => if negative then some (.infinite true) else none

/-- What a word spells. -/
def Scalar.ofWord? (cs : List Char) : Option Scalar :=
  if cs = ['t', 'r', 'u', 'e'] then some (.boolean true)
  else if cs = ['f', 'a', 'l', 's', 'e'] then some (.boolean false)
  else
    match integerOf? cs with
    | some n => some (.integer n)
    | none =>
      match realOf? cs with
      | some x => some (.real x)
      | none => (Datetime.ofChars? cs).map .datetime

/-- Whether a character may be part of a word. -/
def isWordChar (c : Char) : Bool :=
  c.isAlphanum || c = '_' || c = '+' || c = '-' || c = '.' || c = ':'

/-- Whether a time of day begins here. -/
def startsTime : List Char → Bool
  | a :: b :: ':' :: _ => a.isDigit && b.isDigit
  | _ => false

/-- The word at the start of a text, and what follows it. A date and a time may have a blank between
them. -/
def takeWord (cs : List Char) : List Char × List Char :=
  let word := cs.takeWhile isWordChar
  match cs.dropWhile isWordChar with
  | ' ' :: rest =>
    if ((Date.read word).map (·.2.isEmpty)).getD false && startsTime rest then
      (word ++ ' ' :: rest.takeWhile isWordChar, rest.dropWhile isWordChar)
    else (word, ' ' :: rest)
  | rest => (word, rest)

/-- Reads a value without quotes. -/
def readWord : Reader Scalar := fun cs =>
  let (word, rest) := takeWord cs
  match Scalar.ofWord? word with
  | some s => .ok (s, rest)
  | none => .error cs.length

end LiveQuery.Toml
