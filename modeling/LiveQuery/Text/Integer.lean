/-!
# Whole numbers as text

A whole number is written with ASCII digits and, in front of them, a sign. The digits are read from
the left, and the first thing that is wrong is reported: a character that is no digit, or a digit
that makes the number too large for the reader.
-/

namespace LiveQuery.Text

/-- Why a text is not a whole number in range. -/
inductive IntegerFault where
  | empty
  | invalidDigit
  | tooLarge
  | tooSmall
  deriving DecidableEq, Repr

/-- The words for a fault. -/
def IntegerFault.message : IntegerFault → String
  | empty => "cannot parse integer from empty string"
  | invalidDigit => "invalid digit found in string"
  | tooLarge => "number too large to fit in target type"
  | tooSmall => "number too small to fit in target type"

/-- The number that digits append to another one, as long as it is not over a bound. -/
def appendDigits (bound : Nat) (excess : IntegerFault) : Nat → List Char → Except IntegerFault Nat
  | n, [] => .ok n
  | n, c :: rest =>
    if !c.isDigit then .error .invalidDigit
    else
      let next := n * 10 + (c.toNat - '0'.toNat)
      if bound < next then .error excess else appendDigits bound excess next rest

/-- A natural number up to a bound, with or without a plus. -/
def readNatural (bound : Nat) (s : String) : Except IntegerFault Nat :=
  match s.toList with
  | [] => .error .empty
  | ['+'] => .error .invalidDigit
  | '+' :: digits => appendDigits bound .tooLarge 0 digits
  | digits => appendDigits bound .tooLarge 0 digits

/-- A natural number of 64 bits. -/
def readU64 (s : String) : Except IntegerFault Nat := readNatural (UInt64.size - 1) s

/-- A signed number of 64 bits. -/
def readI64 (s : String) : Except IntegerFault Int :=
  match s.toList with
  | ['-'] => .error .invalidDigit
  | '-' :: digits => return -(← appendDigits 0x8000000000000000 .tooSmall 0 digits : Nat)
  | _ => return (← readNatural 0x7FFFFFFFFFFFFFFF s : Nat)

/-- The number that a list of decimal digits spells. -/
def decimal (digits : List Char) : Nat :=
  digits.foldl (fun n c => n * 10 + (c.toNat - '0'.toNat)) 0

/-- The value of a hexadecimal digit. -/
def hexValue? (c : Char) : Option Nat :=
  if c.isDigit then some (c.toNat - '0'.toNat)
  else if 'a' ≤ c ∧ c ≤ 'f' then some (c.toNat - 'a'.toNat + 10)
  else if 'A' ≤ c ∧ c ≤ 'F' then some (c.toNat - 'A'.toNat + 10)
  else none

/-- A number in decimal, filled up with zeros to a width. -/
def padded (width n : Nat) : String :=
  let digits := Nat.toDigits 10 n
  String.ofList (List.replicate (width - digits.length) '0' ++ digits)

end LiveQuery.Text
