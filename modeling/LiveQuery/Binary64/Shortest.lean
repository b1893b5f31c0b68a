import LiveQuery.Binary64.Basic

/-!
# The shortest decimal that names a binary number

A binary number stands for every real that rounds to it. `Binary64.shortest` finds the decimal with
the fewest digits in that interval, and of those the one nearest to the number. `Binary64.textIn`
writes it in a given notation.
-/

namespace LiveQuery.Binary64

/-- The reals that round to a number, as numerators over one denominator: the number itself, the
lower end and the upper end. `closed` says whether the ends round to the number as well. -/
structure Interval where
  value : Nat
  low : Nat
  high : Nat
  denominator : Nat
  closed : Bool

/-- The rounding interval of a positive number. Under a power of two the gap is half as wide. -/
def interval (x : Binary64) : Interval :=
  let m := x.significand
  let e := x.exponent - 2
  let below := if m = leastNormal ∧ -1074 < x.exponent then 1 else 2
  { value := scale (4 * m) e
    low := scale (4 * m - below) e
    high := scale (4 * m + 2) e
    denominator := scale 1 (-e)
    closed := m % 2 = 0 }

namespace Interval

/-- `c * 10 ^ t` as a numerator over the interval's denominator and that power of ten: the two
numbers to compare are `decimal c t` and `k * tens t` for a numerator `k`. -/
def decimal (i : Interval) (c : Nat) (t : Int) : Nat :=
  c * i.denominator * (if 0 ≤ t then Nat.pow 10 t.toNat else 1)

/-- The factor a numerator takes when it is compared with a decimal on the grid `10 ^ t`. -/
def tens (t : Int) : Nat := if 0 ≤ t then 1 else Nat.pow 10 (-t).toNat

/-- Whether `c * 10 ^ t` rounds to the number. -/
def holds (i : Interval) (c : Nat) (t : Int) : Bool :=
  let d := i.decimal c t
  let f := tens t
  if i.closed then i.low * f ≤ d && d ≤ i.high * f else i.low * f < d && d < i.high * f

/-- How far `c * 10 ^ t` is from the number. -/
def distance (i : Interval) (c : Nat) (t : Int) : Nat :=
  let d := i.decimal c t
  let v := i.value * tens t
  (d - v) + (v - d)

/-- The exponent of the first decimal digit of the number. -/
def magnitude (i : Interval) : Int :=
  if i.denominator ≤ i.value then
    ((Nat.toDigits 10 (i.value / i.denominator)).length : Int) - 1
  else
    match (List.range 400).find? (fun j => i.denominator ≤ i.value * Nat.pow 10 j) with
    | some j => -j
    | none => 0

/-- Whether the number is nearer to `(c + 1) * 10 ^ t` than to `c * 10 ^ t`, where it stands in
between; halfway it counts as nearer to the even one of the two. -/
def nearerAbove (i : Interval) (c : Nat) (t : Int) : Bool :=
  let below := i.distance c t
  let above := i.distance (c + 1) t
  above < below || (above = below && c % 2 = 1)

/-- The best decimal on the grid `10 ^ t`: of the two neighbours of the number on it, those that
round to the number, and of these the nearer one. -/
def onGrid? (i : Interval) (t : Int) : Option Nat :=
  let c := i.value * tens t / i.decimal 1 t
  match i.holds c t, i.holds (c + 1) t with
  | true, true => some (if i.nearerAbove c t then c + 1 else c)
  | true, false => some c
  | false, true => some (c + 1)
  | false, false => none

end Interval

/-- Strips the zeros that end a decimal, counting them into the exponent. -/
def stripZeros : Nat → Nat → Int → Nat × Int
  | 0, c, t => (c, t)
  | fuel + 1, c, t => if c % 10 = 0 ∧ c ≠ 0 then stripZeros fuel (c / 10) (t + 1) else (c, t)

/-- The shortest decimal `c * 10 ^ t` that rounds to a positive number. Seventeen digits always
suffice. -/
def shortest (x : Binary64) : Nat × Int :=
  let i := x.interval
  let p := i.magnitude
  let grids := (List.range 18).map fun (n : Nat) => p - (n : Int)
  match grids.findSome? fun t => (i.onGrid? t).map (·, t) with
  | some (c, t) => stripZeros 20 c t
  | none => (0, 0)

/-- How decimals are written: positional where the first digit stands between `plainFrom` and
`plainTo`, else with an exponent that always carries its sign. -/
structure Notation64 where
  plainFrom : Int
  plainTo : Int

/-- Numbers of a JSON text are positional from 0.00001 up to, but without, 10 ^ 16. -/
def jsonNotation : Notation64 := ⟨-5, 15⟩

/-- The digits of a positive number, the first one worth `10 ^ p`. -/
def digitsText (style : Notation64) (digits : List Char) (p : Int) : List Char :=
  if style.plainFrom ≤ p ∧ p ≤ style.plainTo then
    if 0 ≤ p then
      let whole := p.toNat + 1
      let padded := digits ++ List.replicate (whole - digits.length) '0'
      let fraction := digits.drop whole
      padded.take whole ++ '.' :: (if fraction.isEmpty then ['0'] else fraction)
    else '0' :: '.' :: List.replicate ((-p).toNat - 1) '0' ++ digits
  else
    let mark := if 0 ≤ p then ['e', '+'] else ['e', '-']
    let rest := digits.drop 1
    digits.take 1 ++ (if rest.isEmpty then [] else '.' :: rest) ++ mark
      ++ Nat.toDigits 10 p.natAbs

/-- Numbers that are always positional: no exponent leaves these bounds. -/
def plainNotation : Notation64 := ⟨-400, 400⟩

/-- The text of a number in a notation: its sign, then its shortest decimal. -/
def textIn (style : Notation64) (x : Binary64) : String :=
  let sign := if x.negative then ['-'] else []
  if x.significand = 0 then String.ofList (sign ++ ['0', '.', '0'])
  else
    let (c, t) := x.shortest
    let digits := Nat.toDigits 10 c
    String.ofList (sign ++ digitsText style digits (t + digits.length - 1))

/-- The text of a number in a JSON text. -/
def text : Binary64 → String := textIn jsonNotation

/-- The text of a number without an exponent. -/
def plainText : Binary64 → String := textIn plainNotation

end LiveQuery.Binary64
