/-!
# Finite binary floating-point numbers of 64 bits

A number is a sign, a significand and a power of two, so that its value is an exact rational and
all arithmetic is arithmetic on natural numbers. Every operation computes the exact result and
rounds it once, to nearest, ties to the even significand; a result too large for the format is
`none`.
-/

namespace LiveQuery

/-- The number `significand * 2 ^ exponent`, negated if `negative`. A normal number has a
significand of 53 bits; the least exponent is -1074. -/
structure Binary64 where
  negative : Bool
  significand : Nat
  exponent : Int
  deriving DecidableEq, Repr

namespace Binary64

/-- The least significand of 53 bits. -/
def leastNormal : Nat := 0x10000000000000

/-- Zero, with its sign. -/
def zero (negative : Bool) : Binary64 := ⟨negative, 0, -1074⟩

/-- `a * 2 ^ e`, rounded down; exact for `e` not negative. -/
def scale (a : Nat) (e : Int) : Nat :=
  if 0 ≤ e then a <<< e.toNat else a

/-- The quotient `num / den` over `2 ^ e` as a pair of natural numbers to divide. -/
def ratio (num den : Nat) (e : Int) : Nat × Nat :=
  (scale num (-e), scale den e)

/-- The quotient of two natural numbers, rounded to the nearest, a half to the even neighbour. -/
def divEven (num den : Nat) : Nat :=
  let q := num / den
  let r := num % den
  if 2 * r < den then q
  else if den < 2 * r then q + 1
  else q + q % 2

/-- The exponent at which `num / den` has a significand of 53 bits, but never under -1074. -/
def exponentFor (num den : Nat) : Int :=
  let guess : Int := (num.log2 : Int) - den.log2 - 53
  let (n, d) := ratio num den guess
  max (-1074) (if 2 * leastNormal ≤ n / d then guess + 1 else guess)

/-- The number nearest to `num / den`, or `none` if that is beyond the largest one. -/
def ofRatio (negative : Bool) (num den : Nat) : Option Binary64 :=
  if num = 0 then some (zero negative)
  else
    let e := exponentFor num den
    let (n, d) := ratio num den e
    let m := divEven n d
    let (m, e) := if m = 2 * leastNormal then (leastNormal, e + 1) else (m, e)
    if e > 971 then none else some ⟨negative, m, e⟩

/-- The number nearest to a natural number. -/
def ofNat (n : Nat) : Option Binary64 := ofRatio false n 1

/-- The number nearest to a power of ten. -/
def powTen (n : Nat) : Option Binary64 := ofRatio false (Nat.pow 10 n) 1

/-- The rounded product. -/
def mul (a b : Binary64) : Option Binary64 :=
  let e := a.exponent + b.exponent
  let p := a.significand * b.significand
  ofRatio (a.negative != b.negative) (scale p e) (scale 1 (-e))

/-- The rounded quotient; dividing by zero gives `none`. -/
def div (a b : Binary64) : Option Binary64 :=
  if b.significand = 0 then none
  else
    let e := a.exponent - b.exponent
    ofRatio (a.negative != b.negative) (scale a.significand e) (scale b.significand (-e))

/-- The number nearest to `digits * 10 ^ e`, or `none` if that is beyond the largest one. Numbers
that are surely too large or too small are told by the number of their digits. -/
def ofDecimal (negative : Bool) (digits : Nat) (e : Int) : Option Binary64 :=
  let magnitude : Int := (Nat.toDigits 10 digits).length + e
  if digits = 0 ∨ magnitude < -330 then some (zero negative)
  else if 310 < magnitude then none
  else if 0 ≤ e then ofRatio negative (digits * Nat.pow 10 e.toNat) 1
  else ofRatio negative digits (Nat.pow 10 (-e).toNat)

/-- The number with the given sign and this one's size. -/
def withSign (negative : Bool) (x : Binary64) : Binary64 := { x with negative }

end Binary64
end LiveQuery
