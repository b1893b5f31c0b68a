import LiveQuery.Text.Pieces
import LiveQuery.Url.Percent
import LiveQuery.Url.Punycode

/-!
# Hosts

A host is a name or an address. An address of 32 bits is written with one to four numbers, in base
10, 8 or 16, the last of which fills what the others leave; one of 128 bits with eight groups, a row
of zeros left out, in brackets. Both are shown in one normal form.
-/

namespace LiveQuery

/-- A host. -/
inductive Host where
  | name (labels : String)
  /-- An address of 32 bits. -/
  | v4 (address : Nat)
  /-- An address of 128 bits, in eight groups. -/
  | v6 (groups : List Nat)
  deriving DecidableEq, Repr

namespace Host

/-- An address of 32 bits in four numbers. -/
def textV4 (a : Nat) : String :=
  ".".intercalate
    ([a >>> 24, (a >>> 16) % 256, (a >>> 8) % 256, a % 256].map fun n => toString n)

/-- How many zeros a list of groups starts with. -/
def leadingZeros : List Nat → Nat
  | 0 :: rest => leadingZeros rest + 1
  | _ => 0

/-- The longest row of zeros among groups, the first one if there are several: where it starts and
how long it is. -/
def longestZeros (i : Nat) : List Nat → Nat × Nat
  | [] => (0, 0)
  | g :: rest =>
    let later := longestZeros (i + 1) rest
    let here := leadingZeros (g :: rest)
    if later.2 ≤ here then (i, here) else later

/-- Groups in base 16, between colons. -/
def groupsText (groups : List Nat) : String :=
  ":".intercalate (groups.map fun g => String.ofList (Nat.toDigits 16 g))

/-- An address of 128 bits; the longest row of two or more zeros is left out. -/
def textV6 (groups : List Nat) : String :=
  let (start, length) := longestZeros 0 groups
  if length < 2 then groupsText groups
  else groupsText (groups.take start) ++ "::" ++ groupsText (groups.drop (start + length))

/-- A host in a URL. -/
def text : Host → String
  | name labels => labels
  | v4 a => textV4 a
  | v6 groups => "[" ++ textV6 groups ++ "]"

/-! ## Addresses of 32 bits -/

/-- The number that digits of a base spell; no digits spell zero. -/
def numberIn (base : Nat) (cs : List Char) : Option Nat :=
  cs.foldlM
    (fun n c => do
      let d ← Text.hexValue? c
      if d < base then some (n * base + d) else none)
    0

/-- One number of an address. -/
def part? (cs : List Char) : Option Nat :=
  match cs with
  | [] => none
  | '0' :: 'x' :: rest => numberIn 16 rest
  | '0' :: 'X' :: rest => numberIn 16 rest
  | '0' :: c :: rest => numberIn 8 (c :: rest)
  | _ => numberIn 10 cs

/-- The labels of a name; a dot at its end makes none. -/
def labels (cs : List Char) : List (List Char) :=
  let all := Text.pieces (· = '.') cs
  if 1 < all.length ∧ all.getLast? = some [] then all.dropLast else all

/-- Whether a name has to be an address: its last label is a number. -/
def endsInNumber (cs : List Char) : Bool :=
  match (labels cs).getLast? with
  | none => false
  | some last =>
    (!last.isEmpty && last.all Char.isDigit)
      || ((['0', 'x'].isPrefixOf last || ['0', 'X'].isPrefixOf last) && (part? last).isSome)

/-- The address that numbers make. -/
def joinV4 : Nat → Nat → List Nat → Option Nat
  | _, _, [] => none
  | acc, left, [last] =>
    let bits := 8 * left
    if last < 1 <<< bits then some ((acc <<< bits) + last) else none
  | acc, left, n :: rest =>
    if left ≤ 1 ∨ 255 < n then none else joinV4 (acc * 256 + n) (left - 1) rest

/-- The address of 32 bits that a text spells. -/
def v4? (cs : List Char) : Option Nat := do joinV4 0 4 (← (labels cs).mapM part?)

/-! ## Addresses of 128 bits -/

/-- One group in base 16. -/
def group? (cs : List Char) : Option Nat :=
  if cs.isEmpty ∨ 4 < cs.length then none else numberIn 16 cs

/-- The two groups that an address of 32 bits in four plain numbers makes. -/
def dottedGroups? (cs : List Char) : Option (List Nat) := do
  let parts := Text.pieces (· = '.') cs
  let numbers ← parts.mapM fun p =>
    if p.isEmpty ∨ 3 < p.length ∨ (1 < p.length ∧ p.head? = some '0') then none else numberIn 10 p
  match numbers with
  | [a, b, c, d] =>
    if numbers.all (· ≤ 255) then some [a * 256 + b, c * 256 + d] else none
  | _ => none

/-- The groups of a text without a gap; the last two may be an address of 32 bits. -/
def groups? (cs : List Char) : Option (List Nat) := do
  if cs.isEmpty then some []
  else
    let pieces := Text.pieces (· = ':') cs
    let front ← pieces.dropLast.mapM group?
    let last := pieces.getLast?.getD []
    if last.contains '.' then some (front ++ (← dottedGroups? last))
    else some (front ++ [← group? last])

/-- What stands in front of the first two colons in a row, and what behind them. -/
def splitGap : List Char → Option (List Char × List Char)
  | [] => none
  | ':' :: ':' :: rest => some ([], rest)
  | c :: rest => (splitGap rest).map fun p => (c :: p.1, p.2)

/-- The address of 128 bits that a text spells. -/
def v6? (cs : List Char) : Option (List Nat) := do
  match splitGap cs with
  | none =>
    let groups ← groups? cs
    if groups.length = 8 then some groups else none
  | some (front, back) =>
    if front.contains '.' then none
    else
      let front ← groups? front
      let back ← groups? back
      if front.length + back.length ≤ 7 then
        some (front ++ List.replicate (8 - front.length - back.length) 0 ++ back)
      else none

/-! ## Names -/

/-- Whether a character may not be part of any host. -/
def isForbidden (c : Char) : Bool :=
  c.toNat = 0
    || ['\t', '\n', '\r', ' ', '#', '/', ':', '<', '>', '?', '@', '[', '\\', ']', '^',
      '|'].contains c

/-- Whether a character may not be part of a name. -/
def isForbiddenInName (c : Char) : Bool :=
  isForbidden c || c.toNat < 0x20 || c = '%' || c = '\x7f'

/-- A letter in its lower case, for the Latin, Greek and Cyrillic letters whose code points lie a
fixed distance apart. -/
def lower (c : Char) : Char :=
  let n := c.toNat
  if c.isUpper then c.toLower
  else if (0xC0 ≤ n ∧ n ≤ 0xDE ∧ n ≠ 0xD7) ∨ (0x391 ≤ n ∧ n ≤ 0x3A9) ∨ (0x410 ≤ n ∧ n ≤ 0x42F) then
    Char.ofNat (n + 32)
  else if 0x400 ≤ n ∧ n ≤ 0x40F then Char.ofNat (n + 80)
  else c

/-- A name in ASCII, its labels in lower case. -/
def asciiName (cs : List Char) : List Char :=
  ['.'].intercalate ((Text.pieces (· = '.') (cs.map lower)).map Url.Punycode.encode)

/-- The host that a text spells in a URL with an authority. -/
def ofChars? (cs : List Char) : Option Host :=
  match cs with
  | '[' :: inside =>
    if inside.getLast? = some ']' then (v6? inside.dropLast).map v6 else none
  | _ => do
    let name := asciiName (Bytes.toStringLossy (Url.percentDecode cs)).toList
    if name.isEmpty ∨ name.any isForbiddenInName then none
    else if endsInNumber name then (v4? name).map v4
    else some (.name (String.ofList name))

/-- The host that a text spells in any other URL. -/
def opaqueOfChars? (cs : List Char) : Option Host :=
  match cs with
  | '[' :: inside =>
    if inside.getLast? = some ']' then (v6? inside.dropLast).map v6 else none
  | _ =>
    if cs.any isForbidden then none
    else some (.name (String.ofList (Url.percentEncode Url.inControls cs)))

end Host
end LiveQuery
