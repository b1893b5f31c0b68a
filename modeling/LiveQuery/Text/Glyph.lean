/-!
# Glyphs: a byte text as characters and stray bytes

A text that comes from outside is a list of octets and need not be well-formed UTF-8.
`Glyph.ofBytes` cuts it into characters and, between them, the longest ill-formed pieces; every
octet lands in exactly one glyph. A reader that works on glyphs sees characters where there are
some and can still say at which octet the text stopped being one.
-/

namespace LiveQuery

/-- A text as it travels: octets. -/
abbrev Bytes := List UInt8

/-- One unit of a byte text: a character, or octets that belong to none. -/
inductive Glyph where
  | char (c : Char)
  | stray (bytes : Bytes)
  deriving DecidableEq, Repr

namespace Glyph

/-- The octets a glyph was cut from. -/
def bytes : Glyph → Bytes
  | char c => String.utf8EncodeChar c
  | stray bs => bs

/-- How many octets a glyph takes. -/
def size : Glyph → Nat
  | char c => c.utf8Size
  | stray bs => bs.length

/-- What the first octet of a longer character says: how many octets follow it, and between which
bounds the next one lies. The bounds keep out overlong forms, surrogates and code points that are
too large. -/
def lead? (b : UInt8) : Option (Nat × UInt8 × UInt8) :=
  if 0xC2 ≤ b ∧ b ≤ 0xDF then some (1, 0x80, 0xBF)
  else if b = 0xE0 then some (2, 0xA0, 0xBF)
  else if 0xE1 ≤ b ∧ b ≤ 0xEC then some (2, 0x80, 0xBF)
  else if b = 0xED then some (2, 0x80, 0x9F)
  else if 0xEE ≤ b ∧ b ≤ 0xEF then some (2, 0x80, 0xBF)
  else if b = 0xF0 then some (3, 0x90, 0xBF)
  else if 0xF1 ≤ b ∧ b ≤ 0xF3 then some (3, 0x80, 0xBF)
  else if b = 0xF4 then some (3, 0x80, 0x8F)
  else none

/-- Whether an octet lies between two bounds. -/
def within (low high b : UInt8) : Bool := low ≤ b && b ≤ high

/-- Whether an octet can follow the first octet of a character. -/
def isTail (b : UInt8) : Bool := within 0x80 0xBF b

/-- The code point spread over a first octet with `keep` payload values and its tail octets. -/
def join (first : UInt8) (keep : Nat) (tail : Bytes) : Char :=
  Char.ofNat (tail.foldl (fun n b => n * 64 + b.toNat % 64) (first.toNat % keep))

/-- The first glyph of a byte text that starts with `a`, and what follows it. A stray piece ends
before the first octet that cannot continue it. -/
def cut (a : UInt8) (rest : Bytes) : Glyph × Bytes :=
  if a < 0x80 then (char (Char.ofNat a.toNat), rest)
  else
    match lead? a, rest with
    | none, _ => (stray [a], rest)
    | some (n, low, high), b :: rest₁ =>
      if !within low high b then (stray [a], rest)
      else if n = 1 then (char (join a 32 [b]), rest₁)
      else
        match rest₁ with
        | c :: rest₂ =>
          if !isTail c then (stray [a, b], rest₁)
          else if n = 2 then (char (join a 16 [b, c]), rest₂)
          else
            match rest₂ with
            | d :: rest₃ =>
              if !isTail d then (stray [a, b, c], rest₂)
              else (char (join a 8 [b, c, d]), rest₃)
            | [] => (stray [a, b, c], [])
        | [] => (stray [a, b], [])
    | some _, [] => (stray [a], [])

/-- Cutting a glyph off leaves no more than there was. -/
theorem cut_length_le (a : UInt8) (rest : Bytes) : (cut a rest).2.length ≤ rest.length := by
  unfold cut
  repeat' split
  all_goals simp
  all_goals omega

/-- The glyphs of a byte text, in order. -/
def ofBytes : Bytes → List Glyph
  | [] => []
  | a :: rest => (cut a rest).1 :: ofBytes (cut a rest).2
  termination_by bs => bs.length
  decreasing_by have := cut_length_le a rest; simp; omega

/-- The glyphs of a text that is known to be well-formed. -/
def ofString (s : String) : List Glyph := s.toList.map char

/-- The character of a glyph, if it is one. -/
def char? : Glyph → Option Char
  | char c => some c
  | stray _ => none

/-- The character of a glyph; a stray piece shows as the replacement character. -/
def shown : Glyph → Char
  | char c => c
  | stray _ => Char.ofNat 0xFFFD

end Glyph

namespace Bytes

/-- The octets of a text. -/
def ofString (s : String) : Bytes := s.toList.flatMap String.utf8EncodeChar

/-- The text the octets spell, if they spell one. -/
def toString? (bs : Bytes) : Option String :=
  ((Glyph.ofBytes bs).mapM Glyph.char?).map String.ofList

/-- The text the octets spell, each ill-formed piece shown as the replacement character. -/
def toStringLossy (bs : Bytes) : String :=
  String.ofList ((Glyph.ofBytes bs).map Glyph.shown)

end Bytes
end LiveQuery
