import LiveQuery.Text.Glyph
import LiveQuery.Text.Integer

/-!
# Percent encoding

An octet that may not stand in a part of a URL is written as a percent sign and two hexadecimal
digits. Which octets these are differs from part to part.
-/

namespace LiveQuery.Url

/-- A hexadecimal digit. -/
def hexDigit (n : Nat) : Char :=
  if n < 10 then Char.ofNat ('0'.toNat + n) else Char.ofNat ('A'.toNat + (n - 10))

/-- An octet in its percent form. -/
def percentByte (b : UInt8) : List Char := ['%', hexDigit (b.toNat / 16), hexDigit (b.toNat % 16)]

/-- Whether a character is a control or lies outside ASCII. -/
def inControls (c : Char) : Bool := c.toNat < 0x20 || 0x7E < c.toNat

/-- What is encoded in a fragment. -/
def inFragment (c : Char) : Bool := inControls c || [' ', '"', '<', '>', '\x60'].contains c

/-- What is encoded in a query of a URL with an authority. -/
def inQuery (c : Char) : Bool := inControls c || [' ', '"', '#', '<', '>', '\''].contains c

/-- What is encoded in a query of any other URL. -/
def inOtherQuery (c : Char) : Bool := inControls c || [' ', '"', '#', '<', '>'].contains c

/-- What is encoded in a path. -/
def inPath (c : Char) : Bool := inFragment c || ['#', '?', '\x7b', '\x7d'].contains c

/-- What is encoded in the name or the password of a user. -/
def inUser (c : Char) : Bool :=
  inPath c || ['/', ':', ';', '=', '@', '[', '\\', ']', '^', '|'].contains c

/-- A text with the characters of a set in their percent form. -/
def percentEncode (encoded : Char → Bool) (cs : List Char) : List Char :=
  cs.flatMap fun c =>
    if encoded c then (String.utf8EncodeChar c).flatMap percentByte else [c]

/-- The octets of a text, those in percent form taken for what they stand for. -/
def percentDecode : List Char → Bytes
  | [] => []
  | '%' :: a :: b :: rest =>
    match Text.hexValue? a, Text.hexValue? b with
    | some x, some y => (x * 16 + y).toUInt8 :: percentDecode rest
    | _, _ => String.utf8EncodeChar '%' ++ percentDecode (a :: b :: rest)
  | c :: rest => String.utf8EncodeChar c ++ percentDecode rest

end LiveQuery.Url
