import LiveQuery.Json.Basic
import LiveQuery.Text.Glyph
import LiveQuery.Text.Quoted

/-!
# What can be wrong with a JSON text

A `Json.Error` is a cause and the position at which the reader stood when it met it. A position
counts lines from one and, on a line, the octets already read.
-/

namespace LiveQuery.Json

/-- A place in a text: the line, from one, and the octets of it that lie before the place. -/
structure Position where
  line : Nat
  column : Nat
  deriving DecidableEq, Repr, Inhabited

namespace Position

/-- Where a text starts. -/
def start : Position := ⟨1, 0⟩

/-- The place behind one octet. -/
def afterByte (p : Position) (b : UInt8) : Position :=
  if b = 10 then ⟨p.line + 1, 0⟩ else ⟨p.line, p.column + 1⟩

/-- The place behind a glyph. -/
def after (p : Position) (g : Glyph) : Position :=
  if g = .char '\n' then ⟨p.line + 1, 0⟩ else ⟨p.line, p.column + g.size⟩

/-- The place one octet on, on the same line. -/
def next (p : Position) : Position := ⟨p.line, p.column + 1⟩

/-- The place of the octet that a reader looks at without taking it: one on, unless the text
ends. -/
def peek (p : Position) : List Glyph → Position
  | [] => p
  | g :: _ => if g = .char '\n' then ⟨p.line + 1, 0⟩ else p.next

/-- The place `n` octets on, or the end of the text if that comes first. -/
def skip (p : Position) (n : Nat) (rest : List Glyph) : Position :=
  ((rest.flatMap Glyph.bytes).take n).foldl afterByte p

end Position

/-- What a reader found where it needed something else. -/
inductive Found where
  | null
  | bool (value : Bool)
  | number (value : Number)
  | string (value : String)
  | sequence
  | map
  deriving DecidableEq, Repr

/-- The words for what was found. -/
def Found.text : Found → String
  | null => "null"
  | bool true => "boolean `true`"
  | bool false => "boolean `false`"
  | number (.int n) => s!"integer `{n}`"
  | number (.real x) => s!"floating point `{x.text}`"
  | string s => s!"string {Text.quoted s}"
  | sequence => "sequence"
  | map => "map"

/-- Why a text could not be read: the first group is about the form of the text, the second about
a value that is not what the reader needs. -/
inductive Fault where
  | eofValue
  | eofList
  | eofObject
  | eofString
  | expectedColon
  | expectedListEnd
  | expectedObjectEnd
  | expectedWord
  | expectedValue
  | invalidEscape
  | invalidNumber
  | numberOutOfRange
  | invalidUnicode
  | controlCharacter
  | keyNotString
  | loneSurrogate
  | trailingComma
  | trailingCharacters
  | unfinishedPair
  | tooDeep
  | invalidType (found : Found) (expected : String)
  | invalidValue (found : Found) (expected : String)
  | invalidLength (length : Nat) (expected : String)
  | unknownVariant (name : String) (variants : List String)
  | missingField (name : String)
  | duplicateField (name : String)
  deriving DecidableEq, Repr

/-- Alternatives between backquotes: one, two joined by "or", or a list after "one of". -/
def alternatives : List String → String
  | [] => "nothing"
  | [a] => s!"`{a}`"
  | [a, b] => s!"`{a}` or `{b}`"
  | many => "one of " ++ ", ".intercalate (many.map fun a => s!"`{a}`")

/-- The words for a fault. -/
def Fault.message : Fault → String
  | eofValue => "EOF while parsing a value"
  | eofList => "EOF while parsing a list"
  | eofObject => "EOF while parsing an object"
  | eofString => "EOF while parsing a string"
  | expectedColon => "expected `:`"
  | expectedListEnd => "expected `,` or `]`"
  | expectedObjectEnd => "expected `,` or `\x7d`"
  | expectedWord => "expected ident"
  | expectedValue => "expected value"
  | invalidEscape => "invalid escape"
  | invalidNumber => "invalid number"
  | numberOutOfRange => "number out of range"
  | invalidUnicode => "invalid unicode code point"
  | controlCharacter =>
    "control character (\\u0000-\\u001F) found while parsing a string"
  | keyNotString => "key must be a string"
  | loneSurrogate => "lone leading surrogate in hex escape"
  | trailingComma => "trailing comma"
  | trailingCharacters => "trailing characters"
  | unfinishedPair => "unexpected end of hex escape"
  | tooDeep => "recursion limit exceeded"
  | invalidType found expected => s!"invalid type: {found.text}, expected {expected}"
  | invalidValue found expected => s!"invalid value: {found.text}, expected {expected}"
  | invalidLength length expected => s!"invalid length {length}, expected {expected}"
  | unknownVariant name [] => s!"unknown variant `{name}`, there are no variants"
  | unknownVariant name variants =>
    s!"unknown variant `{name}`, expected {alternatives variants}"
  | missingField name => s!"missing field `{name}`"
  | duplicateField name => s!"duplicate field `{name}`"

/-- A fault and where the reader stood. -/
structure Error where
  fault : Fault
  position : Position
  deriving DecidableEq, Repr

/-- The words for an error: the fault's, then the place. -/
def Error.message (e : Error) : String :=
  s!"{e.fault.message} at line {e.position.line} column {e.position.column}"

end LiveQuery.Json
