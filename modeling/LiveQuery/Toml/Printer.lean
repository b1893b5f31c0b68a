import LiveQuery.Text.Integer

/-!
# Writing keys and texts in TOML

A text is written in the plainest of four styles that can hold it: between double quotes without
escapes, between single quotes, between three double quotes without escapes, between three single
quotes; and if none of them can, between double quotes with escapes, three of them if the text has a
line break. A key is written without quotes where that is possible.
-/

namespace LiveQuery.Toml

/-- The kinds of quotes. -/
inductive Style where
  | basic
  | literal
  | basicLines
  | literalLines
  deriving DecidableEq, Repr

namespace Style

/-- The longest run of a character, given how long the run is that the text continues. -/
def longestRun (q : Char) (current : Nat) : List Char → Nat
  | [] => current
  | c :: rest =>
    if c = q then longestRun q (current + 1) rest else max current (longestRun q 0 rest)

/-- Whether a character cannot stand in a text unless it is escaped; a tab and a line break can. -/
def needsEscape (c : Char) : Bool :=
  (c.toNat < 0x20 && c ≠ '\t' && c ≠ '\n') || c = '\x7f'

/-- The style for a value. -/
def ofValue (cs : List Char) : Style :=
  let escapes := cs.any needsEscape
  let breaks := cs.contains '\n'
  if !escapes && !breaks && !cs.contains '\\' && !cs.contains '"' then basic
  else if !escapes && !breaks && !cs.contains '\'' then literal
  else if !escapes && !cs.contains '\\' && longestRun '"' 0 cs ≤ 2 then basicLines
  else if !escapes && longestRun '\'' 0 cs ≤ 2 then literalLines
  else if breaks then basicLines
  else basic

/-- The style for a key that needs quotes; a key stays on one line. -/
def ofKey (cs : List Char) : Style :=
  let escapes := cs.any needsEscape || cs.contains '\n'
  if !escapes && !cs.contains '\\' && !cs.contains '"' then basic
  else if !escapes && !cs.contains '\'' then literal
  else basic

end Style

/-- The four hexadecimal digits of a code point. -/
def fourDigits (n : Nat) : List Char :=
  let digits := (Nat.toDigits 16 n).map Char.toUpper
  List.replicate (4 - digits.length) '0' ++ digits

/-- The escape for a character that has one, apart from the quote. -/
def escape? (c : Char) : Option (List Char) :=
  if c = '\x08' then some ['\\', 'b']
  else if c = '\t' then some ['\\', 't']
  else if c = '\n' then some ['\\', 'n']
  else if c = '\x0c' then some ['\\', 'f']
  else if c = '\r' then some ['\\', 'r']
  else if c = '\\' then some ['\\', '\\']
  else if Style.needsEscape c then some ('\\' :: 'u' :: fourDigits c.toNat)
  else none

/-- A text with escapes, for one line or for several. Over several lines a line break stands for
itself, and so do two quotes in a row. -/
def escaped (lines : Bool) (quotes : Nat) : List Char → List Char
  | [] => []
  | c :: rest =>
    if c = '"' then
      if lines && quotes < 2 then '"' :: escaped lines (quotes + 1) rest
      else '\\' :: '"' :: escaped lines 0 rest
    else if lines && c = '\n' then '\n' :: escaped lines 0 rest
    else
      match escape? c with
      | some cs => cs ++ escaped lines 0 rest
      | none => c :: escaped lines 0 rest

/-- What stands behind the three quotes that open a text: a line break, if the text has one. -/
def opening (cs : List Char) : List Char := if cs.contains '\n' then ['\n'] else []

/-- A text in a style. -/
def Style.write (cs : List Char) : Style → List Char
  | basic => '"' :: escaped false 0 cs ++ ['"']
  | literal => '\'' :: cs ++ ['\'']
  | basicLines => ['"', '"', '"'] ++ opening cs ++ escaped true 0 cs ++ ['"', '"', '"']
  | literalLines => ['\'', '\'', '\''] ++ opening cs ++ cs ++ ['\'', '\'', '\'']

/-- A text as a value. -/
def writeValue (s : String) : String := String.ofList ((Style.ofValue s.toList).write s.toList)

/-- Whether a key needs no quotes. -/
def isBare (cs : List Char) : Bool :=
  !cs.isEmpty && cs.all fun c => c.isAlphanum || c = '_' || c = '-'

/-- A text as a key. -/
def writeKey (s : String) : String :=
  if isBare s.toList then s else String.ofList ((Style.ofKey s.toList).write s.toList)

end LiveQuery.Toml
