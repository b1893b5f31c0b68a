import LiveQuery.Text.Pieces

/-!
# Text without terminal controls

What is left of a text once everything is taken out that would only steer a terminal: escape
sequences and, of the control characters, all but blanks and line breaks.
-/

namespace LiveQuery.Text

/-- Where a reader of escape sequences stands. -/
inductive Escape where
  | outside
  /-- Behind the escape character. -/
  | opened
  /-- Inside a sequence that ends with a letter. -/
  | sequence
  /-- Inside a string that ends with a bell. -/
  | string
  deriving DecidableEq, Repr

/-- Whether a control character is a blank or a line break. -/
def isBlankControl (c : Char) : Bool := c = '\t' || c = '\n' || c = '\x0c' || c = '\r'

/-- The characters that are left, from a place on. -/
def plainChars : Escape → List Char → List Char
  | _, [] => []
  | .outside, c :: rest =>
    if c = '\x1b' then plainChars .opened rest
    else if (c.toNat < 0x20 && !isBlankControl c) || c = '\x7f' then plainChars .outside rest
    else c :: plainChars .outside rest
  | .opened, c :: rest =>
    if c = '[' then plainChars .sequence rest
    else if c = ']' then plainChars .string rest
    else if 0x20 ≤ c.toNat ∧ c.toNat < 0x30 then plainChars .opened rest
    else if c = '\x1b' then plainChars .opened rest
    else plainChars .outside rest
  | .sequence, c :: rest =>
    if 0x40 ≤ c.toNat ∧ c.toNat < 0x7f then plainChars .outside rest
    else if c = '\x1b' then plainChars .opened rest
    else plainChars .sequence rest
  | .string, c :: rest =>
    if c = '\x07' then plainChars .outside rest
    else if c = '\x1b' then plainChars .opened rest
    else plainChars .string rest

/-- A text without terminal controls. -/
def plain (s : String) : String := String.ofList (plainChars .outside s.toList)

/-- The first line of a text, without the line break. -/
def firstLine (s : String) : String :=
  let line := s.toList.takeWhile (· ≠ '\n')
  let cut := line.length < s.toList.length
  String.ofList (if cut ∧ line.getLast? = some '\r' then line.dropLast else line)

/-- A line without the character that may stand in front of a line break. -/
def withoutReturn (line : List Char) : List Char :=
  if line.getLast? = some '\r' then line.dropLast else line

/-- The lines of a text, without the line breaks; a line break at the end begins no line. -/
def lines (s : String) : List String :=
  let all := pieces (· = '\n') s.toList
  let last := all.getLast?.getD []
  (all.dropLast.map fun line => String.ofList (withoutReturn line))
    ++ (if last.isEmpty then [] else [String.ofList last])

end LiveQuery.Text
