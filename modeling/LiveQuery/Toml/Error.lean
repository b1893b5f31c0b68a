import LiveQuery.Json.Error
import LiveQuery.Toml.Reader

/-!
# What can be wrong with a TOML document

Either the text is no document, or a value of it is not what the reader of the settings needs. An
error is shown with the line it lies on and marks under the place.
-/

namespace LiveQuery.Toml

/-- What stood where something else was needed. -/
inductive Found where
  | string (value : String)
  | integer (value : Int)
  | real (value : Real)
  | boolean (value : Bool)
  | sequence
  | map
  deriving DecidableEq, Repr

/-- The words for what was found. -/
def Found.text : Found → String
  | string s => s!"string {Text.quoted s}"
  | integer n => s!"integer `{n}`"
  | real x => s!"floating point `{x.text}`"
  | boolean true => "boolean `true`"
  | boolean false => "boolean `false`"
  | sequence => "sequence"
  | map => "map"

/-- What a value is found to be. -/
def Node.found : Node → Found
  | scalar (.string s) _ => .string s
  | scalar (.integer n) _ => .integer n
  | scalar (.real x) _ => .real x
  | scalar (.boolean b) _ => .boolean b
  | scalar (.datetime _) _ => .map
  | array _ _ => .sequence
  | table _ _ _ => .map
  | tables _ => .sequence

/-- What is wrong. -/
inductive Fault where
  /-- The text is no document. -/
  | malformed
  | invalidType (found : Found) (expected : String)
  | invalidValue (found : Found) (expected : String)
  | unknownVariant (name : String) (variants : List String)
  | noVariant
  | manyVariants
  | notEmptyTable
  | notEmptyArray
  | notTable (kind : String)
  | neitherStringNorTable
  deriving DecidableEq, Repr

/-- The words for what is wrong. -/
def Fault.message : Fault → String
  | malformed => "invalid document"
  | invalidType found expected => s!"invalid type: {found.text}, expected {expected}"
  | invalidValue found expected => s!"invalid value: {found.text}, expected {expected}"
  | unknownVariant name variants =>
    s!"unknown variant `{name}`, expected {Json.alternatives variants}"
  | noVariant => "wanted exactly 1 element, found 0 elements"
  | manyVariants => "wanted exactly 1 element, more than 1 element"
  | notEmptyTable => "expected empty table"
  | notEmptyArray => "expected empty array"
  | notTable kind => s!"expected table, found {kind}"
  | neitherStringNorTable => "wanted string or table"

/-- What is wrong, and where. -/
structure Error where
  fault : Fault
  span : Span
  deriving DecidableEq, Repr

namespace Error

/-- How many octets a text takes. -/
def size (cs : List Char) : Nat := (String.ofList cs).utf8ByteSize

/-- The part of a line in front of the end of a text. -/
def lastLine (cs : List Char) : List Char := (cs.reverse.takeWhile (· ≠ '\n')).reverse

/-- The error as it is shown beside the document it is about: the place, the line, marks under the
stretch as far as it lies on the line, and the words. -/
def message (document : String) (e : Error) : String :=
  let cs := document.toList
  let before := cs.take (cs.length - e.span.start)
  let after := cs.drop before.length
  let within := after.take (e.span.start - e.span.stop)
  let column := (lastLine before).length
  let line := lastLine before ++ after.takeWhile (· ≠ '\n')
  let number := toString (before.count '\n' + 1)
  let margin := String.ofList (List.replicate (number.length + 1) ' ')
  let marks := max 1 (min (size within) (size line - column))
  "".intercalate
    [s!"TOML parse error at line {number}, column {column + 1}\n", s!"{margin}|\n",
      s!"{number} | {String.ofList line}\n",
      margin, "|", String.ofList (List.replicate (column + 1) ' ' ++ List.replicate marks '^'),
      s!"\n{e.fault.message}\n"]

end Error
end LiveQuery.Toml
