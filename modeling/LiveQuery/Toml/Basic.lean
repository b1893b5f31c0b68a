import LiveQuery.Binary64.Shortest
import LiveQuery.Toml.Datetime

/-!
# TOML documents

The values of a document, each with the stretch of text it was read from. A table remembers how it
came about, because that decides whether more may be added to it; its entries keep the order in
which they were given.

A place in a document is the number of characters that are left there. So a reader, which has the
rest of the text in its hand, always knows where it is.
-/

namespace LiveQuery.Toml

/-- A stretch of a document: how many characters are left at its start and at its end. -/
structure Span where
  start : Nat
  stop : Nat
  deriving DecidableEq, Repr, Inhabited

/-- A key and where it stands. -/
structure Key where
  name : String
  span : Span
  deriving DecidableEq, Repr

/-- A floating-point number. -/
inductive Real where
  | finite (x : Binary64)
  | infinite (negative : Bool)
  | nan
  deriving DecidableEq, Repr

/-- The text of a floating-point number, written out without an exponent. -/
def Real.text : Real → String
  | finite x => x.plainText
  | infinite true => "-inf"
  | infinite false => "inf"
  | nan => "NaN"

/-- A value without parts. -/
inductive Scalar where
  | string (value : String)
  | integer (value : Int)
  | real (value : Real)
  | boolean (value : Bool)
  | datetime (value : Datetime)
  deriving DecidableEq, Repr

/-- How a table came about. -/
inductive Origin where
  /-- It is written between braces. -/
  | inline
  /-- It has a header of its own. -/
  | header
  /-- It lies on the way to a table with a header. -/
  | implied
  /-- It lies on the way of a dotted key. -/
  | dotted
  deriving DecidableEq, Repr

/-- A value of a document. -/
inductive Node where
  | scalar (value : Scalar) (span : Span)
  | array (items : List Node) (span : Span)
  | table (origin : Origin) (entries : List (Key × Node)) (span : Option Span)
  /-- An array of tables with headers. -/
  | tables (items : List (List (Key × Node) × Span))

/-- The entries of a table. -/
abbrev Entries := List (Key × Node)

namespace Entries

/-- The value at a name. -/
def find? (name : String) (es : Entries) : Option Node :=
  (List.find? (fun e => e.1.name = name) es).map Prod.snd

/-- The entries with another value at a name that they have. -/
def replace (name : String) (v : Node) (es : Entries) : Entries :=
  es.map fun e => if e.1.name = name then (e.1, v) else e

/-- The entries without a name. -/
def erase (name : String) (es : Entries) : Entries := es.filter fun e => e.1.name ≠ name

end Entries

namespace Node

/-- Where a value stands. A table that no one wrote down as such stands nowhere. -/
def span? : Node → Option Span
  | scalar _ span => some span
  | array _ span => some span
  | table _ _ span => span
  | tables items =>
    match items.head?, items.getLast? with
    | some first, some last => some ⟨first.2.start, last.2.stop⟩
    | _, _ => none

/-- The name of the kind of a value. -/
def kind : Node → String
  | scalar (.string _) _ => "string"
  | scalar (.integer _) _ => "integer"
  | scalar (.real _) _ => "float"
  | scalar (.boolean _) _ => "boolean"
  | scalar (.datetime _) _ => "datetime"
  | array _ _ => "array"
  | table .inline _ _ => "inline table"
  | table _ _ _ => "table"
  | tables _ => "array of tables"

end Node
end LiveQuery.Toml
