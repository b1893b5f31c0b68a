import LiveQuery.Json.Decode
import LiveQuery.Json.Inspect

/-!
# Operators of a filter

What a filter asks of one property of an entity: to be any of some texts, to have all of some texts,
to be true or false, or to be in a state. Each operator is an object in a JSON text; where it has
one field the bare array of that field's value is read as well.

An operator is encoded with a function that makes a value of an object's members, so that one
definition serves the sorted value and the text in which the members keep their order.
-/

namespace LiveQuery

/-- A property is one of these texts. -/
structure AnyOf where
  values : List String
  deriving DecidableEq, Repr

/-- A property has all of these texts. -/
structure AllOf where
  values : List String
  deriving DecidableEq, Repr

/-- A property is true, or is false. -/
structure Equals where
  value : Bool
  deriving DecidableEq, Repr

/-- The type and the name of a state. -/
structure StateFilter where
  type : Option AnyOf
  name : Option AnyOf
  deriving DecidableEq, Repr

/-- Makes a value of the members of an object. -/
abbrev MakeObject := List (String × Json) → Json

/-- A list of texts as a value. -/
def Json.texts (values : List String) : Json := .array (values.map .string)

/-- A member that is left out where there is nothing to encode. -/
def Json.member? (name : String) (encode : α → Json) (a : Option α) : List (String × Json) :=
  match a with
  | some a => [(name, encode a)]
  | none => []

/-- A list of texts spelled out. -/
def Text.texts (values : List String) : String := Text.listed (values.map Text.quoted)

namespace AnyOf

/-- The operator as a value. -/
def encode (make : MakeObject) (a : AnyOf) : Json := make [("any_", Json.texts a.values)]

/-- Takes the operator out of a text. -/
def ofDoc (depth : Nat) (d : Json.Doc) : Except Json.Error AnyOf :=
  return ⟨← d.single depth "AnyOf" "any_" Json.Doc.texts⟩

/-- The operator spelled out. -/
def inspect (a : AnyOf) : String := Text.record "AnyOf" [("any_", Text.texts a.values)]

end AnyOf

namespace AllOf

/-- The operator as a value. -/
def encode (make : MakeObject) (a : AllOf) : Json := make [("all_", Json.texts a.values)]

/-- Takes the operator out of a text. -/
def ofDoc (depth : Nat) (d : Json.Doc) : Except Json.Error AllOf :=
  return ⟨← d.single depth "AllOf" "all_" Json.Doc.texts⟩

/-- The operator spelled out. -/
def inspect (a : AllOf) : String := Text.record "AllOf" [("all_", Text.texts a.values)]

end AllOf

namespace Equals

/-- The operator as a value. -/
def encode (make : MakeObject) (a : Equals) : Json := make [("eq_", .bool a.value)]

/-- Takes the operator out of a text. -/
def ofDoc (depth : Nat) (d : Json.Doc) : Except Json.Error Equals :=
  return ⟨← d.single depth "Equals" "eq_" fun _ => Json.Doc.truth⟩

/-- The operator spelled out. -/
def inspect (a : Equals) : String := Text.record "Equals" [("eq_", Text.truth a.value)]

end Equals

namespace StateFilter

/-- Any state. -/
def any : StateFilter := ⟨none, none⟩

/-- The operator as a value. -/
def encode (make : MakeObject) (s : StateFilter) : Json :=
  make (Json.member? "type" (AnyOf.encode make) s.type
    ++ Json.member? "name" (AnyOf.encode make) s.name)

/-- An optional list of texts. -/
def half (depth : Nat) : Json.Doc → Except Json.Error (Option AnyOf) :=
  Json.Doc.optional (AnyOf.ofDoc depth)

/-- One member of the object. Each half may be given once; other members are passed over. -/
def take (depth : Nat) (held : Option (Option AnyOf) × Option (Option AnyOf)) (name : String)
    (p : Json.Position) (d : Json.Doc) :
    Except Json.Error (Option (Option AnyOf) × Option (Option AnyOf)) :=
  if name = "type" then return (← Json.Doc.once name p held.1 (half depth d), held.2)
  else if name = "name" then return (held.1, ← Json.Doc.once name p held.2 (half depth d))
  else do
    d.skip
    return held

/-- Takes the operator out of a text. -/
def ofDoc (depth : Nat) : Json.Doc → Except Json.Error StateFilter
  | .object start members stop => do
    let depth ← Json.descend depth start
    let (held, _) ← Json.Doc.foldMembers (take depth) (none, none) members stop
    return ⟨held.1.join, held.2.join⟩
  | .array start items stop => do
    let depth ← Json.descend depth start
    let halves ← (items.take 2).mapM fun item => half depth item.2
    let _ ← Json.Doc.endFields 2 items stop
    return ⟨halves[0]?.join, halves[1]?.join⟩
  | d => d.mismatch "struct StateFilter"

/-- The operator spelled out. -/
def inspect (s : StateFilter) : String :=
  Text.record "StateFilter"
    [("state_type", Text.maybe AnyOf.inspect s.type), ("name", Text.maybe AnyOf.inspect s.name)]

end StateFilter
end LiveQuery
