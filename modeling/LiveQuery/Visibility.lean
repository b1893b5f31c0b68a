import LiveQuery.Json.Decode

/-!
# Visibility

Whether the program that hosts the queries is in the foreground.
-/

namespace LiveQuery

/-- Whether the host is in the foreground. -/
inductive Visibility where
  | visible
  | hidden
  deriving DecidableEq, Repr, Inhabited

namespace Visibility

/-- The visibility of a host that says whether it is hidden. -/
def ofHidden : Bool → Visibility
  | true => hidden
  | false => visible

/-- Whether a host is hidden. -/
def isHidden : Visibility → Bool
  | visible => false
  | hidden => true

/-- The name of a visibility in a JSON text. -/
def text : Visibility → String
  | visible => "visible"
  | hidden => "hidden"

/-- A visibility spelled out. -/
def inspect : Visibility → String
  | visible => "Visible"
  | hidden => "Hidden"

/-- The visibilities by their names. -/
def variants : List (String × Visibility) := [("visible", visible), ("hidden", hidden)]

/-- The visibility that a JSON text names. -/
def ofJson? (text : List Glyph) : Except Json.Error Visibility :=
  Json.Doc.decodeAll (Json.Doc.variant Json.depthLimit variants) text

end Visibility
end LiveQuery
