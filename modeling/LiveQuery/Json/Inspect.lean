import LiveQuery.Json.Basic
import LiveQuery.Text.Inspect

/-!
# JSON values spelled out

The notation for people, in which a value says of what kind it is.
-/

namespace LiveQuery.Json

mutual
/-- A value spelled out. -/
def inspect : Json → String
  | null => "Null"
  | bool b => "Bool(" ++ Text.truth b ++ ")"
  | number n => "Number(" ++ n.text ++ ")"
  | string s => "String(" ++ Text.quoted s ++ ")"
  | array items => "Array " ++ Text.listed (inspectItems items)
  | object members => "Object " ++ Text.mapped (inspectMembers members)

/-- Items spelled out. -/
def inspectItems : List Json → List String
  | [] => []
  | v :: rest => v.inspect :: inspectItems rest

/-- Members by name, their values spelled out. -/
def inspectMembers : List (String × Json) → List (String × String)
  | [] => []
  | (k, v) :: rest => (k, v.inspect) :: inspectMembers rest
end

end LiveQuery.Json
