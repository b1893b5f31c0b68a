import LiveQuery.Text.Quoted

/-!
# Values spelled out

The notation in which the program shows its own values to people who look into it: records with
named fields, optional values, lists and maps, with text quoted.
-/

namespace LiveQuery.Text

/-- A record with its fields by name. -/
def record (name : String) (fields : List (String × String)) : String :=
  let inside := ", ".intercalate (fields.map fun f => f.1 ++ ": " ++ f.2)
  name ++ " \x7b " ++ inside ++ " \x7d"

/-- A record of which some fields are not shown. -/
def openRecord (name : String) (fields : List (String × String)) : String :=
  let inside := ", ".intercalate (fields.map (fun f => f.1 ++ ": " ++ f.2) ++ [".."])
  name ++ " \x7b " ++ inside ++ " \x7d"

/-- A value that may be missing. -/
def maybe (spell : α → String) : Option α → String
  | none => "None"
  | some a => "Some(" ++ spell a ++ ")"

/-- A list. -/
def listed (items : List String) : String := "[" ++ ", ".intercalate items ++ "]"

/-- A map from texts. -/
def mapped (entries : List (String × String)) : String :=
  "\x7b" ++ ", ".intercalate (entries.map fun e => quoted e.1 ++ ": " ++ e.2) ++ "\x7d"

/-- A truth value. -/
def truth : Bool → String
  | true => "true"
  | false => "false"

end LiveQuery.Text
