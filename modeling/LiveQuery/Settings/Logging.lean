import LiveQuery.Json.Decode
import LiveQuery.Named

/-!
# What is logged, and how

A level for everything, levels for single components, and the shape of a line. The directives that
say so to the logger name the components in ascending order, whatever order they were given in.
-/

namespace LiveQuery

/-- The shape of a log line. -/
inductive LogFormat where
  /-- Words for people. -/
  | pretty
  /-- A JSON object. -/
  | json
  deriving DecidableEq, Repr

namespace LogFormat

/-- The name of a shape. -/
def text : LogFormat → String
  | pretty => "pretty"
  | json => "json"

/-- The shapes by their names. -/
def variants : List (String × LogFormat) := [("pretty", pretty), ("json", json)]

/-- The shape with a name, in letters of any case. -/
def ofText? (s : String) : Option LogFormat := variants.lookup s.toLower

/-- The words for a text that names no shape. -/
def unknownMessage (s : String) : String := s!"Invalid log format: {s} (expected pretty or json)"

/-- The shape that a JSON text names. -/
def ofJson? (text : List Glyph) : Except Json.Error LogFormat :=
  Json.Doc.decodeAll (Json.Doc.variant Json.depthLimit variants) text

end LogFormat

/-- Levels of single components, each named once. -/
structure ComponentLevels where
  levels : List (String × String)
  nodup : (levels.map Prod.fst).Nodup
  deriving DecidableEq

namespace ComponentLevels

/-- The levels that a list gives; of two for one component the later one counts. -/
def ofList (levels : List (String × String)) : ComponentLevels :=
  ⟨keepAll levels, nodup_names_keepAll levels⟩

/-- Whether two give every component the same level. -/
def same (a b : ComponentLevels) : Bool := a.levels.isPerm b.levels

/-- Whether one name comes no later than another. -/
def le (a b : String × String) : Bool := !decide (b.1 < a.1)

/-- The levels in ascending order of the components. -/
def sorted (c : ComponentLevels) : List (String × String) := c.levels.mergeSort le

/-- The directive for a component. -/
def directive (level : String × String) : String := s!",orion::{level.1}={level.2}"

/-- The directives for a level and for levels of single components. -/
def directives (level : String) (components : Option ComponentLevels) : String :=
  level ++ String.join (((components.map sorted).getD []).map directive)

end ComponentLevels
end LiveQuery
