import LiveQuery.Notice
import LiveQuery.Settings.Basic
import LiveQuery.Timestamp

/-!
# Log lines

Which notices are logged, and the line that logs one. A component is a part of the library and all
parts within it; where two components hold a part, the smaller one decides.
-/

namespace LiveQuery

/-- How far a level lets notices through: those that matter at least as much. -/
def Level.rank : Level → Nat
  | warn => 2
  | info => 3
  | debug => 4

/-- How far a named level lets notices through; a name that is no level's says nothing. -/
def Level.threshold? (name : String) : Option Nat :=
  [("off", 0), ("error", 1), ("warn", 2), ("info", 3), ("debug", 4), ("trace", 5)].lookup
    name.toLower

namespace LogSettings

/-- Whether a part of the library belongs to a component. -/
def holds (component source : String) : Bool :=
  ("orion::" ++ component).toList.isPrefixOf source.toList

/-- How far notices of a part of the library are let through. -/
def threshold (s : LogSettings) (source : String) : Nat :=
  let levels := ((s.components.map ComponentLevels.levels).getD []).filter fun l => holds l.1 source
  let smallest := levels.mergeSort fun a b => b.1.length ≤ a.1.length
  ((smallest.filterMap fun l => Level.threshold? l.2).head? <|> Level.threshold? s.level).getD 1

/-- Whether a notice is logged. -/
def lets (s : LogSettings) (r : LogRecord) : Bool := r.level.rank ≤ s.threshold r.source

/-- The line that logs a notice. -/
def line (s : LogSettings) (at_ : Timestamp) (r : LogRecord) : String :=
  match s.format with
  | .pretty =>
    let fields := r.fields.map fun f => s!" {f.1}={f.2}"
    s!"{at_.text} {r.level.text} {r.source}: {r.message}" ++ String.join fields
  | .json =>
    (Json.obj
      [("timestamp", .string at_.text), ("level", .string r.level.text),
        ("fields", .obj (("message", .string r.message)
          :: r.fields.map fun f => (f.1, .string f.2))),
        ("target", .string r.source)]).compact

end LogSettings
end LiveQuery
