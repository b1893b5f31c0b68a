import LiveQuery.Endpoint

/-!
# Options of a query, and why a query cannot be made

A query polls if its interval is not zero, and then the interval is at least a second.
-/

namespace LiveQuery

/-- Why a query cannot be made. -/
inductive CreationError where
  | missingEndpoint
  | unknownEndpoint (name : String)
  | invalidPollInterval (got : Nat)
  | noRuntime
  deriving DecidableEq, Repr

/-- The shortest interval, in milliseconds, at which a query may poll. -/
def minPollIntervalMs : Nat := 1000

namespace CreationError

/-- The words for an error. -/
def message : CreationError → String
  | missingEndpoint => "endpoint is required"
  | unknownEndpoint name => s!"endpoint is required (unknown endpoint '{name}')"
  | invalidPollInterval got =>
    s!"poll interval must be 0 or at least {minPollIntervalMs}ms, got {got}ms"
  | noRuntime => "no async runtime available to run the query"

end CreationError

/-- The options of a query. -/
structure QueryOptions where
  /-- The wait after a fetch before the next one, in milliseconds; zero means one fetch only. -/
  pollIntervalMs : Nat
  deriving DecidableEq, Repr, Inhabited

namespace QueryOptions

/-- Options that say nothing: one fetch. -/
def default : QueryOptions := ⟨0⟩

/-- Whether a query with these options polls. -/
def isPolling (o : QueryOptions) : Bool := 0 < o.pollIntervalMs

/-- Refuses an interval that is too short. -/
def validate (o : QueryOptions) : Except CreationError Unit :=
  if 0 < o.pollIntervalMs ∧ o.pollIntervalMs < minPollIntervalMs then
    .error (.invalidPollInterval o.pollIntervalMs)
  else .ok ()

/-- The options as a JSON value. -/
def toJson (o : QueryOptions) : Json := .object [("poll_interval_ms", .nat o.pollIntervalMs)]

/-- Takes options out of a text: an object, in which the interval may be missing, or the fields in
an array. -/
def ofDoc : Json.Doc → Except Json.Error QueryOptions
  | .object start members stop => do
    let _ ← Json.descend Json.depthLimit start
    let (held, _) ← Json.Doc.foldMembers take none members stop
    return ⟨held.getD 0⟩
  | .array start items stop => do
    let _ ← Json.descend Json.depthLimit start
    let interval ← items.head?.mapM fun item => item.2.u64
    let _ ← Json.Doc.endFields 1 items stop
    return ⟨interval.getD 0⟩
  | d => d.mismatch "struct QueryOptions"
where
  /-- One member of the object. -/
  take (held : Option Nat) (name : String) (p : Json.Position) (d : Json.Doc) :
      Except Json.Error (Option Nat) :=
    if name = "poll_interval_ms" then Json.Doc.once name p held d.u64
    else do
      d.skip
      return held

/-- The options that a JSON text holds. -/
def ofJson? (text : List Glyph) : Except Json.Error QueryOptions :=
  Json.Doc.decodeAll ofDoc text

/-- The options spelled out. -/
def inspect (o : QueryOptions) : String :=
  Text.record "QueryOptions" [("poll_interval_ms", toString o.pollIntervalMs)]

end QueryOptions
end LiveQuery
