import LiveQuery.Colour
import LiveQuery.Response
import LiveQuery.Timestamp

/-!
# Snapshots

What a query knows at one moment, and the line that reports it.
-/

namespace LiveQuery

/-- What a query knows. -/
structure Snapshot where
  /-- A request is on its way. -/
  loading : Bool
  error : Option FetchError
  /-- The last response there was; an error leaves it as it is. -/
  response : Option Response
  /-- When the last fetch settled. -/
  fetchedAt : Option Timestamp
  /-- How many fetches have settled. -/
  fetchCount : Nat

namespace Snapshot

/-- What a query knows before its first fetch. -/
def blank : Snapshot := ⟨false, none, none, none, 0⟩

/-- Whether a fetch has settled and none is on its way. -/
def isSettled (s : Snapshot) : Bool := 0 < s.fetchCount && !s.loading

/-- The snapshot as the members of a record. -/
def members (s : Snapshot) : List (String × Json) :=
  [("error", Json.orNull (fun e => .string e.message) s.error),
    ("fetch", .nat s.fetchCount),
    ("fetched_at", Json.orNull (fun t => .string t.text) s.fetchedAt),
    ("response", Json.orNull Response.toJson s.response)]

/-- The mark of a snapshot and the words behind it. -/
def verdict (coloured : Bool) (s : Snapshot) : String :=
  match s.error, s.response with
  | some error, _ => Colour.red.paint coloured "✗" ++ " " ++ error.message
  | none, some response => Colour.green.paint coloured "✓" ++ " " ++ response.summary
  | none, none => Colour.yellow.paint coloured "…"

/-- The line that reports a snapshot: a JSON record, or words for people. -/
def line (compact coloured : Bool) (s : Snapshot) : String :=
  if compact then (Json.object s.members).compact
  else
    let at_ := (s.fetchedAt.map Timestamp.clockText).getD "--:--:--"
    s!"[{at_}] #{s.fetchCount} {s.verdict coloured}"

end Snapshot
end LiveQuery
