import LiveQuery.Endpoint
import LiveQuery.Visibility

/-!
# Notices

What the library reports while it works. A notice is a cause with its particulars; `Notice.record`
gives the level, the source, the words and the fields under which it is logged.
-/

namespace LiveQuery

/-- How much a notice matters. -/
inductive Level where
  | debug
  | info
  | warn
  deriving DecidableEq, Repr

/-- The name of a level. -/
def Level.text : Level → String
  | debug => "DEBUG"
  | info => "INFO"
  | warn => "WARN"

/-- Something that happened. -/
inductive Notice where
  | created (id : Nat) (method : Method) (path : String) (intervalMs : Nat)
  | pollingStarted (id intervalMs : Nat)
  | pollingStopped (id : Nat)
  | fetchFailed (id : Nat) (error : String)
  | sending (method : Method) (url : String)
  | completed (path : String) (status : Nat)
  | failed (path error : String)
  | registered (id : Nat) (path : String) (intervalMs : Nat)
  | resuming (count : Nat)
  | pausing (count : Nat)
  | disposed (id : Nat)
  | tornDown (scope : String) (released : Nat)
  | watching (visibility : Visibility)
  | watchStopped
  | visibilityChanged (before after : Visibility)
  | visibilityClosed
  deriving DecidableEq, Repr

/-- A notice as it is logged. -/
structure LogRecord where
  level : Level
  source : String
  message : String
  fields : List (String × String)
  deriving DecidableEq, Repr

namespace Notice

/-- The part of the library that speaks of clients. -/
def ofClient : String := "orion::client"

/-- The part of the library that speaks of queries. -/
def ofQuery : String := "orion::query"

/-- The part of the library that speaks of registries. -/
def ofRegistry : String := "orion::registry"

/-- The part of the library that speaks of scopes. -/
def ofScope : String := "orion::registry::scope"

/-- The part of the library that speaks of visibility. -/
def ofVisibility : String := "orion::visibility"

/-- A notice as it is logged. -/
def record : Notice → LogRecord
  | created id method path intervalMs =>
    ⟨.debug, ofQuery, "Query created",
      [("query_id", toString id), ("method", method.text), ("url", path),
        ("poll_interval_ms", toString intervalMs)]⟩
  | pollingStarted id intervalMs =>
    ⟨.debug, ofQuery, "Polling started",
      [("query_id", toString id), ("poll_interval_ms", toString intervalMs)]⟩
  | pollingStopped id => ⟨.debug, ofQuery, "Polling stopped", [("query_id", toString id)]⟩
  | fetchFailed id error =>
    ⟨.debug, ofQuery, "Query fetch failed", [("query_id", toString id), ("error", error)]⟩
  | sending method url =>
    ⟨.debug, ofClient, "Sending API request", [("method", method.text), ("url", url)]⟩
  | completed path status =>
    ⟨.debug, ofClient, "API request completed", [("url", path), ("status", toString status)]⟩
  | failed path error =>
    ⟨.warn, ofClient, "API request failed", [("url", path), ("error", error)]⟩
  | registered id path intervalMs =>
    ⟨.debug, ofRegistry, "Registered polling query",
      [("query_id", toString id), ("url", path), ("poll_interval_ms", toString intervalMs)]⟩
  | resuming count =>
    ⟨.info, ofRegistry, "Resuming all polling queries", [("queries", toString count)]⟩
  | pausing count =>
    ⟨.info, ofRegistry, "Pausing all polling queries", [("queries", toString count)]⟩
  | disposed id => ⟨.debug, ofRegistry, "Disposed query", [("query_id", toString id)]⟩
  | tornDown scope released =>
    ⟨.debug, ofScope, "Scope torn down", [("scope", scope), ("released", toString released)]⟩
  | watching visibility =>
    ⟨.info, ofVisibility, "Visibility watcher started", [("visibility", visibility.inspect)]⟩
  | watchStopped => ⟨.info, ofVisibility, "Visibility watcher shutting down", []⟩
  | visibilityChanged before after =>
    ⟨.debug, ofVisibility, "Visibility changed",
      [("from", before.inspect), ("to", after.inspect)]⟩
  | visibilityClosed => ⟨.debug, ofVisibility, "Visibility source closed", []⟩

end Notice
end LiveQuery
