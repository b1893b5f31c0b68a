import LiveQuery.Query.Options
import LiveQuery.Query.Snapshot
import LiveQuery.Request

/-!
# Queries

A query asks one endpoint, once or again and again, and holds what it knows in a snapshot. Each
start of polling makes a new loop and cancels the one before it; a loop fetches, waits for the
interval and fetches again until it finds itself cancelled. `timer` names the loop that counts.

The functions of this module are the steps of a query that are never split: whatever runs at the
same time, it runs before or after one of them. A step that does not apply where a loop is changes
nothing.
-/

namespace LiveQuery

/-- Where a polling loop is. -/
inductive Phase where
  /-- It has been decided on, but its task does not exist yet. -/
  | pending
  /-- Its task waits for a first turn. -/
  | spawned
  /-- Its request is on its way. -/
  | fetching
  /-- It waits for a point in time, in milliseconds. -/
  | waiting (due : Nat)
  | ended
  deriving DecidableEq, Repr

/-- A polling loop. -/
structure Loop where
  phase : Phase
  /-- It is to begin no further request once it has begun the first one. -/
  cancelled : Bool
  deriving DecidableEq, Repr

/-- A query. -/
structure Query where
  id : Nat
  client : Client
  endpoint : Endpoint
  filter : Filter
  options : QueryOptions
  snapshot : Snapshot
  /-- How often the snapshot has changed. -/
  version : Nat
  /-- Fetches on their way that belong to no loop. -/
  direct : Nat
  /-- Every loop there ever was. -/
  loops : List Loop
  /-- The loop that counts. -/
  timer : Option Nat

namespace Query

/-- A query that has done nothing yet. -/
def fresh (id : Nat) (client : Client) (endpoint : Endpoint) (filter : Filter)
    (options : QueryOptions) : Query :=
  ⟨id, client, endpoint, filter, options, .blank, 0, 0, [], none⟩

/-- The request that a fetch sends. -/
def request (q : Query) : Request := q.client.request q.endpoint q.filter

/-- Whether a loop has been cancelled; one that does not exist counts as cancelled. -/
def isCancelled (q : Query) (i : Nat) : Bool := (q.loops[i]?.map Loop.cancelled).getD true

/-- Whether a loop counts and goes on. -/
def isPolling (q : Query) : Bool := (q.timer.map fun i => !q.isCancelled i).getD false

/-- The phase of a loop. -/
def phase (q : Query) (i : Nat) : Phase := (q.loops[i]?.map Loop.phase).getD .ended

/-- Whether a loop waits for the interval to pass, and would notice at once that it is cancelled. -/
def isWaiting (q : Query) (i : Nat) : Bool :=
  match q.phase i with
  | .waiting _ => true
  | _ => false

/-- Sets the phase of a loop. -/
def setPhase (q : Query) (i : Nat) (p : Phase) : Query :=
  { q with loops := q.loops.modify i fun l => { l with phase := p } }

/-- Changes the snapshot, so that whoever watches it is told. -/
def change (f : Snapshot → Snapshot) (q : Query) : Query :=
  { q with snapshot := f q.snapshot, version := q.version + 1 }

/-- A request is on its way: the last error is forgotten. -/
def beginFetch : Query → Query := change fun s => { s with loading := true, error := none }

/-- A request has settled: the result replaces the response, or the error is kept beside it. -/
def settleFetch (result : Except FetchError Response) (at_ : Timestamp) : Query → Query :=
  change fun s =>
    let s :=
      match result with
      | .ok response => { s with response := some response }
      | .error e => { s with error := some e }
    { s with loading := false, fetchedAt := some at_, fetchCount := s.fetchCount + 1 }

/-! ## Starting and stopping -/

/-- Cancels the loop that counts. -/
def cancelTimer (q : Query) : Query :=
  match q.timer with
  | none => q
  | some i =>
    { q with timer := none, loops := q.loops.modify i fun l => { l with cancelled := true } }

/-- Cancels the loop that counts and, if the query polls, decides on a new one. -/
def start (q : Query) : Query × Option Nat :=
  let q := q.cancelTimer
  if q.options.isPolling then
    let i := q.loops.length
    ({ q with loops := q.loops ++ [⟨.pending, false⟩], timer := some i }, some i)
  else (q, none)

/-- Makes the task of a loop that has been decided on. -/
def spawn (i : Nat) (q : Query) : Query :=
  match q.phase i with
  | .pending => q.setPhase i .spawned
  | _ => q

/-- Cancels the loop that counts; says whether there was one. -/
def stop (q : Query) : Query × Bool := (q.cancelTimer, q.timer.isSome)

/-! ## Fetching -/

/-- A fetch of no loop begins. -/
def beginDirect (q : Query) : Query := { q.beginFetch with direct := q.direct + 1 }

/-- A fetch of no loop settles. -/
def settleDirect (result : Except FetchError Response) (at_ : Timestamp) (q : Query) : Query :=
  if q.direct = 0 then q
  else { q.settleFetch result at_ with direct := q.direct - 1 }

/-- A loop has its first turn: whether cancelled or not, it fetches. -/
def beginLoop (i : Nat) (q : Query) : Query :=
  match q.phase i with
  | .spawned => q.beginFetch.setPhase i .fetching
  | _ => q

/-- The fetch of a loop settles, and the loop waits for its interval from then on. -/
def settleLoop (i : Nat) (result : Except FetchError Response) (at_ : Timestamp) (now : Nat)
    (q : Query) : Query :=
  match q.phase i with
  | .fetching =>
    (q.settleFetch result at_).setPhase i (.waiting (now + q.options.pollIntervalMs))
  | _ => q

/-- A waiting loop looks about: cancelled, it ends; with its time come, it fetches. -/
def wake (i : Nat) (now : Nat) (q : Query) : Query :=
  match q.phase i with
  | .waiting due =>
    if q.isCancelled i then q.setPhase i .ended
    else if due ≤ now then q.beginFetch.setPhase i .fetching
    else q
  | _ => q

/-- A query spelled out. -/
def inspect (q : Query) : String :=
  Text.record "Query"
    [("id", toString q.id), ("endpoint", q.endpoint.inspect), ("body", q.filter.inspect),
      ("options", q.options.inspect), ("polling", Text.truth q.isPolling)]

end Query
end LiveQuery
