import LiveQuery.Notice
import LiveQuery.Query.Basic

/-!
# Registries

A registry makes queries and keeps the polling ones by their identifiers, so that all of them can
be paused and resumed together. Identifiers come from a counter that only grows. `Registry.queries`
holds every query ever made, registered or not; a handle is a place in that list.

What a step asks of the world around it is a list of effects, in order: notices to log, and tasks
that are to have a turn.
-/

namespace LiveQuery

/-- A place in the list of all queries. -/
abbrev Handle := Nat

/-- A task of a query. -/
inductive Task where
  /-- The only fetch of a query that does not poll. -/
  | first (h : Handle)
  /-- A polling loop. -/
  | loop (h : Handle) (i : Nat)
  deriving DecidableEq, Repr

/-- What a step asks for. -/
inductive Effect where
  | notice (n : Notice)
  | turn (t : Task)
  deriving DecidableEq, Repr

/-- A registry. -/
structure Registry where
  client : Client
  queries : List Query
  /-- The registered identifiers and what they stand for. -/
  entries : List (Nat × Handle)
  /-- How many identifiers have been handed out. -/
  issued : Nat

/-- Why a query cannot be disposed of. -/
inductive RegistryError where
  | notFound (id : Nat)
  deriving DecidableEq, Repr

/-- The words for an error. -/
def RegistryError.message : RegistryError → String
  | notFound id => s!"query not registered: {id}"

namespace Registry

/-- A registry without queries. -/
def empty (client : Client) : Registry := ⟨client, [], [], 0⟩

/-- The registered identifiers, in ascending order. -/
def ids (r : Registry) : List Nat := (r.entries.map Prod.fst).mergeSort

/-- The handle of a registered query. -/
def get? (r : Registry) (id : Nat) : Option Handle := r.entries.lookup id

/-- Replaces a query. -/
def put (h : Handle) (q : Query) (r : Registry) : Registry :=
  { r with queries := r.queries.set h q }

/-- Does something to each of a list of handles in turn. -/
def each (step : Handle → Registry → Registry × List Effect) :
    List Handle → Registry → Registry × List Effect
  | [], r => (r, [])
  | h :: rest, r =>
    let (r, first) := step h r
    let (r, more) := each step rest r
    (r, first ++ more)

/-! ## Single queries -/

/-- The turn that a loop gets when it is cancelled while it waits. -/
def wakeCancelled (h : Handle) (q : Query) : List Effect :=
  match q.timer with
  | some i => if q.isWaiting i then [.turn (.loop h i)] else []
  | none => []

/-- Starts the polling of a query anew. -/
def startQuery (h : Handle) (r : Registry) : Registry × List Effect :=
  match r.queries[h]? with
  | none => (r, [])
  | some q =>
    match q.start with
    | (started, none) => (r.put h started, wakeCancelled h q)
    | (started, some i) =>
      (r.put h (started.spawn i),
        wakeCancelled h q
          ++ [.notice (.pollingStarted q.id q.options.pollIntervalMs), .turn (.loop h i)])

/-- Stops the polling of a query. -/
def stopQuery (h : Handle) (r : Registry) : Registry × List Effect :=
  match r.queries[h]? with
  | none => (r, [])
  | some q =>
    let (stopped, wasPolling) := q.stop
    (r.put h stopped,
      wakeCancelled h q ++ (if wasPolling then [.notice (.pollingStopped q.id)] else []))

/-! ## Making queries -/

/-- The endpoint of a query that can be made: there must be one, the interval must be allowed and
there must be something to run tasks on, and the first of these that fails is the error. -/
def check (endpoint : Option Endpoint) (options : QueryOptions) (runtime : Bool) :
    Except CreationError Endpoint :=
  match endpoint with
  | none => .error .missingEndpoint
  | some e =>
    match options.validate with
    | .error error => .error error
    | .ok () => if runtime then .ok e else .error .noRuntime

/-- Makes a query under an identifier, and its first task, without registering it. -/
def make (id : Nat) (endpoint : Option Endpoint) (filter : Filter) (options : QueryOptions)
    (runtime : Bool) (r : Registry) : Except CreationError (Handle × Registry × List Effect) :=
  match check endpoint options runtime with
  | .error error => .error error
  | .ok e =>
    let h := r.queries.length
    let made := { r with queries := r.queries ++ [.fresh id r.client e filter options] }
    let created := Effect.notice (.created id e.method e.path options.pollIntervalMs)
    if options.isPolling then
      let (started, effects) := made.startQuery h
      .ok (h, started, created :: effects)
    else .ok (h, made, [created, .turn (.first h)])

/-- Makes a query under the next identifier, and registers it if it polls. -/
def create (endpoint : Option Endpoint) (filter : Filter) (options : QueryOptions)
    (runtime : Bool) (r : Registry) : Except CreationError (Handle × Registry × List Effect) :=
  match check endpoint options runtime with
  | .error error => .error error
  | .ok e =>
    let id := r.issued
    match make id (some e) filter options runtime { r with issued := id + 1 } with
    | .error error => .error error
    | .ok (h, made, effects) =>
      if options.isPolling then
        .ok (h, { made with entries := made.entries ++ [(id, h)] },
          effects ++ [.notice (.registered id e.path options.pollIntervalMs)])
      else .ok (h, made, effects)

/-- Makes a query of the endpoint with a name. -/
def createNamed (name : String) (filter : Filter) (options : QueryOptions) (runtime : Bool)
    (r : Registry) : Except CreationError (Handle × Registry × List Effect) :=
  match Endpoint.lookup? name with
  | none => .error (.unknownEndpoint name)
  | some e => r.create (some e) filter options runtime

/-! ## All queries -/

/-- The handles of the registered queries. -/
def handles (r : Registry) : List Handle := r.entries.map Prod.snd

/-- Starts every registered query anew. -/
def resumeAll (r : Registry) : Registry × List Effect :=
  let (resumed, effects) := each startQuery r.handles r
  (resumed, .notice (.resuming r.handles.length) :: effects)

/-- Stops every registered query. -/
def pauseAll (r : Registry) : Registry × List Effect :=
  let (paused, effects) := each stopQuery r.handles r
  (paused, .notice (.pausing r.handles.length) :: effects)

/-- Acts on a visibility: hidden pauses, visible resumes. -/
def apply (v : Visibility) (r : Registry) : Registry × List Effect :=
  match v with
  | .hidden => r.pauseAll
  | .visible => r.resumeAll

/-- Takes an identifier off the register. -/
def remove (id : Nat) (r : Registry) : Registry :=
  { r with entries := r.entries.filter fun e => e.1 ≠ id }

/-- Takes an identifier off the register and stops the query it stood for. -/
def dispose (id : Nat) (r : Registry) :
    Except RegistryError (Handle × Registry × List Effect) :=
  match r.get? id with
  | none => .error (.notFound id)
  | some h =>
    let (stopped, effects) := (r.remove id).stopQuery h
    .ok (h, stopped, effects ++ [.notice (.disposed id)])

end Registry
end LiveQuery
