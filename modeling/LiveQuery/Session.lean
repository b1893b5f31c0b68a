import LiveQuery.Named
import LiveQuery.Schedule

/-!
# Sessions

A session is a host that uses one registry by a script: it makes queries, starts and stops them,
lets time pass and looks at what they know. Requests are answered from a prepared list for each
path, in the order in which they are sent.
-/

namespace LiveQuery

/-- A reply that has been prepared, and how long it takes. -/
structure Prepared where
  delayMs : Option Nat
  outcome : Outcome

/-- The prepared replies: for each path, and for every request that no list has a reply for. -/
structure Script where
  base : String
  delayMs : Nat
  otherwise : Prepared
  byPath : List (String × List Prepared)

namespace Script

/-- A reply that says nothing and succeeds. -/
def plain : Prepared := ⟨none, .ok ⟨200, "OK", [], Bytes.ofString "[]"⟩⟩

/-- Takes the next reply of a path. -/
def take (path : String) :
    List (String × List Prepared) → Option Prepared × List (String × List Prepared)
  | [] => (none, [])
  | (p, replies) :: rest =>
    if p = path then
      match replies with
      | [] => (none, (p, []) :: rest)
      | reply :: more => (some reply, (p, more) :: rest)
    else
      let (reply, rest) := take path rest
      (reply, (p, replies) :: rest)

/-- The path of a URL below the base URL. -/
def path (script : Script) (url : String) : String :=
  String.ofList (url.toList.drop script.base.toList.length)

/-- Answers a request. -/
def answer (request : Request) (script : Script) : Delivery × Script :=
  let (reply, byPath) := take (script.path request.url) script.byPath
  let reply := reply.getD script.otherwise
  (.after (reply.delayMs.getD script.delayMs) reply.outcome, { script with byPath })

end Script

/-- A host with a registry, and what it keeps by name. -/
structure Session where
  schedule : Schedule Script
  runtime : Bool
  queries : List (String × Handle)
  /-- Receivers of snapshots: the query, and how many changes of its snapshot have been passed. -/
  receivers : List (String × Handle × Nat)
  scopes : List (String × Scope)
  watchers : List (String × Nat)

namespace Session

/-- How a query is to be made: its body as a text, its interval, and the name to keep it under. -/
structure Order where
  body : Option String
  intervalMs : Nat
  name : Option String
  deriving Inhabited

/-- What the host does next. -/
inductive Step where
  | query (endpoint : Option Endpoint) (order : Order)
  | queryNamed (name : String) (order : Order)
  | make (endpoint : Option Endpoint) (id : Nat) (order : Order)
  | start (query : String)
  | stop (query : String)
  | fetch (query : String)
  | info (query : String)
  | inspect (query : String)
  | get (id : Nat)
  | subscribe (query receiver : String)
  | receive (receiver : String)
  | advance (ms : Nat)
  | startAll
  | stopAll
  | dispose (id : Nat)
  | scopeNew (scope : String)
  | scopeQuery (scope : String) (endpoint : Option Endpoint) (order : Order)
  | scopeQueryNamed (scope name : String) (order : Order)
  | scopeAdopt (scope query : String)
  | scopeTeardown (scope : String)
  | scopeInfo (scope : String)
  | scopeDrop (scope : String)
  | watcherStart (watcher : String) (visibility : Visibility)
  | watcherSend (watcher : String) (visibility : Visibility)
  | watcherCancel (watcher : String)
  | watcherClose (watcher : String)
  | watcherDone (watcher : String)
  | apply (visibility : Visibility)

/-- What a step comes to. -/
inductive Answer where
  | nothing
  | made (q : Query)
  | unreadable (e : Json.Error)
  | refused (e : CreationError)
  | notRegistered (e : RegistryError)
  | disposed (q : Query)
  | query (q : Query)
  | spelled (text : String)
  | snapshot (s : Snapshot)
  | received (changed : Bool) (s : Snapshot)
  | released (count : Nat)
  | scope (s : Scope)
  | delivered (ok : Bool)
  | done (yes : Bool)

/-- The host before its first step. -/
def start (baseUrl : String) (delayMs : Nat) (otherwise : Prepared)
    (byPath : List (String × List Prepared)) (runtime : Bool) : Session :=
  let client := Client.ofUrl baseUrl
  let script : Script := ⟨client.baseUrl, delayMs, otherwise, byPath⟩
  ⟨.start Script.answer script ⟨0, 0⟩ client, runtime, [], [], [], []⟩

/-- The registry of the host. -/
def registry (s : Session) : Registry := s.schedule.registry

/-- The handle of a query that is kept by name. -/
def handle? (s : Session) (name : String) : Option Handle := s.queries.lookup name

/-- A query by its handle. -/
def at? (s : Session) (h : Handle) : Option Query := s.registry.queries[h]?

/-- A query that is kept by name. -/
def query? (s : Session) (name : String) : Option Query := do s.at? (← s.handle? name)

/-- Does something to the registry. -/
def update (s : Session) (f : Registry → Registry × List Effect) : Session :=
  { s with schedule := s.schedule.withRegistry f }

/-- Takes over a query that has been made, or the reason why it has not. -/
def keepMade (s : Session) (order : Order)
    (made : Except CreationError (Handle × Registry × List Effect)) : Answer × Session :=
  match made with
  | .error e => (.refused e, s)
  | .ok (h, r, effects) =>
    let s := { s with schedule := s.schedule.absorb r effects }
    let s :=
      match order.name with
      | some name => { s with queries := keep name h s.queries }
      | none => s
    match s.at? h with
    | some q => (.made q, s)
    | none => (.nothing, s)

/-- Reads the body of an order and goes on with the filter and the options. -/
def withOrder (s : Session) (order : Order)
    (next : Filter → QueryOptions → Answer × Session) : Answer × Session :=
  match (FilterFlags.mk order.body none none).filter? with
  | .error e => (.unreadable e, s)
  | .ok filter => next filter ⟨order.intervalMs⟩

/-- Makes a query in a scope. -/
def makeIn (s : Session) (scope : String) (order : Order)
    (make : Scope → Except CreationError (Handle × Scope × Registry × List Effect)) :
    Answer × Session :=
  match s.scopes.lookup scope with
  | none => (.nothing, s)
  | some owner =>
    match make owner with
    | .error e => (.refused e, s)
    | .ok (h, owner, r, effects) =>
      { s with scopes := keep scope owner s.scopes }.keepMade order (.ok (h, r, effects))

/-- Tears a scope down. -/
def teardown (s : Session) (scope : String) : Nat × Session :=
  match s.scopes.lookup scope with
  | none => (0, s)
  | some owner =>
    let (released, owner, r, effects) := owner.teardown s.registry
    (released,
      { s with
        schedule := s.schedule.absorb r effects
        scopes := keep scope owner s.scopes })

/-- Does something to a query that is kept by name. -/
def updateQuery (s : Session) (name : String)
    (f : Handle → Registry → Registry × List Effect) : Session :=
  match s.handle? name with
  | none => s
  | some h => s.update (f h)

/-- Does something to a watcher that is kept by name. -/
def updateWatcher (s : Session) (name : String) (f : Watcher → Watcher) : Session :=
  match s.watchers.lookup name with
  | none => s
  | some w => { s with schedule := s.schedule.withWatcher w f }

/-- A watcher that is kept by name. -/
def watcher? (s : Session) (name : String) : Option Watcher := do
  s.schedule.watchers[← s.watchers.lookup name]?

/-- An answer about something, if it is there. -/
def about (answer : α → Answer) (a : Option α) : Answer := (a.map answer).getD .nothing

/-- One step of the host. -/
def perform (s : Session) : Step → Answer × Session
  | .query endpoint order =>
    s.withOrder order fun filter options =>
      s.keepMade order (s.registry.create endpoint filter options s.runtime)
  | .queryNamed name order =>
    s.withOrder order fun filter options =>
      s.keepMade order (s.registry.createNamed name filter options s.runtime)
  | .make endpoint id order =>
    s.withOrder order fun filter options =>
      s.keepMade order (s.registry.make id endpoint filter options s.runtime)
  | .start query => (.nothing, s.updateQuery query Registry.startQuery)
  | .stop query => (.nothing, s.updateQuery query Registry.stopQuery)
  | .fetch query =>
    match s.handle? query with
    | none => (.nothing, s)
    | some h =>
      let (snapshot, schedule) := s.schedule.fetch h
      (about .snapshot snapshot, { s with schedule })
  | .info query => (about .query (s.query? query), s)
  | .inspect query => (about (fun q => .spelled q.inspect) (s.query? query), s)
  | .get id => (about .query (do s.at? (← s.registry.get? id)), s)
  | .subscribe query receiver =>
    match s.handle? query, s.query? query with
    | some h, some q =>
      (.nothing, { s with receivers := keep receiver (h, q.version) s.receivers })
    | _, _ => (.nothing, s)
  | .receive receiver =>
    match s.receivers.lookup receiver with
    | none => (.nothing, s)
    | some (h, seen) =>
      match s.at? h with
      | none => (.nothing, s)
      | some q =>
        (.received (seen ≠ q.version) q.snapshot,
          { s with receivers := keep receiver (h, q.version) s.receivers })
  | .advance ms => (.nothing, { s with schedule := s.schedule.advance ms })
  | .startAll => (.nothing, s.update Registry.resumeAll)
  | .stopAll => (.nothing, s.update Registry.pauseAll)
  | .dispose id =>
    match s.registry.dispose id with
    | .error e => (.notRegistered e, s)
    | .ok (h, r, effects) =>
      let s := { s with schedule := s.schedule.absorb r effects }
      (about .disposed (s.at? h), s)
  | .scopeNew scope =>
    let (_, s) := s.teardown scope
    (.nothing, { s with scopes := keep scope (.empty scope) s.scopes })
  | .scopeQuery scope endpoint order =>
    s.withOrder order fun filter options =>
      s.makeIn scope order fun owner =>
        owner.create endpoint filter options s.runtime s.registry
  | .scopeQueryNamed scope name order =>
    s.withOrder order fun filter options =>
      s.makeIn scope order fun owner =>
        owner.createNamed name filter options s.runtime s.registry
  | .scopeAdopt scope query =>
    match s.scopes.lookup scope, s.handle? query with
    | some owner, some h =>
      (.nothing, { s with scopes := keep scope (owner.adopt h) s.scopes })
    | _, _ => (.nothing, s)
  | .scopeTeardown scope =>
    let (released, s) := s.teardown scope
    (.released released, s)
  | .scopeInfo scope => (about .scope (s.scopes.lookup scope), s)
  | .scopeDrop scope =>
    let (_, s) := s.teardown scope
    (.nothing, { s with scopes := s.scopes.filter fun entry => entry.1 ≠ scope })
  | .watcherStart watcher visibility =>
    let (w, schedule) := s.schedule.startWatcher visibility
    (.nothing, { s with schedule, watchers := keep watcher w s.watchers })
  | .watcherSend watcher visibility =>
    match s.watcher? watcher with
    | none => (.nothing, s)
    | some w =>
      (.delivered (w.send visibility).2,
        s.updateWatcher watcher fun w => (w.send visibility).1)
  | .watcherCancel watcher => (.nothing, s.updateWatcher watcher Watcher.cancel)
  | .watcherClose watcher => (.nothing, s.updateWatcher watcher Watcher.close)
  | .watcherDone watcher => (about (fun w => .done w.isDone) (s.watcher? watcher), s)
  | .apply visibility => (.nothing, s.update (Registry.apply visibility))

/-- Forgets what has been sent and logged so far. -/
def forget (s : Session) : Session :=
  { s with schedule := { s.schedule with sent := #[], notices := #[] } }

/-- The steps of a script in turn, each with its answer and the host after it. What the host shows
as sent and logged is what that step brought. -/
def run (s : Session) : List Step → List (Answer × Session)
  | [] => []
  | step :: rest =>
    let (answer, s) := s.forget.perform step
    (answer, s) :: s.run rest

end Session
end LiveQuery
