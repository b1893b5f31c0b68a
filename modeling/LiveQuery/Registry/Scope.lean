import LiveQuery.Registry.Basic

/-!
# Scopes

A scope owns the queries of one component and releases them together. It may own any query,
registered or not, and the same query more than once.
-/

namespace LiveQuery

/-- A scope. -/
structure Scope where
  name : String
  owned : List Handle
  deriving DecidableEq, Repr

namespace Scope

/-- A scope that owns nothing. -/
def empty (name : String) : Scope := ⟨name, []⟩

/-- Takes ownership of a query. -/
def adopt (h : Handle) (s : Scope) : Scope := { s with owned := s.owned ++ [h] }

/-- Stops a query, and takes its identifier off the register if it is there. -/
def release (h : Handle) (r : Registry) : Registry × List Effect :=
  match r.queries[h]? with
  | none => (r, [])
  | some q =>
    let (stopped, effects) := r.stopQuery h
    match stopped.dispose q.id with
    | .error _ => (stopped, effects)
    | .ok (_, disposed, more) => (disposed, effects ++ more)

/-- Releases every query the scope owns. The number is that of the queries released. -/
def teardown (s : Scope) (r : Registry) : Nat × Scope × Registry × List Effect :=
  let released := s.owned.length
  let (torn, effects) := Registry.each release s.owned r
  (released, { s with owned := [] }, torn,
    effects ++ (if 0 < released then [.notice (.tornDown s.name released)] else []))

/-- Makes a query through the registry and owns it. -/
def create (endpoint : Option Endpoint) (filter : Filter) (options : QueryOptions)
    (runtime : Bool) (s : Scope) (r : Registry) :
    Except CreationError (Handle × Scope × Registry × List Effect) :=
  match r.create endpoint filter options runtime with
  | .error e => .error e
  | .ok (h, made, effects) => .ok (h, s.adopt h, made, effects)

/-- Makes a query of the endpoint with a name through the registry and owns it. -/
def createNamed (name : String) (filter : Filter) (options : QueryOptions) (runtime : Bool)
    (s : Scope) (r : Registry) :
    Except CreationError (Handle × Scope × Registry × List Effect) :=
  match r.createNamed name filter options runtime with
  | .error e => .error e
  | .ok (h, made, effects) => .ok (h, s.adopt h, made, effects)

end Scope
end LiveQuery
