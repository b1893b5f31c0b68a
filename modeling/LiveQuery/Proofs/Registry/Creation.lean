import LiveQuery.Proofs.Registry.Account
import LiveQuery.Schedule

/-!
# Making a query, and failing to

A query is made in pieces: the endpoint is looked up, the arguments are checked, an identifier is
taken from the counter, the query is made under it, which checks its arguments once more, and then
it is registered and owned. An `Attempt` does the pieces one after the other on everything that
runs; where a piece fails, what the pieces before it have done stays done. `Creation.run_attempt`
says that an attempt is what the function for it does. `Creation.fails_iff_refused` says when it
fails, and that nothing has been done then: the second check never refuses what has passed the
first.
-/

namespace LiveQuery

/-- What a query is to be made of: an endpoint, if there is one, or the name of one. -/
inductive Wanted where
  | endpoint (e : Option Endpoint)
  | named (name : String)

/-- Who makes a query: the registry, or a scope through it, which then owns the query. -/
inductive Maker where
  | registry
  | scope

/-- How a query is to be made. -/
structure Creation where
  maker : Maker
  wanted : Wanted
  filter : Filter
  options : QueryOptions
  /-- Whether there is something to run tasks on. -/
  runtime : Bool

/-- There is an endpoint. -/
def Wanted.IsKnown : Wanted → Prop
  | .endpoint e => e.isSome = true
  | .named name => ∃ n : EndpointName, n.text = name

/-- The endpoint if it is given, or the one with the name. -/
def Wanted.found : Wanted → Except CreationError (Option Endpoint)
  | .endpoint e => .ok e
  | .named name =>
    match Endpoint.lookup? name with
    | none => .error (.unknownEndpoint name)
    | some e => .ok (some e)

/-- Intervals at which nothing may poll, in milliseconds. -/
def QueryOptions.IsTooOften (o : QueryOptions) : Prop :=
  1 ≤ o.pollIntervalMs ∧ o.pollIntervalMs ≤ 999

/-- Why a query cannot be made: each reason counts if there is none before it. -/
inductive Creation.Refused (c : Creation) : CreationError → Prop
  | missing (hw : c.wanted = .endpoint none) : c.Refused .missingEndpoint
  | unknown {name : String} (hw : c.wanted = .named name)
    (hn : ∀ n : EndpointName, n.text ≠ name) : c.Refused (.unknownEndpoint name)
  | interval (hw : c.wanted.IsKnown) (ho : c.options.IsTooOften) :
    c.Refused (.invalidPollInterval c.options.pollIntervalMs)
  | runtime (hw : c.wanted.IsKnown) (ho : ¬ c.options.IsTooOften) (hr : c.runtime = false) :
    c.Refused .noRuntime

/-! ## Attempts -/

/-- Everything that runs, and a scope that may own what is made. -/
structure Scoped (σ : Type) where
  schedule : Schedule σ
  scope : Scope

/-- Something that may fail half-way; what it has done by then stays done. -/
abbrev Attempt (σ α : Type) := ExceptT CreationError (StateM (Scoped σ)) α

namespace Attempt

variable {σ α : Type}

/-- Goes on with what a check gives, or fails as it does. -/
def pass (result : Except CreationError α) : Attempt σ α := ExceptT.mk (pure result)

/-- Looks the endpoint up if it is given by its name. -/
def find (w : Wanted) : Attempt σ (Option Endpoint) := pass w.found

/-- Reads the registry. -/
def registry : Attempt σ Registry := return (← get).schedule.registry

/-- Does something to the registry. -/
def act (a : α) (r : Registry) (effects : List Effect) : Attempt σ α :=
  modifyGet fun state => (a, { state with schedule := state.schedule.absorb r effects })

/-- Takes the next identifier from the counter. -/
def issue : Attempt σ Nat := do
  let r ← registry
  act r.issued { r with issued := r.issued + 1 } []

/-- Makes a query under an identifier. -/
def make (id : Nat) (endpoint : Option Endpoint) (filter : Filter) (options : QueryOptions)
    (runtime : Bool) : Attempt σ Handle := do
  let (h, made, effects) ← pass ((← registry).make id endpoint filter options runtime)
  act h made effects

/-- Registers a query. -/
def enter (id : Nat) (h : Handle) (e : Endpoint) (options : QueryOptions) : Attempt σ Unit := do
  let r ← registry
  act () { r with entries := r.entries ++ [(id, h)] }
    [.notice (.registered id e.path options.pollIntervalMs)]

/-- The scope takes ownership of a query. -/
def own (h : Handle) : Attempt σ Unit :=
  modify fun state => { state with scope := state.scope.adopt h }

/-- Makes a query under the next identifier, and registers it if it polls. -/
def create (endpoint : Option Endpoint) (filter : Filter) (options : QueryOptions)
    (runtime : Bool) : Attempt σ Handle := do
  let e ← pass (Registry.check endpoint options runtime)
  let id ← issue
  let h ← make id (some e) filter options runtime
  if options.isPolling then enter id h e options
  return h

end Attempt

namespace Creation

variable {σ : Type}

/-- Makes a query piece by piece. -/
def attempt (c : Creation) : Attempt σ Handle := do
  let endpoint ← Attempt.find c.wanted
  let h ← Attempt.create endpoint c.filter c.options c.runtime
  match c.maker with
  | .registry => return h
  | .scope =>
    Attempt.own h
    return h

/-- The function that makes a query, and the scope afterwards. -/
def result (c : Creation) (s : Scope) (r : Registry) :
    Except CreationError (Handle × Scope × Registry × List Effect) :=
  match c.maker, c.wanted with
  | .registry, .endpoint e =>
    (r.create e c.filter c.options c.runtime).map fun (h, made, effects) => (h, s, made, effects)
  | .registry, .named name =>
    (r.createNamed name c.filter c.options c.runtime).map fun (h, made, effects) =>
      (h, s, made, effects)
  | .scope, .endpoint e => s.create e c.filter c.options c.runtime r
  | .scope, .named name => s.createNamed name c.filter c.options c.runtime r

end Creation

namespace Wanted

/-- The endpoint that a query is to be made of. -/
def endpoint? : Wanted → Option Endpoint
  | .endpoint e => e
  | .named name => Endpoint.lookup? name

/-- Why a query cannot be made if there is no endpoint. -/
def unfound : Wanted → CreationError
  | .endpoint _ => .missingEndpoint
  | .named name => .unknownEndpoint name

end Wanted

/-- The endpoint of a query that can be made, or why it cannot: what is wanted has to be there, and
the other arguments have to pass the check. -/
def Creation.checked (c : Creation) : Except CreationError Endpoint :=
  match c.wanted.endpoint? with
  | none => .error c.wanted.unfound
  | some e => Registry.check (some e) c.options c.runtime

/-! ## What is refused -/

/-- A name is unknown if no endpoint has it. -/
theorem Endpoint.lookup?_eq_none_iff {name : String} :
    Endpoint.lookup? name = none ↔ ∀ n : EndpointName, n.text ≠ name := by
  rw [Endpoint.lookup?, Option.map_eq_none_iff, EndpointName.ofText?, List.find?_eq_none]
  constructor
  · intro h n
    have hmem : n ∈ EndpointName.all := by cases n <;> decide
    simpa using h n hmem
  · intro h n _
    simpa using h n

theorem QueryOptions.validate_eq_error_iff {o : QueryOptions} {error : CreationError} :
    o.validate = .error error ↔
      o.IsTooOften ∧ error = .invalidPollInterval o.pollIntervalMs := by
  have hmin : o.IsTooOften ↔ 0 < o.pollIntervalMs ∧ o.pollIntervalMs < minPollIntervalMs := by
    unfold IsTooOften minPollIntervalMs
    omega
  rw [hmin]
  unfold validate
  by_cases ho : 0 < o.pollIntervalMs ∧ o.pollIntervalMs < minPollIntervalMs
  · rw [if_pos ho]
    simp [ho, eq_comm]
  · rw [if_neg ho]
    simp [ho]

/-- Of an endpoint that there is the check refuses an interval first, and then that there is nothing
to run tasks on. -/
theorem Registry.check_some_eq_error_iff {e : Endpoint} {o : QueryOptions} {runtime : Bool}
    {error : CreationError} :
    check (some e) o runtime = .error error ↔
      o.IsTooOften ∧ error = .invalidPollInterval o.pollIntervalMs ∨
        ¬ o.IsTooOften ∧ runtime = false ∧ error = .noRuntime := by
  unfold check
  cases hv : o.validate with
  | error error' =>
    obtain ⟨ho, rfl⟩ := QueryOptions.validate_eq_error_iff.mp hv
    simp [ho, eq_comm]
  | ok u =>
    have ho : ¬ o.IsTooOften := by
      intro ho
      have hrefused := QueryOptions.validate_eq_error_iff.mpr ⟨ho, rfl⟩
      rw [hv] at hrefused
      cases hrefused
    cases runtime <;> simp [ho, eq_comm]

/-- What is wanted is not known exactly if there is no endpoint. -/
theorem Wanted.endpoint?_eq_none_iff {w : Wanted} : w.endpoint? = none ↔ ¬ w.IsKnown := by
  cases w with
  | endpoint e => simp [endpoint?, IsKnown]
  | named name =>
    unfold endpoint? IsKnown
    rw [Endpoint.lookup?_eq_none_iff, not_exists]

namespace Creation

variable {σ : Type} {c : Creation} {error : CreationError}

/-- Without an endpoint that is the reason, whatever else is wrong. -/
theorem refused_iff_of_not_isKnown (hw : ¬ c.wanted.IsKnown) :
    c.Refused error ↔ error = c.wanted.unfound := by
  constructor
  · intro hrefused
    cases hrefused with
    | missing he => rw [he]; rfl
    | unknown he => rw [he]; rfl
    | interval hknown | runtime hknown => exact absurd hknown hw
  · rintro rfl
    cases he : c.wanted with
    | endpoint e =>
      rw [he, Wanted.IsKnown, Bool.not_eq_true, Option.isSome_eq_false_iff,
        Option.isNone_iff_eq_none] at hw
      exact .missing (hw ▸ he)
    | named name =>
      rw [he, Wanted.IsKnown, not_exists] at hw
      exact .unknown he hw

/-- With an endpoint the interval is looked at first, and then whether tasks can run. -/
theorem refused_iff_of_isKnown (hw : c.wanted.IsKnown) :
    c.Refused error ↔
      c.options.IsTooOften ∧ error = .invalidPollInterval c.options.pollIntervalMs ∨
        ¬ c.options.IsTooOften ∧ c.runtime = false ∧ error = .noRuntime := by
  constructor
  · intro hrefused
    cases hrefused with
    | missing he => simp [he, Wanted.IsKnown] at hw
    | unknown he hn =>
      rw [he] at hw
      obtain ⟨n, hname⟩ := hw
      exact absurd hname (hn n)
    | interval _ ho => exact .inl ⟨ho, rfl⟩
    | runtime _ ho hr => exact .inr ⟨ho, hr, rfl⟩
  · rintro (⟨ho, rfl⟩ | ⟨ho, hr, rfl⟩)
    · exact .interval hw ho
    · exact .runtime hw ho hr

/-- The checks refuse a creation for the reason for which it is to be refused. -/
theorem checked_eq_error_iff : c.checked = .error error ↔ c.Refused error := by
  unfold checked
  cases he : c.wanted.endpoint? with
  | none =>
    rw [refused_iff_of_not_isKnown (Wanted.endpoint?_eq_none_iff.mp he)]
    simp [eq_comm]
  | some e =>
    have hw : c.wanted.IsKnown := by
      by_contra hn
      rw [Wanted.endpoint?_eq_none_iff.mpr hn] at he
      cases he
    rw [refused_iff_of_isKnown hw]
    exact Registry.check_some_eq_error_iff

end Creation

/-! ## What an attempt does -/

/-- Taking over a registry and then another one is taking over the second with the effects of
both. -/
theorem Schedule.absorb_absorb {σ : Type} (s : Schedule σ) (r r' : Registry)
    (effects effects' : List Effect) :
    (s.absorb r effects).absorb r' effects' = s.absorb r' (effects ++ effects') := by
  have happend (a : Array Notice) (ns ns' : List Notice) : a ++ ns ++ ns' = a ++ (ns ++ ns') := by
    apply Array.ext'
    simp
  simp only [absorb, List.filterMap_append, List.append_assoc, happend]

/-- Making a query under an identifier fails for nothing but what the check refuses. -/
theorem Registry.exists_make_iff (id : Nat) (filter : Filter) (r : Registry)
    {endpoint : Option Endpoint} {options : QueryOptions} {runtime : Bool} :
    (∃ made, r.make id endpoint filter options runtime = .ok made) ↔
      ∃ e, check endpoint options runtime = .ok e := by
  unfold make
  cases check endpoint options runtime with
  | error => simp
  | ok e => cases options.isPolling <;> simp

namespace Attempt

variable {σ α β : Type}

/-- An attempt that fails half-way leaves what it has come to by then. -/
theorem run_bind (x : Attempt σ α) (k : α → Attempt σ β) (state : Scoped σ) :
    (x >>= k).run state =
      match x.run state with
      | (.error e, state') => (.error e, state')
      | (.ok a, state') => (k a).run state' := by
  rw [ExceptT.run_bind]
  simp only [bind, StateT.bind]
  cases hx : x.run state with
  | mk result state' => cases result <;> rfl

theorem run_pass (result : Except CreationError α) (state : Scoped σ) :
    (pass result).run state = (result, state) := rfl

theorem run_issue (state : Scoped σ) :
    (issue : Attempt σ Nat).run state =
      (.ok state.schedule.registry.issued,
        { state with
          schedule := state.schedule.absorb
            { state.schedule.registry with issued := state.schedule.registry.issued + 1 } [] }) :=
  rfl

theorem run_make {id : Nat} {endpoint : Option Endpoint} {filter : Filter}
    {options : QueryOptions} {runtime : Bool} {state : Scoped σ} {h : Handle} {made : Registry}
    {effects : List Effect}
    (hmade : state.schedule.registry.make id endpoint filter options runtime =
      .ok (h, made, effects)) :
    (make id endpoint filter options runtime).run state =
      (.ok h, { state with schedule := state.schedule.absorb made effects }) := by
  unfold make
  rw [run_bind]
  show (_ >>= _ : Attempt σ Handle).run state = _
  rw [run_bind, run_pass, hmade]
  rfl

theorem run_enter (id : Nat) (h : Handle) (e : Endpoint) (options : QueryOptions)
    (state : Scoped σ) :
    (enter id h e options : Attempt σ Unit).run state =
      (.ok (), { state with
        schedule := state.schedule.absorb
          { state.schedule.registry with
            entries := state.schedule.registry.entries ++ [(id, h)] }
          [.notice (.registered id e.path options.pollIntervalMs)] }) := rfl

theorem run_create (endpoint : Option Endpoint) (filter : Filter) (options : QueryOptions)
    (runtime : Bool) (state : Scoped σ) :
    (create endpoint filter options runtime).run state =
      match state.schedule.registry.create endpoint filter options runtime with
      | .error e => (.error e, state)
      | .ok (h, r, effects) =>
        (.ok h, { state with schedule := state.schedule.absorb r effects }) := by
  unfold create Registry.create
  rw [run_bind, run_pass]
  cases hcheck : Registry.check endpoint options runtime with
  | error => rfl
  | ok e =>
    -- What has passed the first check passes the second one, so that no identifier is lost.
    have hagain : Registry.check (some e) options runtime = .ok e := Registry.check_some hcheck
    obtain ⟨⟨h, made, effects⟩, hmade⟩ :=
      (Registry.exists_make_iff state.schedule.registry.issued filter
        { state.schedule.registry with issued := state.schedule.registry.issued + 1 }).mpr
        ⟨e, hagain⟩
    show (issue >>= _ : Attempt σ Handle).run state = _
    rw [run_bind, run_issue]
    show (make state.schedule.registry.issued (some e) filter options runtime >>= _ :
      Attempt σ Handle).run _ = _
    rw [run_bind, run_make hmade]
    simp only [hmade]
    cases options.isPolling with
    | false =>
      simp only [Schedule.absorb_absorb]
      rfl
    | true =>
      show (enter state.schedule.registry.issued h e options >>= _ : Attempt σ Handle).run _ = _
      rw [run_bind, run_enter]
      simp only [Schedule.absorb_absorb]
      rfl

end Attempt

/-- The registry refuses what its check refuses. -/
theorem Registry.create_eq_error_iff (filter : Filter) (r : Registry) {endpoint : Option Endpoint}
    {options : QueryOptions} {runtime : Bool} {error : CreationError} :
    r.create endpoint filter options runtime = .error error ↔
      check endpoint options runtime = .error error := by
  unfold create
  cases hcheck : check endpoint options runtime with
  | error => simp
  | ok e =>
    obtain ⟨⟨h, made, effects⟩, hmade⟩ :=
      (exists_make_iff r.issued filter { r with issued := r.issued + 1 }).mpr ⟨e, check_some hcheck⟩
    simp only [hmade]
    cases options.isPolling <;> simp

namespace Creation

variable {σ : Type}

/-- However a query is made, the registry makes it, and a scope only comes to own it. -/
theorem result_eq (c : Creation) (s : Scope) (r : Registry) :
    c.result s r =
      match c.wanted.found with
      | .error e => .error e
      | .ok endpoint =>
        match r.create endpoint c.filter c.options c.runtime with
        | .error e => .error e
        | .ok (h, made, effects) =>
          .ok (h, match c.maker with | .registry => s | .scope => s.adopt h, made, effects) := by
  obtain ⟨maker, wanted, filter, options, runtime⟩ := c
  unfold result Scope.create Scope.createNamed Registry.createNamed Wanted.found
  cases wanted with
  | endpoint e =>
    cases hmade : r.create e filter options runtime <;> cases maker <;>
      simp only [hmade, Except.map]
  | named name =>
    cases he : Endpoint.lookup? name with
    | none => cases maker <;> simp only [he, Except.map]
    | some e =>
      cases hmade : r.create (some e) filter options runtime <;> cases maker <;>
        simp only [he, hmade, Except.map]

/-- An attempt is what the function for it does: the pieces in order, and nothing of them if it
fails. -/
theorem run_attempt (c : Creation) (state : Scoped σ) :
    c.attempt.run state =
      match c.result state.scope state.schedule.registry with
      | .error e => (.error e, state)
      | .ok (h, s, r, effects) => (.ok h, ⟨state.schedule.absorb r effects, s⟩) := by
  unfold attempt
  rw [Attempt.run_bind, Attempt.find, Attempt.run_pass, result_eq]
  cases c.wanted.found with
  | error => rfl
  | ok endpoint =>
    simp only [Attempt.run_bind, Attempt.run_create]
    cases state.schedule.registry.create endpoint c.filter c.options c.runtime with
    | error => rfl
    | ok made => cases c.maker <;> rfl

/-- The function fails as the checks do. -/
theorem result_eq_error_iff (s : Scope) (r : Registry) {c : Creation} {error : CreationError} :
    c.result s r = .error error ↔ c.checked = .error error := by
  have hcreate (endpoint : Option Endpoint) :
      (match r.create endpoint c.filter c.options c.runtime with
        | .error e => .error e
        | .ok (h, made, effects) =>
          .ok (h, match c.maker with | .registry => s | .scope => s.adopt h, made, effects) :
        Except CreationError (Handle × Scope × Registry × List Effect)) = .error error ↔
      Registry.check endpoint c.options c.runtime = .error error := by
    rw [← Registry.create_eq_error_iff c.filter r]
    cases r.create endpoint c.filter c.options c.runtime <;> simp
  rw [result_eq]
  unfold checked
  cases c.wanted with
  | endpoint e =>
    refine (hcreate e).trans ?_
    cases e <;> rfl
  | named name =>
    simp only [Wanted.found, Wanted.endpoint?]
    cases Endpoint.lookup? name with
    | none => simp [Wanted.unfound]
    | some e => exact hcreate (some e)

/-- Nothing that is done on the way is left behind: making a query fails for the first of the
reasons that there are, and only for one, and then everything that runs, the register, the counter
and the scope are as they were. What has passed the first check is never refused by the second. -/
theorem fails_iff_refused (c : Creation) (state : Scoped σ) :
    (∀ error state', c.attempt.run state = (.error error, state') ↔
        c.Refused error ∧ state' = state) ∧
      (c.attempt.run state =
        match c.result state.scope state.schedule.registry with
        | .error e => (.error e, state)
        | .ok (h, s, r, effects) => (.ok h, ⟨state.schedule.absorb r effects, s⟩)) ∧
      ∀ (r : Registry) (id : Nat),
        (∃ made, r.make id c.wanted.endpoint? c.filter c.options c.runtime = .ok made) ↔
          ∀ error, ¬ c.Refused error := by
  refine ⟨?_, run_attempt c state, ?_⟩
  · intro error state'
    rw [← checked_eq_error_iff, ← result_eq_error_iff state.scope state.schedule.registry,
      run_attempt]
    cases c.result state.scope state.schedule.registry with
    | error error' =>
      constructor
      · intro heq
        cases heq
        exact ⟨rfl, rfl⟩
      · rintro ⟨herror, rfl⟩
        rw [Except.error.inj herror]
    | ok made =>
      constructor
      · intro heq
        cases heq
      · rintro ⟨herror, -⟩
        cases herror
  · intro r id
    simp only [← checked_eq_error_iff]
    rw [Registry.exists_make_iff]
    unfold checked
    cases c.wanted.endpoint? with
    | none => simp [Registry.check]
    | some e =>
      simp only
      cases Registry.check (some e) c.options c.runtime <;> simp

end Creation
end LiveQuery
