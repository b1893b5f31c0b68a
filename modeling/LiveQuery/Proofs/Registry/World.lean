import LiveQuery.Proofs.Query.Move
import LiveQuery.Registry.Scope

/-!
# Worlds

A world is a registry on which any number of calls are under way. A call is a list of parts that are
never split: copying the registered handles is one, taking one entry off the register is one, and so
is each swap of the timer of a single query. In a step of a world a call begins, or one of the calls
under way does its next part, or a query moves: because somebody who holds it starts, stops or
fetches it, or because one of its tasks has a turn. The order in which the register is gone through
is nobody's to rely on, so that the entries may change places at any time.

Every order of steps is a list of steps, and `World.run` plays it. `query?_run` says that a query
knows nothing of the world but its own moves.
-/

namespace LiveQuery

/-- Does something to a query. -/
def Registry.amend (h : Handle) (f : Query → Query) (r : Registry) : Registry :=
  { r with queries := r.queries.modify h f }

/-- What a call does in one piece. -/
inductive Part where
  /-- Takes the next identifier for a query to be made. -/
  | issue (endpoint : Endpoint) (filter : Filter) (options : QueryOptions)
  /-- Makes a query under an identifier; it is entered in the register at the end if asked for. -/
  | build (id : Nat) (endpoint : Endpoint) (filter : Filter) (options : QueryOptions)
      (enters : Bool)
  | enter (id : Nat) (h : Handle)
  | start (h : Handle)
  | spawn (h : Handle) (i : Nat)
  | stop (h : Handle)
  /-- Copies the registered handles, to start each of the queries or to stop it. -/
  | copy (starts : Bool)
  /-- Takes an identifier off the register, to stop the query it stood for. -/
  | take (id : Nat)

namespace Part

/-- The move that a part is, and whose move it is. -/
def move? : Part → Option (Handle × Move)
  | .start h => some (h, .start)
  | .spawn h i => some (h, .spawn i)
  | .stop h => some (h, .stop)
  | _ => none

/-- What a part does to a registry. -/
def perform (p : Part) (r : Registry) : Registry :=
  match p with
  | .issue _ _ _ => { r with issued := r.issued + 1 }
  | .build id endpoint filter options _ =>
    { r with queries := r.queries ++ [.fresh id r.client endpoint filter options] }
  | .enter id h => { r with entries := r.entries ++ [(id, h)] }
  | .start h => r.amend h (Query.move .start)
  | .spawn h i => r.amend h (Query.move (.spawn i))
  | .stop h => r.amend h (Query.move .stop)
  | .copy _ => r
  | .take id => r.remove id

/-- What a part leaves for its call to do before anything else. -/
def further (p : Part) (r : Registry) : List Part :=
  match p with
  | .issue endpoint filter options => [.build r.issued endpoint filter options true]
  | .build id _ _ options enters =>
    let h := r.queries.length
    if options.isPolling then .start h :: (if enters then [.enter id h] else []) else []
  | .start h => ((r.queries[h]?.bind fun q => q.start.2).map (Part.spawn h)).toList
  | .copy starts => r.handles.map (if starts then .start else .stop)
  | .take id => ((r.get? id).map Part.stop).toList
  | .enter _ _ | .spawn _ _ | .stop _ => []

/-- What a part can leave to do, part by part. -/
inductive Follows (r : Registry) : Part → Part → Prop
  | build (e : Endpoint) (f : Filter) (o : QueryOptions) :
    Follows r (.issue e f o) (.build r.issued e f o true)
  | start {o : QueryOptions} (ho : o.isPolling = true) (id : Nat) (e : Endpoint) (f : Filter)
    (enters : Bool) : Follows r (.build id e f o enters) (.start r.queries.length)
  | enter {o : QueryOptions} (ho : o.isPolling = true) (id : Nat) (e : Endpoint) (f : Filter) :
    Follows r (.build id e f o true) (.enter id r.queries.length)
  | spawn (h : Handle) (i : Nat) : Follows r (.start h) (.spawn h i)
  | startAll {h : Handle} (hh : h ∈ r.handles) : Follows r (.copy true) (.start h)
  | stopAll {h : Handle} (hh : h ∈ r.handles) : Follows r (.copy false) (.stop h)
  | stop (id : Nat) (h : Handle) : Follows r (.take id) (.stop h)

theorem follows_of_mem_further {p p' : Part} {r : Registry} (hm : p' ∈ p.further r) :
    Follows r p p' := by
  cases p with
  | enter | spawn | stop => cases hm
  | issue e f o =>
    cases List.mem_singleton.mp hm
    exact .build e f o
  | build id e f o enters =>
    simp only [further] at hm
    split at hm
    case isFalse => cases hm
    case isTrue ho =>
      rcases List.mem_cons.mp hm with rfl | hm
      · exact .start ho id e f enters
      · cases enters with
        | false => cases hm
        | true =>
          cases List.mem_singleton.mp hm
          exact .enter ho id e f
  | start h =>
    simp only [further, Option.mem_toList, Option.map_eq_some_iff] at hm
    obtain ⟨i, -, rfl⟩ := hm
    exact .spawn h i
  | copy starts =>
    simp only [further, List.mem_map] at hm
    obtain ⟨h, hh, rfl⟩ := hm
    cases starts with
    | false => exact .stopAll hh
    | true => exact .startAll hh
  | take id =>
    simp only [further, Option.mem_toList, Option.map_eq_some_iff] at hm
    obtain ⟨h, -, rfl⟩ := hm
    exact .stop id h

end Part

/-- A call on a registry. -/
inductive Call where
  /-- Makes a query, and registers it if it polls. -/
  | create (endpoint : Option Endpoint) (filter : Filter) (options : QueryOptions)
      (runtime : Bool)
  /-- Makes a query under an identifier of the caller's, beside the register. -/
  | make (id : Nat) (endpoint : Option Endpoint) (filter : Filter) (options : QueryOptions)
      (runtime : Bool)
  /-- Starts every registered query anew. -/
  | resumeAll
  /-- Stops every registered query. -/
  | pauseAll
  | dispose (id : Nat)
  /-- Releases the queries that a scope owns. -/
  | teardown (owned : List Handle)

namespace Call

/-- The parts by which a query is released: it is stopped, and then disposed of. -/
def release (r : Registry) (h : Handle) : List Part :=
  match r.queries[h]? with
  | none => []
  | some q => [.stop h, .take q.id]

/-- The parts that a call begins with. -/
def parts (c : Call) (r : Registry) : List Part :=
  match c with
  | .create endpoint filter options runtime =>
    match Registry.check endpoint options runtime with
    | .error _ => []
    | .ok e => [.issue e filter options]
  | .make id endpoint filter options runtime =>
    match Registry.check endpoint options runtime with
    | .error _ => []
    | .ok e => [.build id e filter options false]
  | .resumeAll => [.copy true]
  | .pauseAll => [.copy false]
  | .dispose id => [.take id]
  | .teardown owned => owned.flatMap (release r)

/-- What a call can begin with, call by call. -/
inductive BeginsWith : Call → Part → Prop
  | issue (endpoint : Option Endpoint) (f : Filter) (o : QueryOptions) (runtime : Bool)
    (e : Endpoint) : BeginsWith (.create endpoint f o runtime) (.issue e f o)
  | build (id : Nat) (endpoint : Option Endpoint) (f : Filter) (o : QueryOptions)
    (runtime : Bool) (e : Endpoint) :
    BeginsWith (.make id endpoint f o runtime) (.build id e f o false)
  | startAll : BeginsWith .resumeAll (.copy true)
  | stopAll : BeginsWith .pauseAll (.copy false)
  | take (id : Nat) : BeginsWith (.dispose id) (.take id)
  | releaseStop (owned : List Handle) (h : Handle) : BeginsWith (.teardown owned) (.stop h)
  | releaseTake (owned : List Handle) (id : Nat) : BeginsWith (.teardown owned) (.take id)

theorem beginsWith_of_mem_parts {c : Call} {p : Part} {r : Registry} (hm : p ∈ c.parts r) :
    BeginsWith c p := by
  cases c with
  | create endpoint f o runtime =>
    simp only [parts] at hm
    split at hm
    · cases hm
    · cases List.mem_singleton.mp hm
      exact .issue endpoint f o runtime _
  | make id endpoint f o runtime =>
    simp only [parts] at hm
    split at hm
    · cases hm
    · cases List.mem_singleton.mp hm
      exact .build id endpoint f o runtime _
  | resumeAll =>
    cases List.mem_singleton.mp hm
    exact .startAll
  | pauseAll =>
    cases List.mem_singleton.mp hm
    exact .stopAll
  | dispose id =>
    cases List.mem_singleton.mp hm
    exact .take id
  | teardown owned =>
    obtain ⟨h, -, hm⟩ := List.mem_flatMap.mp hm
    simp only [release] at hm
    split at hm
    · cases hm
    · rcases List.mem_cons.mp hm with rfl | hm
      · exact .releaseStop owned h
      · cases List.mem_singleton.mp hm
        exact .releaseTake owned _

end Call

/-- A call under way, and what it still has to do. -/
structure Ongoing where
  call : Call
  todo : List Part

/-- A call that has done its next part. -/
def Ongoing.proceed (r : Registry) (c : Ongoing) : Ongoing :=
  match c.todo with
  | [] => c
  | p :: ps => { c with todo := p.further r ++ ps }

/-- A registry and the calls under way on it. -/
structure World where
  registry : Registry
  calls : List Ongoing

namespace World

/-- A world in which nothing has happened. -/
def start (client : Client) : World := ⟨.empty client, []⟩

/-- What happens in a world in one piece. -/
inductive Step where
  /-- A query moves: by the hand of somebody who holds it, or because a task of it has a turn. -/
  | move (h : Handle) (m : Move)
  /-- A call begins. -/
  | call (c : Call)
  /-- The call at a place does its next part. -/
  | part (k : Nat)
  /-- The entries of the register change places. -/
  | rearrange (entries : List (Nat × Handle))

/-- The next part of the call at a place. -/
def next? (k : Nat) (w : World) : Option Part := w.calls[k]?.bind fun c => c.todo.head?

/-- The world after a step. -/
def step (s : Step) (w : World) : World :=
  match s with
  | .move h m => { w with registry := w.registry.amend h (Query.move m) }
  | .call c => { w with calls := w.calls ++ [⟨c, c.parts w.registry⟩] }
  | .part k =>
    match w.next? k with
    | none => w
    | some p =>
      { registry := p.perform w.registry
        calls := w.calls.modify k (Ongoing.proceed w.registry) }
  | .rearrange entries =>
    if entries.isPerm w.registry.entries then { w with registry := { w.registry with entries } }
    else w

theorem registry_step_part {k : Nat} {w : World} {p : Part} (hk : w.next? k = some p) :
    (w.step (.part k)).registry = p.perform w.registry := by
  simp only [step, hk]

theorem calls_step_part {k : Nat} {w : World} {p : Part} (hk : w.next? k = some p) :
    (w.step (.part k)).calls = w.calls.modify k (Ongoing.proceed w.registry) := by
  simp only [step, hk]

theorem next?_eq_some_iff {k : Nat} {w : World} {p : Part} :
    w.next? k = some p ↔ ∃ c ps, w.calls[k]? = some ⟨c, p :: ps⟩ := by
  rw [next?, Option.bind_eq_some_iff]
  constructor
  · rintro ⟨⟨c, todo⟩, hc, hp⟩
    obtain ⟨ps, rfl⟩ := List.head?_eq_some_iff.mp hp
    exact ⟨c, ps, hc⟩
  · rintro ⟨c, ps, hc⟩
    exact ⟨_, hc, rfl⟩

/-- The world after a list of steps. -/
def run : List Step → World → World
  | [], w => w
  | s :: ss, w => run ss (w.step s)

@[simp] theorem run_nil (w : World) : w.run [] = w := rfl

@[simp] theorem run_cons (s : Step) (ss : List Step) (w : World) :
    w.run (s :: ss) = (w.step s).run ss := rfl

theorem run_append (ss ts : List Step) (w : World) : w.run (ss ++ ts) = (w.run ss).run ts := by
  induction ss generalizing w with
  | nil => rfl
  | cons s ss ih => exact ih (w.step s)

/-! ## The moves of one query -/

/-- A query of a world. -/
def query? (h : Handle) (w : World) : Option Query := w.registry.queries[h]?

/-- The move that a step is, and whose move it is. -/
def move? (s : Step) (w : World) : Option (Handle × Move) :=
  match s with
  | .move h m => some (h, m)
  | .part k => (w.next? k).bind Part.move?
  | .call _ | .rearrange _ => none

/-- The move that a step is for a query: there is none before the query is made. -/
def moves (h : Handle) (s : Step) (w : World) : List Move :=
  match w.query? h, w.move? s with
  | some _, some (g, m) => if g = h then [m] else []
  | _, _ => []

/-- A step is at most one move of a query. -/
theorem moves_eq_nil_or (h : Handle) (s : Step) (w : World) :
    w.moves h s = [] ∨ ∃ m, w.moves h s = [m] := by
  simp only [moves]
  split
  · split
    · exact .inr ⟨_, rfl⟩
    · exact .inl rfl
  · exact .inl rfl

theorem move?_of_moves {h : Handle} {s : Step} {w : World} {m : Move} (hm : w.moves h s = [m]) :
    w.move? s = some (h, m) := by
  simp only [moves] at hm
  split at hm
  case h_1 g n _ hs =>
    rw [hs]
    by_cases hg : g = h
    · rw [if_pos hg] at hm
      rw [hg, (List.cons.inj hm).1]
    · simp [hg] at hm
  case h_2 => cases hm

/-- The moves that a query makes in a run. -/
def history (h : Handle) : List Step → World → List Move
  | [], _ => []
  | s :: ss, w => w.moves h s ++ history h ss (w.step s)

@[simp] theorem history_nil (h : Handle) (w : World) : w.history h [] = [] := rfl

@[simp] theorem history_cons (h : Handle) (s : Step) (ss : List Step) (w : World) :
    w.history h (s :: ss) = w.moves h s ++ (w.step s).history h ss := rfl

end World

theorem Registry.getElem?_queries_amend (h g : Handle) (f : Query → Query) (r : Registry) :
    (r.amend h f).queries[g]? = if h = g then r.queries[g]?.map f else r.queries[g]? := by
  simp only [amend, List.getElem?_modify]
  split <;> simp

theorem Part.perform_of_move? {p : Part} {h : Handle} {m : Move} (hp : p.move? = some (h, m))
    (r : Registry) : p.perform r = r.amend h (Query.move m) := by
  cases p <;> cases hp <;> rfl

theorem Part.eq_start_of_move? {p : Part} {h : Handle} (hp : p.move? = some (h, .start)) :
    p = .start h := by
  cases p <;> cases hp
  rfl

theorem Part.eq_stop_of_move? {p : Part} {h : Handle} (hp : p.move? = some (h, .stop)) :
    p = .stop h := by
  cases p <;> cases hp
  rfl

/-- A part that is no move leaves all queries alone; at most it makes one more. -/
theorem Part.queries_perform {p : Part} (hp : p.move? = none) (r : Registry) :
    (p.perform r).queries = r.queries ∨
      ∃ id e f o, (p.perform r).queries = r.queries ++ [.fresh id r.client e f o] := by
  cases p with
  | build id e f o enters => exact .inr ⟨id, e, f, o, rfl⟩
  | start | spawn | stop => cases hp
  | issue | enter | copy | take => exact .inl rfl

theorem Part.client_perform (p : Part) (r : Registry) : (p.perform r).client = r.client := by
  cases p <;> rfl

namespace World

theorem registry_step_of_move? {s : Step} {w : World} {h : Handle} {m : Move}
    (hs : w.move? s = some (h, m)) : (w.step s).registry = w.registry.amend h (Query.move m) := by
  cases s with
  | move g n =>
    cases hs
    rfl
  | part k =>
    simp only [move?, Option.bind_eq_some_iff] at hs
    obtain ⟨p, hk, hp⟩ := hs
    rw [registry_step_part hk]
    exact Part.perform_of_move? hp w.registry
  | call | rearrange => cases hs

/-- A step that is a move does it to the query whose move it is, and leaves the others alone. -/
theorem query?_step_of_move? {s : Step} {w : World} {g : Handle} {m : Move}
    (hs : w.move? s = some (g, m)) (h : Handle) :
    (w.step s).query? h = if g = h then (w.query? h).map (Query.move m) else w.query? h := by
  rw [query?, registry_step_of_move? hs, Registry.getElem?_queries_amend]
  rfl

/-- A step that is no move leaves all queries alone; at most it makes one more. -/
theorem queries_step {s : Step} {w : World} (hs : w.move? s = none) :
    (w.step s).registry.queries = w.registry.queries ∨
      ∃ id e f o, (w.step s).registry.queries =
        w.registry.queries ++ [.fresh id w.registry.client e f o] := by
  cases s with
  | move g n => cases hs
  | call c => exact .inl rfl
  | part k =>
    simp only [move?, Option.bind_eq_none_iff] at hs
    cases hk : w.next? k with
    | none => simp [step, hk]
    | some p =>
      rw [registry_step_part hk]
      exact Part.queries_perform (hs p hk) w.registry
  | rearrange es =>
    simp only [step]
    split <;> exact .inl rfl

@[simp] theorem client_step (s : Step) (w : World) :
    (w.step s).registry.client = w.registry.client := by
  cases s with
  | move | call => rfl
  | part k =>
    simp only [step]
    split
    · rfl
    · exact Part.client_perform _ _
  | rearrange es =>
    simp only [step]
    split <;> rfl

/-- A step does to a query what its moves in that step do. -/
theorem query?_step {s : Step} {w : World} {h : Handle} {q : Query} (hq : w.query? h = some q) :
    (w.step s).query? h = some (q.run (w.moves h s)) := by
  cases hs : w.move? s with
  | none =>
    have hlt : h < w.registry.queries.length := (List.getElem?_eq_some_iff.mp hq).1
    simp only [moves, hq, hs, Query.run_nil]
    rcases queries_step hs with he | ⟨id, e, f, o, he⟩
    · rw [query?, he]
      exact hq
    · rw [query?, he, List.getElem?_append_left hlt]
      exact hq
  | some gm =>
    obtain ⟨g, m⟩ := gm
    rw [query?_step_of_move? hs]
    simp only [moves, hq, hs]
    by_cases hg : g = h
    · simp only [if_pos hg, Option.map_some, Query.run_cons, Query.run_nil]
    · simp only [if_neg hg, Query.run_nil]

/-- A run does to a query what its moves in that run do. -/
theorem query?_run {ss : List Step} {w : World} {h : Handle} {q : Query}
    (hq : w.query? h = some q) : (w.run ss).query? h = some (q.run (w.history h ss)) := by
  induction ss generalizing w q with
  | nil => exact hq
  | cons s ss ih => rw [run_cons, history_cons, Query.run_append, ih (query?_step hq)]

/-- A query that a step makes is fresh. -/
theorem query?_step_of_none {s : Step} {w : World} {h : Handle} {q : Query}
    (hn : w.query? h = none) (hq : (w.step s).query? h = some q) :
    ∃ id e f o, q = .fresh id w.registry.client e f o := by
  cases hs : w.move? s with
  | none =>
    have hle : w.registry.queries.length ≤ h := List.getElem?_eq_none_iff.mp hn
    rcases queries_step hs with he | ⟨id, e, f, o, he⟩
    · rw [query?, he] at hq
      exact absurd (hn.symm.trans hq) (by simp)
    · rw [query?, he, List.getElem?_append_right hle] at hq
      exact ⟨id, e, f, o, (List.mem_singleton.mp (List.mem_of_getElem? hq))⟩
  | some gm =>
    obtain ⟨g, m⟩ := gm
    rw [query?_step_of_move? hs, hn] at hq
    split at hq <;> cases hq

/-- Every query of a run was made in it, and has gone through nothing but its moves since. -/
theorem query?_run_of_none {ss : List Step} {w : World} {h : Handle} {q : Query}
    (hn : w.query? h = none) (hq : (w.run ss).query? h = some q) :
    ∃ id e f o, q = (Query.fresh id w.registry.client e f o).run (w.history h ss) := by
  induction ss generalizing w with
  | nil => exact absurd (hn.symm.trans hq) (by simp)
  | cons s ss ih =>
    have hm : w.moves h s = [] := by simp [moves, hn]
    rw [history_cons, hm, List.nil_append]
    cases hs : (w.step s).query? h with
    | none => simpa using ih hs hq
    | some q₀ =>
      obtain ⟨id, e, f, o, rfl⟩ := query?_step_of_none hn hs
      rw [run_cons, query?_run hs, Option.some.injEq] at hq
      exact ⟨id, e, f, o, hq.symm⟩

/-- Every query of a world that began with nothing is a fresh one and what its moves made of it. -/
theorem query?_run_start {client : Client} {ss : List Step} {h : Handle} {q : Query}
    (hq : ((start client).run ss).query? h = some q) :
    ∃ id e f o, q = (Query.fresh id client e f o).run ((start client).history h ss) :=
  query?_run_of_none rfl hq

end World
end LiveQuery
