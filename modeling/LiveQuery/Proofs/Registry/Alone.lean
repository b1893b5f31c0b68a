import LiveQuery.Proofs.Registry.World

/-!
# Calls that are left alone

A call that does all its parts with nothing in between does to the registry what the function of the
registry for it does. So the parts of a call are a way to split that function, and a world in which
calls come one after the other is a registry on which the functions are applied in turn
(`Finishes.run`).
-/

namespace LiveQuery

/-- The parts, done with nothing in between, lead from one registry to another. -/
inductive Finishes : List Part → Registry → Registry → Prop
  | nil (r : Registry) : Finishes [] r r
  | cons {p : Part} {ps : List Part} {r r' : Registry} :
    Finishes (p.further r ++ ps) (p.perform r) r' → Finishes (p :: ps) r r'

namespace Finishes

theorem append {ps qs : List Part} {r r' r'' : Registry} (hps : Finishes ps r r')
    (hqs : Finishes qs r' r'') : Finishes (ps ++ qs) r r'' := by
  induction hps with
  | nil => exact hqs
  | cons _ ih =>
    refine .cons ?_
    change Finishes (_ ++ (_ ++ qs)) _ _
    rw [← List.append_assoc]
    exact ih hqs

/-- A call under way that is left alone does the parts that it has to do first. -/
theorem run {ps : List Part} {r r' : Registry} (hf : Finishes ps r r') {w : World} {k : Nat}
    {c : Call} {rest : List Part} (hr : w.registry = r) (hc : w.calls[k]? = some ⟨c, ps ++ rest⟩) :
    ∃ n, (w.run (List.replicate n (.part k))).registry = r' ∧
      (w.run (List.replicate n (.part k))).calls[k]? = some ⟨c, rest⟩ := by
  induction hf generalizing w with
  | nil => exact ⟨0, hr, hc⟩
  | @cons p ps r r' _ ih =>
    subst hr
    have hk : w.next? k = some p := by simp [World.next?, hc]
    obtain ⟨n, hn⟩ := ih (w := w.step (.part k)) (World.registry_step_part hk)
      (by simp [World.calls_step_part hk, hc, Ongoing.proceed])
    exact ⟨n + 1, by simpa [List.replicate_succ] using hn⟩

end Finishes

/-- How far a part is from leaving nothing to do: whatever it leaves is of a lower rank. -/
def Part.rank : Part → Nat
  | .enter _ _ | .spawn _ _ | .stop _ => 0
  | .start _ | .take _ => 1
  | .build _ _ _ _ _ | .copy _ => 2
  | .issue _ _ _ => 3

theorem Part.Follows.rank_lt {p p' : Part} {r : Registry} (hf : Follows r p p') :
    p'.rank < p.rank := by
  cases hf <;> simp [rank]

/-- Parts that are left alone come to an end. -/
theorem exists_finishes (ps : List Part) (r : Registry) : ∃ r', Finishes ps r r' := by
  suffices ∀ (n : Nat) (ps : List Part), (∀ p ∈ ps, p.rank < n) → ∀ r, ∃ r', Finishes ps r r' from
    this 4 ps (fun p _ => by cases p <;> simp [Part.rank]) r
  intro n
  induction n with
  | zero =>
    intro ps hps r
    cases ps with
    | nil => exact ⟨r, .nil r⟩
    | cons p ps => exact absurd (hps p (by simp)) (by omega)
  | succ n ih =>
    intro ps hps
    induction ps with
    | nil => exact fun r => ⟨r, .nil r⟩
    | cons p ps ihps =>
      intro r
      obtain ⟨r₁, h₁⟩ := ih (p.further r)
        (fun p' hp' => by
          have := (Part.follows_of_mem_further hp').rank_lt
          have := hps p (by simp)
          omega) (p.perform r)
      obtain ⟨r₂, h₂⟩ := ihps (fun p' hp' => hps p' (by simp [hp'])) r₁
      exact ⟨r₂, .cons (h₁.append h₂)⟩

namespace Registry

theorem amend_of_none {r : Registry} {h : Handle} (hq : r.queries[h]? = none)
    (f : Query → Query) : r.amend h f = r := by
  rw [amend, List.modify_eq_self (List.getElem?_eq_none_iff.mp hq)]

theorem amend_of_some {r : Registry} {h : Handle} {q : Query} (hq : r.queries[h]? = some q)
    (f : Query → Query) : r.amend h f = r.put h (f q) := by
  have hlist : r.queries.modify h f = r.queries.set h (f q) := by
    apply List.ext_getElem?
    intro j
    rw [List.getElem?_modify, List.getElem?_set]
    by_cases hj : h = j
    · subst hj
      rw [if_pos rfl, if_pos (List.getElem?_eq_some_iff.mp hq).1, hq]
      simp
    · simp [hj]
  rw [amend, put, hlist]

theorem put_self {r : Registry} {h : Handle} {q : Query} (hq : r.queries[h]? = some q) :
    r.put h q = r := by
  simpa [amend, List.modify_id] using (amend_of_some hq id).symm

theorem getElem?_queries_put {r : Registry} {h : Handle} {q : Query} (hq : r.queries[h]? = some q)
    (q' : Query) : (r.put h q').queries[h]? = some q' :=
  List.getElem?_set_self (List.getElem?_eq_some_iff.mp hq).1

theorem put_put (r : Registry) (h : Handle) (q q' : Query) : (r.put h q).put h q' = r.put h q' := by
  simp [put]

/-! ## Single queries -/

theorem finishes_startQuery (h : Handle) (r : Registry) :
    Finishes [.start h] r (r.startQuery h).1 := by
  refine .cons ?_
  simp only [Part.perform, Part.further, startQuery]
  cases hq : r.queries[h]? with
  | none =>
    rw [amend_of_none hq]
    exact .nil r
  | some q =>
    rw [amend_of_some hq]
    rcases hs : q.start with ⟨started, i⟩
    have hm : q.move .start = started := by simp [Query.move, hs]
    rw [hm]
    cases i with
    | none => simpa [hs] using Finishes.nil (r.put h started)
    | some i =>
      simp only [Option.bind_some, hs, Option.map_some, Option.toList_some, List.append_nil]
      refine .cons ?_
      simp only [Part.perform, Part.further, amend_of_some (getElem?_queries_put hq started),
        put_put]
      exact .nil _

/-- Starting a query is a few moves of it: its start, and that its loop is given a task. -/
theorem startQuery_eq_put {r : Registry} {h : Handle} {q : Query} (hq : r.queries[h]? = some q) :
    ∃ ms, (∀ m ∈ ms, m = .start ∨ ∃ i, m = .spawn i) ∧ (r.startQuery h).1 = r.put h (q.run ms) := by
  rcases hs : q.start with ⟨started, i⟩
  have hm : q.move .start = started := by simp [Query.move, hs]
  simp only [startQuery, hq, hs, ← hm]
  cases i with
  | none => exact ⟨[.start], by simp, rfl⟩
  | some i => exact ⟨[.start, .spawn i], by simp, rfl⟩

/-- Stopping a query is one move of it. -/
theorem stopQuery_eq_amend (h : Handle) (r : Registry) :
    (r.stopQuery h).1 = r.amend h (Query.move .stop) := by
  simp only [stopQuery]
  cases hq : r.queries[h]? with
  | none => rw [amend_of_none hq]
  | some q => rw [amend_of_some hq]; rfl

theorem finishes_stopQuery (h : Handle) (r : Registry) :
    Finishes [.stop h] r (r.stopQuery h).1 := by
  refine .cons ?_
  rw [stopQuery_eq_amend]
  exact .nil _

/-! ## All queries -/

/-- A part for each of a list of handles does what is done to each of them in turn. -/
theorem finishes_each {step : Handle → Registry → Registry × List Effect} {part : Handle → Part}
    (hstep : ∀ h r, Finishes [part h] r (step h r).1) (hs : List Handle) (r : Registry) :
    Finishes (hs.map part) r (each step hs r).1 := by
  induction hs generalizing r with
  | nil => exact .nil r
  | cons h hs ih => exact (hstep h r).append (ih (step h r).1)

theorem finishes_resumeAll (r : Registry) : Finishes (Call.resumeAll.parts r) r r.resumeAll.1 := by
  refine .cons ?_
  simp only [Part.further, if_true, List.append_nil]
  exact finishes_each finishes_startQuery r.handles r

theorem finishes_pauseAll (r : Registry) : Finishes (Call.pauseAll.parts r) r r.pauseAll.1 := by
  refine .cons ?_
  simp only [Part.further, Bool.false_eq_true, if_false, List.append_nil]
  exact finishes_each finishes_stopQuery r.handles r

/-! ## Making queries and disposing of them -/

/-- The registry after a function of it that may fail: if it does, it leaves the registry alone. -/
def outcome (result : Except ε (Handle × Registry × List Effect)) (r : Registry) : Registry :=
  match result with
  | .error _ => r
  | .ok (_, r', _) => r'

theorem finishes_make (id : Nat) (endpoint : Option Endpoint) (filter : Filter)
    (options : QueryOptions) (runtime : Bool) (r : Registry) :
    Finishes ((Call.make id endpoint filter options runtime).parts r) r
      (r.outcome (r.make id endpoint filter options runtime)) := by
  simp only [Call.parts, make, outcome]
  cases check endpoint options runtime with
  | error => exact .nil r
  | ok e =>
    refine .cons ?_
    simp only [Part.perform, Part.further, List.append_nil]
    cases options.isPolling with
    | false => exact .nil _
    | true => exact finishes_startQuery _ _

/-- An endpoint that has passed the check passes it again. -/
theorem check_some {endpoint : Option Endpoint} {options : QueryOptions} {runtime : Bool}
    {e : Endpoint} (h : check endpoint options runtime = .ok e) :
    check (some e) options runtime = .ok e := by
  cases endpoint with
  | none => cases h
  | some e' =>
    simp only [check] at h ⊢
    cases hv : options.validate with
    | error => simp [hv] at h
    | ok => cases runtime <;> simp [hv] at h ⊢

theorem finishes_create (endpoint : Option Endpoint) (filter : Filter) (options : QueryOptions)
    (runtime : Bool) (r : Registry) :
    Finishes ((Call.create endpoint filter options runtime).parts r) r
      (r.outcome (r.create endpoint filter options runtime)) := by
  simp only [Call.parts, create, make, outcome]
  cases hc : check endpoint options runtime with
  | error => exact .nil r
  | ok e =>
    have hc' : check (some e) options runtime = .ok e := check_some hc
    refine .cons (.cons ?_)
    simp only [Part.perform, Part.further, hc']
    cases options.isPolling with
    | false => exact .nil _
    | true => exact (finishes_startQuery _ _).append (.cons (.nil _))

/-- The first query of a register, when it has been made. -/
theorem create_empty {client : Client} {e : Endpoint} {filter : Filter}
    {options : QueryOptions} {h : Handle} {r : Registry} {effects : List Effect}
    (hc : (empty client).create (some e) filter options true = .ok (h, r, effects)) :
    h = 0 ∧ (∃ ms, r.queries = [(Query.fresh 0 client e filter options).run ms]) ∧
      r.entries = if options.isPolling then [(0, 0)] else [] := by
  simp only [create, make, check] at hc
  cases hv : options.validate with
  | error => simp [hv] at hc
  | ok =>
    cases ho : options.isPolling with
    | false =>
      simp only [hv, ho] at hc
      cases hc
      exact ⟨rfl, ⟨[], rfl⟩, rfl⟩
    | true =>
      let made : Registry := ⟨client, [.fresh 0 client e filter options], [], 1⟩
      obtain ⟨ms, -, hms⟩ := startQuery_eq_put (r := made) (h := 0) rfl
      have hc' : h = 0 ∧ (made.startQuery 0).1.queries = r.queries ∧ r.entries = [(0, 0)] := by
        simp only [hv, ho] at hc
        cases hc
        refine ⟨rfl, rfl, ?_⟩
        change (made.startQuery 0).1.entries ++ [(0, 0)] = _
        rw [hms]
        rfl
      obtain ⟨hh, hqueries, hentries⟩ := hc'
      refine ⟨hh, ⟨ms, ?_⟩, hentries⟩
      rw [← hqueries, hms]
      rfl

theorem remove_of_get?_eq_none {r : Registry} {id : Nat} (h : r.get? id = none) :
    r.remove id = r := by
  rw [get?, List.lookup_eq_none_iff] at h
  have hf : r.entries.filter (fun e => e.1 ≠ id) = r.entries := by
    apply List.filter_eq_self.mpr
    intro e he
    have := h e he
    simp only [bne_iff_ne, ne_eq] at this
    simpa using fun hid => this hid.symm
  rw [remove, hf]

theorem finishes_dispose (id : Nat) (r : Registry) :
    Finishes ((Call.dispose id).parts r) r (r.outcome (r.dispose id)) := by
  refine .cons ?_
  simp only [Part.perform, Part.further, dispose, outcome]
  cases hid : r.get? id with
  | none =>
    rw [remove_of_get?_eq_none hid]
    exact .nil r
  | some h => exact finishes_stopQuery h (r.remove id)

/-! ## Scopes -/

/-- The identifier of a query. -/
def idOf? (h : Handle) (r : Registry) : Option Nat := r.queries[h]?.map Query.id

theorem idOf?_stopQuery (h g : Handle) (r : Registry) :
    (r.stopQuery h).1.idOf? g = r.idOf? g := by
  rw [stopQuery_eq_amend, idOf?, getElem?_queries_amend, idOf?]
  by_cases hg : h = g
  · rw [if_pos hg]
    cases r.queries[g]? with
    | none => rfl
    | some q =>
      simp only [Option.map_some, Option.some.injEq, Query.move, Query.stop, Query.cancelTimer]
      split <;> rfl
  · rw [if_neg hg]

theorem idOf?_dispose (id : Nat) (g : Handle) (r : Registry) :
    (r.outcome (r.dispose id)).idOf? g = r.idOf? g := by
  simp only [dispose, outcome]
  cases r.get? id with
  | none => rfl
  | some h => exact idOf?_stopQuery h g (r.remove id)

/-- What a scope does to release a query: it stops it, and disposes of what its identifier stands
for. -/
theorem release_eq {h : Handle} {r : Registry} {id : Nat} (hid : r.idOf? h = some id) :
    (Scope.release h r).1 = (r.stopQuery h).1.outcome ((r.stopQuery h).1.dispose id) := by
  simp only [idOf?, Option.map_eq_some_iff] at hid
  obtain ⟨q, hq, rfl⟩ := hid
  simp only [Scope.release, hq, outcome]
  cases (r.stopQuery h).1.dispose q.id <;> rfl

theorem release_of_none {h : Handle} {r : Registry} (hid : r.idOf? h = none) :
    (Scope.release h r).1 = r := by
  simp only [idOf?, Option.map_eq_none_iff] at hid
  simp only [Scope.release, hid]

theorem idOf?_release (h g : Handle) (r : Registry) : (Scope.release h r).1.idOf? g = r.idOf? g := by
  cases hid : r.idOf? h with
  | none => rw [release_of_none hid]
  | some id => rw [release_eq hid, idOf?_dispose, idOf?_stopQuery]

/-- The parts of a release hang on nothing but the identifier of the query. -/
theorem finishes_release {h : Handle} {r r' : Registry} (hid : r'.idOf? h = r.idOf? h) :
    Finishes (Call.release r' h) r (Scope.release h r).1 := by
  have hparts : Call.release r' h = ((r.idOf? h).map fun id => [.stop h, .take id]).getD [] := by
    rw [← hid, idOf?, Call.release]
    cases r'.queries[h]? <;> rfl
  rw [hparts]
  cases hr : r.idOf? h with
  | none =>
    rw [release_of_none hr]
    exact .nil r
  | some id =>
    rw [release_eq hr]
    exact (finishes_stopQuery h r).append (finishes_dispose id _)

theorem finishes_teardown (s : Scope) (r : Registry) :
    Finishes ((Call.teardown s.owned).parts r) r (s.teardown r).2.2.1 := by
  simp only [Call.parts, Scope.teardown]
  -- The identifiers are read when the call begins, the registry is the one of each release.
  suffices ∀ (hs : List Handle) (r' : Registry), (∀ g, r.idOf? g = r'.idOf? g) →
      Finishes (hs.flatMap (Call.release r)) r' (each Scope.release hs r').1 from
    this s.owned r fun _ => rfl
  intro hs
  induction hs with
  | nil => exact fun r' _ => .nil r'
  | cons h hs ih =>
    intro r' hids
    refine (finishes_release (hids h)).append (ih _ ?_)
    intro g
    rw [idOf?_release, hids]

end Registry
end LiveQuery
