import LiveQuery.Proofs.Registry.Teardown

/-!
# A registry and what has been done with it

An `Account` is a registry with the scopes over it, and a book of which queries it has made, in
order, and which identifiers have been disposed of. What is done with a registry is a list of deeds,
between which the tasks of the queries move as they like; `Account.register_run` says that the book
determines what is registered, whatever the deeds are and whether they succeed.
-/

namespace LiveQuery

/-- A registry, the scopes over it, and what has been done with them. -/
structure Account where
  registry : Registry
  scopes : List Scope
  /-- The queries that the registry has made, in order, and the options that they were made with. -/
  created : List (Handle × QueryOptions)
  /-- The identifiers of which a disposal has succeeded, in order. -/
  disposed : List Nat

/-- What can be done with a registry and the scopes over it. Scopes are named by their places. -/
inductive Deed where
  | create (endpoint : Option Endpoint) (filter : Filter) (options : QueryOptions) (runtime : Bool)
  | createNamed (name : String) (filter : Filter) (options : QueryOptions) (runtime : Bool)
  | dispose (id : Nat)
  | resumeAll
  | pauseAll
  /-- A scope comes about that owns nothing. -/
  | openScope (name : String)
  | scopeCreate (k : Nat) (endpoint : Option Endpoint) (filter : Filter) (options : QueryOptions)
    (runtime : Bool)
  | scopeCreateNamed (k : Nat) (name : String) (filter : Filter) (options : QueryOptions)
    (runtime : Bool)
  | adopt (k : Nat) (h : Handle)
  | teardown (k : Nat)
  /-- A query turns up that was made elsewhere, in whatever state it is. -/
  | arrive (q : Query)
  /-- A task of a query moves, or a holder of the query makes it move. -/
  | move (h : Handle) (m : Move)

/-- The identifier that an effect reports as disposed of. -/
def Effect.disposed? : Effect → Option Nat
  | .notice (.disposed id) => some id
  | _ => none

namespace Account

/-- An account of a registry that nothing has been done with. -/
def start (client : Client) : Account := ⟨.empty client, [], [], []⟩

/-- A creation that succeeds is booked. -/
def book (options : QueryOptions) (result : Except CreationError (Handle × Registry × List Effect))
    (a : Account) : Account :=
  match result with
  | .error _ => a
  | .ok (h, r, _) => { a with registry := r, created := a.created ++ [(h, options)] }

/-- A creation by a scope is booked, and the scope owns the query. -/
def bookIn (k : Nat) (options : QueryOptions)
    (result : Except CreationError (Handle × Scope × Registry × List Effect)) (a : Account) :
    Account :=
  match result with
  | .error _ => a
  | .ok (h, s, r, effects) =>
    { a.book options (.ok (h, r, effects)) with scopes := a.scopes.set k s }

/-- The account after a deed. What is done with a scope that does not exist is nothing. -/
def perform (d : Deed) (a : Account) : Account :=
  match d with
  | .create e f o runtime => a.book o (a.registry.create e f o runtime)
  | .createNamed name f o runtime => a.book o (a.registry.createNamed name f o runtime)
  | .dispose id =>
    match a.registry.dispose id with
    | .error _ => a
    | .ok (_, r, _) => { a with registry := r, disposed := a.disposed ++ [id] }
  | .resumeAll => { a with registry := a.registry.resumeAll.1 }
  | .pauseAll => { a with registry := a.registry.pauseAll.1 }
  | .openScope name => { a with scopes := a.scopes ++ [.empty name] }
  | .scopeCreate k e f o runtime =>
    match a.scopes[k]? with
    | none => a
    | some s => a.bookIn k o (s.create e f o runtime a.registry)
  | .scopeCreateNamed k name f o runtime =>
    match a.scopes[k]? with
    | none => a
    | some s => a.bookIn k o (s.createNamed name f o runtime a.registry)
  | .adopt k h => { a with scopes := a.scopes.modify k (Scope.adopt h) }
  | .teardown k =>
    match a.scopes[k]? with
    | none => a
    | some s =>
      let (_, s, r, effects) := s.teardown a.registry
      { a with
        registry := r
        scopes := a.scopes.set k s
        disposed := a.disposed ++ effects.filterMap Effect.disposed? }
  | .arrive q => { a with registry := a.registry.beside [q] }
  | .move h m => { a with registry := a.registry.amend h (Query.move m) }

/-- The account after a list of deeds. -/
def run (ds : List Deed) (a : Account) : Account := ds.foldl (fun a d => a.perform d) a

end Account

/-- Options are allowed that do not poll, or that do not poll too often. -/
theorem QueryOptions.validate_eq_ok_iff {o : QueryOptions} :
    o.validate = .ok () ↔ o.pollIntervalMs = 0 ∨ minPollIntervalMs ≤ o.pollIntervalMs := by
  rw [validate]
  split
  case isTrue h => simp only [reduceCtorEq, false_iff]; omega
  case isFalse h => simp only [true_iff]; omega

namespace Registry

/-! ## What leaves the register alone -/

/-- All queries of one registry are in another, each with the identifier and the options that it
had. -/
def Retains (r r' : Registry) : Prop :=
  ∀ (h : Handle) (q : Query), r.queries[h]? = some q →
    ∃ q', r'.queries[h]? = some q' ∧ q'.id = q.id ∧ q'.options = q.options

theorem Retains.trans {r r' r'' : Registry} (h : Retains r r') (h' : Retains r' r'') :
    Retains r r'' := by
  intro g q hq
  obtain ⟨q', hq', hid, ho⟩ := h g q hq
  obtain ⟨q'', hq'', hid', ho'⟩ := h' g q' hq'
  exact ⟨q'', hq'', hid'.trans hid, ho'.trans ho⟩

/-- One registry has the register, the counter and the queries of another. -/
structure Keeps (r r' : Registry) : Prop where
  entries : r'.entries = r.entries
  issued : r'.issued = r.issued
  queries : Retains r r'

namespace Keeps

theorem refl (r : Registry) : Keeps r r := ⟨rfl, rfl, fun _ q hq => ⟨q, hq, rfl, rfl⟩⟩

theorem trans {r r' r'' : Registry} (h : Keeps r r') (h' : Keeps r' r'') : Keeps r r'' :=
  ⟨h'.entries.trans h.entries, h'.issued.trans h.issued, h.queries.trans h'.queries⟩

theorem amend (h : Handle) (ms : List Move) (r : Registry) :
    Keeps r (r.amend h (Query.run ms)) where
  entries := rfl
  issued := rfl
  queries g q hq := by
    rw [getElem?_queries_amend, hq]
    by_cases hg : h = g
    · rw [if_pos hg]
      exact ⟨q.run ms, rfl, Query.id_run ms q, Query.options_run ms q⟩
    · rw [if_neg hg]
      exact ⟨q, rfl, rfl, rfl⟩

theorem beside (others : List Query) (r : Registry) : Keeps r (r.beside others) where
  entries := rfl
  issued := rfl
  queries g q hq := by
    have hlt := (List.getElem?_eq_some_iff.mp hq).1
    exact ⟨q, (List.getElem?_append_left hlt).trans hq, rfl, rfl⟩

theorem stopQuery (h : Handle) (r : Registry) : Keeps r (r.stopQuery h).1 := by
  rw [stopQuery_eq_amend]
  exact amend h [.stop] r

theorem startQuery (h : Handle) (r : Registry) : Keeps r (r.startQuery h).1 := by
  cases hq : r.queries[h]? with
  | none =>
    simp only [Registry.startQuery, hq]
    exact refl r
  | some q =>
    obtain ⟨ms, -, hms⟩ := startQuery_eq_put hq
    rw [hms, ← amend_of_some hq]
    exact amend h ms r

theorem each {step : Handle → Registry → Registry × List Effect}
    (hstep : ∀ h r, Keeps r (step h r).1) (hs : List Handle) (r : Registry) :
    Keeps r (Registry.each step hs r).1 := by
  induction hs generalizing r with
  | nil => exact refl r
  | cons h hs ih => exact (hstep h r).trans (ih _)

end Keeps

/-! ## What creations and disposals do to it -/

/-- What a creation that succeeds does: there is a query under the next identifier, and it is
registered under it if it polls. -/
structure Makes (options : QueryOptions) (h : Handle) (r r' : Registry) : Prop where
  valid : options.validate = .ok ()
  issued : r'.issued = r.issued + 1
  entries : r'.entries = r.entries ++ if options.isPolling then [(r.issued, h)] else []
  query : ∃ q, r'.queries[h]? = some q ∧ q.id = r.issued ∧ q.options = options
  queries : Retains r r'

theorem validate_of_check {endpoint : Option Endpoint} {options : QueryOptions} {runtime : Bool}
    {e : Endpoint} (h : check endpoint options runtime = .ok e) : options.validate = .ok () := by
  cases endpoint with
  | none => cases h
  | some e' =>
    simp only [check] at h
    cases hv : options.validate with
    | error => simp [hv] at h
    | ok => rfl

theorem makes_of_create {endpoint : Option Endpoint} {filter : Filter} {options : QueryOptions}
    {runtime : Bool} {r r' : Registry} {h : Handle} {effects : List Effect}
    (hc : r.create endpoint filter options runtime = .ok (h, r', effects)) :
    Makes options h r r' := by
  cases hcheck : check endpoint options runtime with
  | error => simp [create, hcheck] at hc
  | ok e =>
    have hcheck' : check (some e) options runtime = .ok e := check_some hcheck
    have hvalid := validate_of_check hcheck
    let made : Registry :=
      { r with
        issued := r.issued + 1
        queries := r.queries ++ [.fresh r.issued r.client e filter options] }
    have hquery (q : Query) : (r.queries ++ [q])[r.queries.length]? = some q := by simp
    have hqueries : Retains r made := (Keeps.beside [_] r).queries
    cases ho : options.isPolling with
    | false =>
      simp only [create, make, hcheck, hcheck', ho, Bool.false_eq_true, if_false] at hc
      cases hc
      exact ⟨hvalid, rfl, by simp [ho], ⟨_, hquery _, rfl, rfl⟩, hqueries⟩
    | true =>
      simp only [create, make, hcheck, hcheck', ho, if_true] at hc
      cases hc
      have hstart := Keeps.startQuery r.queries.length made
      refine ⟨hvalid, hstart.issued, ?_, hstart.queries _ _ (hquery _),
        hqueries.trans hstart.queries⟩
      change (made.startQuery r.queries.length).1.entries ++ _ = _
      rw [hstart.entries, ho, if_pos rfl]

theorem makes_of_createNamed {name : String} {filter : Filter} {options : QueryOptions}
    {runtime : Bool} {r r' : Registry} {h : Handle} {effects : List Effect}
    (hc : r.createNamed name filter options runtime = .ok (h, r', effects)) :
    Makes options h r r' := by
  simp only [createNamed] at hc
  cases he : Endpoint.lookup? name with
  | none => simp [he] at hc
  | some e =>
    simp only [he] at hc
    exact makes_of_create hc

/-- What a scope adopts has been made by the registry. -/
theorem made_of_adopt {s s' : Scope} {h : Handle} {r' : Registry} {effects : List Effect}
    {made : Except CreationError (Handle × Registry × List Effect)}
    (hc : (match made with
      | .error e => .error e
      | .ok (h, r', effects) => .ok (h, s.adopt h, r', effects)) =
        (.ok (h, s', r', effects) : Except CreationError _)) :
    made = .ok (h, r', effects) := by
  cases made with
  | error e => cases hc
  | ok created =>
    cases hc
    rfl

theorem created_of_scope {s s' : Scope} {endpoint : Option Endpoint} {filter : Filter}
    {options : QueryOptions} {runtime : Bool} {r r' : Registry} {h : Handle}
    {effects : List Effect}
    (hc : s.create endpoint filter options runtime r = .ok (h, s', r', effects)) :
    r.create endpoint filter options runtime = .ok (h, r', effects) := made_of_adopt hc

theorem createdNamed_of_scope {s s' : Scope} {name : String} {filter : Filter}
    {options : QueryOptions} {runtime : Bool} {r r' : Registry} {h : Handle}
    {effects : List Effect}
    (hc : s.createNamed name filter options runtime r = .ok (h, s', r', effects)) :
    r.createNamed name filter options runtime = .ok (h, r', effects) := made_of_adopt hc

/-- Stopping a query reports no disposal. -/
theorem disposed?_stopQuery (h : Handle) (r : Registry) :
    (r.stopQuery h).2.filterMap Effect.disposed? = [] := by
  cases hq : r.queries[h]? with
  | none => simp [Registry.stopQuery, hq]
  | some q =>
    have hwake : (wakeCancelled h q).filterMap Effect.disposed? = [] := by
      simp only [wakeCancelled]
      cases q.timer with
      | none => rfl
      | some i => cases hi : q.isWaiting i <;> simp [hi, Effect.disposed?]
    rcases hs : q.stop with ⟨stopped, wasPolling⟩
    cases wasPolling <;> simp [Registry.stopQuery, hq, hs, hwake, Effect.disposed?]

/-- What a disposal that succeeds does: the identifier is taken off the register, and it is the one
that is reported. -/
theorem keeps_of_dispose {id : Nat} {r r' : Registry} {h : Handle} {effects : List Effect}
    (hd : r.dispose id = .ok (h, r', effects)) :
    r.get? id = some h ∧ Keeps (r.remove id) r' ∧ effects.filterMap Effect.disposed? = [id] := by
  simp only [dispose] at hd
  cases hid : r.get? id with
  | none => simp [hid] at hd
  | some g =>
    simp only [hid] at hd
    cases hd
    refine ⟨rfl, .stopQuery h (r.remove id), ?_⟩
    rw [List.filterMap_append, disposed?_stopQuery]
    rfl

theorem get?_eq_none_iff {r : Registry} {id : Nat} : r.get? id = none ↔ id ∉ r.keys := by
  rw [get?, List.lookup_eq_none_iff]
  constructor
  · intro h hid
    obtain ⟨e, he, rfl⟩ := List.mem_map.mp hid
    simpa using h e he
  · intro h e he
    have hne : id ≠ e.1 := fun hid => h (hid ▸ List.mem_map_of_mem he)
    simpa using hne

theorem get?_eq_some_iff {r : Registry} (hr : r.keys.Nodup) {id : Nat} {h : Handle} :
    r.get? id = some h ↔ (id, h) ∈ r.entries := by
  rw [get?, List.lookup_eq_some_iff]
  constructor
  · rintro ⟨before, after, he, -⟩
    rw [he]
    exact List.mem_append_right _ (List.mem_cons_self ..)
  · intro hm
    obtain ⟨before, after, he⟩ := List.append_of_mem hm
    refine ⟨before, after, he, fun e hbefore => ?_⟩
    rw [keys, he, List.map_append, List.map_cons, List.nodup_append] at hr
    have hne := hr.2.2 e.1 (List.mem_map_of_mem hbefore) id (List.mem_cons_self ..)
    simpa using Ne.symm hne

theorem exists_dispose_iff {r : Registry} {id : Nat} :
    (∃ result, r.dispose id = .ok result) ↔ id ∈ r.keys := by
  rw [← not_iff_not, ← get?_eq_none_iff]
  simp only [dispose]
  cases r.get? id <;> simp

/-! ## The identifiers in order -/

theorem ids_perm (r : Registry) : r.ids.Perm r.keys := List.mergeSort_perm ..

theorem mem_ids {r : Registry} {id : Nat} : id ∈ r.ids ↔ id ∈ r.keys := r.ids_perm.mem_iff

theorem pairwise_ids {r : Registry} (hr : r.keys.Nodup) : r.ids.Pairwise (· < ·) := by
  have hle : r.ids.Pairwise fun a b => decide (a ≤ b) = true :=
    List.pairwise_mergeSort (fun a b c => by simpa using Nat.le_trans)
      (fun a b => by simpa using Nat.le_total a b) r.keys
  have hne : r.ids.Nodup := r.ids_perm.nodup_iff.mpr hr
  exact hle.imp₂ (fun a b hle hne => Nat.lt_of_le_of_ne (of_decide_eq_true hle) hne) hne

/-! ## What the book says -/

/-- The book of what has been done with a registry says which identifiers are registered, and for
which queries. -/
structure Accounted (created : List (Handle × QueryOptions)) (disposed : List Nat)
    (r : Registry) : Prop where
  issued : r.issued = created.length
  query : ∀ (id : Nat) (h : Handle) (o : QueryOptions), created[id]? = some (h, o) →
    ∃ q : Query, r.queries[h]? = some q ∧ q.id = id ∧ q.options = o
  valid : ∀ (id : Nat) (h : Handle) (o : QueryOptions), created[id]? = some (h, o) →
    o.validate = .ok ()
  entries : ∀ (id : Nat) (h : Handle), (id, h) ∈ r.entries ↔
    (∃ o, created[id]? = some (h, o) ∧ o.isPolling = true) ∧ id ∉ disposed
  nodup : r.keys.Nodup
  disposed_lt : ∀ id ∈ disposed, id < created.length

theorem getElem?_concat_eq_some {α : Type} {as : List α} {a b : α} {k : Nat} :
    (as ++ [a])[k]? = some b ↔ as[k]? = some b ∨ k = as.length ∧ b = a := by
  rcases Nat.lt_trichotomy k as.length with hk | rfl | hk
  · rw [List.getElem?_append_left hk]
    simp [Nat.ne_of_lt hk]
  · simp [eq_comm]
  · rw [List.getElem?_eq_none (by simp; omega), List.getElem?_eq_none (Nat.le_of_lt hk)]
    simp [Nat.ne_of_gt hk]

namespace Accounted

variable {created : List (Handle × QueryOptions)} {disposed : List Nat} {r r' : Registry}

theorem key_lt (hr : Accounted created disposed r) {id : Nat} (hid : id ∈ r.keys) :
    id < created.length := by
  obtain ⟨⟨_, h⟩, he, rfl⟩ := List.mem_map.mp hid
  obtain ⟨⟨o, hc, -⟩, -⟩ := (hr.entries _ h).mp he
  exact (List.getElem?_eq_some_iff.mp hc).1

theorem keeps (hr : Accounted created disposed r) (hk : Keeps r r') :
    Accounted created disposed r' where
  issued := hk.issued.trans hr.issued
  query id h o hc := by
    obtain ⟨q, hq, hid, ho⟩ := hr.query id h o hc
    obtain ⟨q', hq', hid', ho'⟩ := hk.queries h q hq
    exact ⟨q', hq', hid'.trans hid, ho'.trans ho⟩
  valid := hr.valid
  entries := hk.entries ▸ hr.entries
  nodup := by
    rw [keys, hk.entries]
    exact hr.nodup
  disposed_lt := hr.disposed_lt

theorem makes (hr : Accounted created disposed r) {o : QueryOptions} {h : Handle}
    (hm : Makes o h r r') : Accounted (created ++ [(h, o)]) disposed r' where
  issued := by rw [hm.issued, hr.issued, List.length_append, List.length_singleton]
  query id g o' hc := by
    rcases getElem?_concat_eq_some.mp hc with hc | ⟨rfl, hnew⟩
    · obtain ⟨q, hq, hid, ho⟩ := hr.query id g o' hc
      obtain ⟨q', hq', hid', ho'⟩ := hm.queries g q hq
      exact ⟨q', hq', hid'.trans hid, ho'.trans ho⟩
    · cases hnew
      exact hr.issued ▸ hm.query
  valid id g o' hc := by
    rcases getElem?_concat_eq_some.mp hc with hc | ⟨-, hnew⟩
    · exact hr.valid id g o' hc
    · cases hnew
      exact hm.valid
  entries id g := by
    -- The new identifier has never been booked, so no disposal of it has either.
    have hfresh : created.length ∉ disposed := fun hd => absurd (hr.disposed_lt _ hd) (by simp)
    have hnew : (id, g) ∈ (if o.isPolling then [(r.issued, h)] else []) ↔
        (id = created.length ∧ g = h) ∧ o.isPolling = true := by
      rw [hr.issued]
      cases o.isPolling <;> simp
    rw [hm.entries, List.mem_append, hr.entries, hnew]
    constructor
    · rintro (⟨⟨o', hc, ho'⟩, hd⟩ | ⟨⟨rfl, rfl⟩, ho⟩)
      · exact ⟨⟨o', getElem?_concat_eq_some.mpr (.inl hc), ho'⟩, hd⟩
      · exact ⟨⟨o, List.getElem?_concat_length, ho⟩, hfresh⟩
    · rintro ⟨⟨o', hc, ho'⟩, hd⟩
      rcases getElem?_concat_eq_some.mp hc with hc | ⟨rfl, hlast⟩
      · exact .inl ⟨⟨o', hc, ho'⟩, hd⟩
      · cases hlast
        exact .inr ⟨⟨rfl, rfl⟩, ho'⟩
  nodup := by
    rw [keys, hm.entries, List.map_append, List.nodup_append]
    refine ⟨hr.nodup, by cases o.isPolling <;> simp, fun id hid id' hid' => ?_⟩
    have hlt := hr.key_lt hid
    have hnew : id' = r.issued := by
      cases ho : o.isPolling <;> simp [ho] at hid'
      exact hid'
    rw [hnew, hr.issued]
    exact Nat.ne_of_lt hlt
  disposed_lt id hid := by
    have := hr.disposed_lt id hid
    simp only [List.length_append, List.length_singleton]
    omega

/-- Taking a registered identifier off the register is booked as a disposal. -/
theorem remove (hr : Accounted created disposed r) {id : Nat} (hid : id ∈ r.keys) :
    Accounted created (disposed ++ [id]) (r.remove id) where
  issued := hr.issued
  query := hr.query
  valid := hr.valid
  entries id' h := by
    simp only [Registry.remove, List.mem_filter, decide_eq_true_eq, hr.entries, List.mem_append,
      List.mem_singleton, not_or, and_assoc]
  nodup := hr.nodup.sublist (List.filter_sublist.map Prod.fst)
  disposed_lt id' hid' := by
    rcases List.mem_append.mp hid' with hid' | hid'
    · exact hr.disposed_lt id' hid'
    · rw [List.mem_singleton.mp hid']
      exact hr.key_lt hid

theorem dispose (hr : Accounted created disposed r) {id : Nat} {h : Handle}
    {effects : List Effect} (hd : r.dispose id = .ok (h, r', effects)) :
    Accounted created (disposed ++ effects.filterMap Effect.disposed?) r' := by
  obtain ⟨-, hk, heffects⟩ := keeps_of_dispose hd
  have hid : id ∈ r.keys := exists_dispose_iff.mp ⟨_, hd⟩
  rw [heffects]
  exact (hr.remove hid).keeps hk

/-- What a scope disposes of when it releases a query is what is reported. -/
theorem release (hr : Accounted created disposed r) (g : Handle) :
    Accounted created (disposed ++ (Scope.release g r).2.filterMap Effect.disposed?)
      (Scope.release g r).1 := by
  cases hq : r.queries[g]? with
  | none => simpa [Scope.release, hq] using hr
  | some q =>
    have hstop := hr.keeps (.stopQuery g r)
    have hnone := disposed?_stopQuery g r
    simp only [Scope.release, hq]
    cases hd : (r.stopQuery g).1.dispose q.id with
    | error => simpa [hnone] using hstop
    | ok result =>
      obtain ⟨h, r', more⟩ := result
      simpa [List.filterMap_append, hnone] using hstop.dispose hd

theorem releases (hr : Accounted created disposed r) (owned : List Handle) :
    Accounted created
      (disposed ++ (each Scope.release owned r).2.filterMap Effect.disposed?)
      (each Scope.release owned r).1 := by
  induction owned generalizing disposed r with
  | nil => simpa [each] using hr
  | cons g owned ih =>
    have hrest := ih (hr.release g)
    rw [List.append_assoc, ← List.filterMap_append] at hrest
    exact hrest

theorem teardown (hr : Accounted created disposed r) (s : Scope) :
    Accounted created (disposed ++ (s.teardown r).2.2.2.filterMap Effect.disposed?)
      (s.teardown r).2.2.1 := by
  have hlast : (if 0 < s.owned.length then [Effect.notice (.tornDown s.name s.owned.length)]
      else []).filterMap Effect.disposed? = [] := by
    split <;> rfl
  simpa [Scope.teardown, List.filterMap_append, hlast] using hr.releases s.owned

end Accounted
end Registry

namespace Account

/-- The book of an account is right. -/
def Right (a : Account) : Prop := a.registry.Accounted a.created a.disposed

theorem right_start (client : Client) : (start client).Right := by
  constructor <;> simp [start, Registry.empty, Registry.keys]

theorem Right.book {a : Account} (ha : a.Right) {o : QueryOptions}
    {result : Except CreationError (Handle × Registry × List Effect)}
    (hm : ∀ h r effects, result = .ok (h, r, effects) → a.registry.Makes o h r) :
    (a.book o result).Right := by
  cases result with
  | error e => exact ha
  | ok made => exact Registry.Accounted.makes ha (hm made.1 made.2.1 made.2.2 rfl)

theorem Right.bookIn {a : Account} (ha : a.Right) {o : QueryOptions} {k : Nat}
    {result : Except CreationError (Handle × Scope × Registry × List Effect)}
    (hm : ∀ h s r effects, result = .ok (h, s, r, effects) → a.registry.Makes o h r) :
    (a.bookIn k o result).Right := by
  cases result with
  | error e => exact ha
  | ok made =>
    exact Registry.Accounted.makes ha (hm made.1 made.2.1 made.2.2.1 made.2.2.2 rfl)

theorem Right.perform {a : Account} (ha : a.Right) (d : Deed) : (a.perform d).Right := by
  cases d with
  | create e f o runtime => exact ha.book fun h r effects hc => Registry.makes_of_create hc
  | createNamed name f o runtime =>
    exact ha.book fun h r effects hc => Registry.makes_of_createNamed hc
  | dispose id =>
    simp only [Account.perform]
    cases hd : a.registry.dispose id with
    | error => exact ha
    | ok result =>
      obtain ⟨h, r, effects⟩ := result
      have hr := Registry.Accounted.dispose ha hd
      rwa [(Registry.keeps_of_dispose hd).2.2] at hr
  | resumeAll => exact Registry.Accounted.keeps ha (.each .startQuery _ _)
  | pauseAll => exact Registry.Accounted.keeps ha (.each .stopQuery _ _)
  | openScope name => exact ha
  | scopeCreate k e f o runtime =>
    simp only [Account.perform]
    cases a.scopes[k]? with
    | none => exact ha
    | some s =>
      exact ha.bookIn fun h s' r effects hc =>
        Registry.makes_of_create (Registry.created_of_scope hc)
  | scopeCreateNamed k name f o runtime =>
    simp only [Account.perform]
    cases a.scopes[k]? with
    | none => exact ha
    | some s =>
      exact ha.bookIn fun h s' r effects hc =>
        Registry.makes_of_createNamed (Registry.createdNamed_of_scope hc)
  | adopt k h => exact ha
  | teardown k =>
    simp only [Account.perform]
    cases a.scopes[k]? with
    | none => exact ha
    | some s => exact Registry.Accounted.teardown ha s
  | arrive q => exact Registry.Accounted.keeps ha (.beside [q] _)
  | move h m => exact Registry.Accounted.keeps ha (.amend h [m] _)

theorem Right.run {a : Account} (ha : a.Right) (ds : List Deed) : (a.run ds).Right := by
  induction ds generalizing a with
  | nil => exact ha
  | cons d ds ih => exact ih (ha.perform d)

/-- Whatever has been done with a registry: the query made as number `id` has the identifier `id`,
and the counter tells how many have been made; the registered identifiers are those of the polling
queries made, without those disposed of, each standing for the query made under it, with an interval
of a second at least; they are listed in ascending order, each below the counter; and exactly these
can be disposed of. -/
theorem register_run (client : Client) (ds : List Deed) :
    let a := (start client).run ds
    let r := a.registry
    r.issued = a.created.length ∧
    (∀ (id : Nat) (h : Handle) (o : QueryOptions), a.created[id]? = some (h, o) →
      ∃ q : Query, r.queries[h]? = some q ∧ q.id = id ∧ q.options = o) ∧
    (∀ id h, r.get? id = some h ↔
      (∃ o, a.created[id]? = some (h, o) ∧ o.pollIntervalMs ≠ 0) ∧ id ∉ a.disposed) ∧
    (∀ (id : Nat) (h : Handle), r.get? id = some h →
      ∃ q : Query, r.queries[h]? = some q ∧ q.id = id ∧ 1000 ≤ q.options.pollIntervalMs) ∧
    (∀ id, id ∈ r.ids ↔ ∃ h, r.get? id = some h) ∧
    r.ids.Pairwise (· < ·) ∧
    (∀ id ∈ r.ids, id < r.issued) ∧
    r.entries.length = r.ids.length ∧
    ∀ id, (∃ result, r.dispose id = .ok result) ↔ id ∈ r.ids := by
  intro a r
  have ha : r.Accounted a.created a.disposed := (right_start client).run ds
  have hpolls (o : QueryOptions) : o.isPolling = true ↔ o.pollIntervalMs ≠ 0 := by
    simp [QueryOptions.isPolling, Nat.pos_iff_ne_zero]
  have hget (id : Nat) (h : Handle) : r.get? id = some h ↔
      (∃ o, a.created[id]? = some (h, o) ∧ o.pollIntervalMs ≠ 0) ∧ id ∉ a.disposed := by
    simp only [Registry.get?_eq_some_iff ha.nodup, ha.entries, hpolls]
  refine ⟨ha.issued, ha.query, hget, ?_, ?_, Registry.pairwise_ids ha.nodup, ?_, ?_, ?_⟩
  · intro id h hid
    obtain ⟨⟨o, hc, ho⟩, -⟩ := (hget id h).mp hid
    obtain ⟨q, hq, hqid, rfl⟩ := ha.query id h o hc
    refine ⟨q, hq, hqid, ?_⟩
    exact (QueryOptions.validate_eq_ok_iff.mp (ha.valid id h q.options hc)).resolve_left ho
  · intro id
    rw [Registry.mem_ids, ← not_iff_not, ← Registry.get?_eq_none_iff, not_exists,
      Option.eq_none_iff_forall_ne_some]
  · intro id hid
    rw [ha.issued]
    exact ha.key_lt (Registry.mem_ids.mp hid)
  · rw [r.ids_perm.length_eq, Registry.keys, List.length_map]
  · intro id
    rw [Registry.exists_dispose_iff, Registry.mem_ids]

end Account
end LiveQuery
