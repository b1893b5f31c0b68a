import LiveQuery.Proofs.Registry.Numbering

/-!
# What a teardown leaves alone

A scope owns queries by their handles and releases them by their identifiers. A query that was made
elsewhere may have an identifier which stands for another query in the register; a scope that has
adopted it takes that other query off the register and stops it. `World.teardown_spares_iff` says
that nothing else can happen to a query which the scope does not own.
-/

namespace LiveQuery
namespace Registry

/-- Whether a query polls, if there is one. -/
def polls? (h : Handle) (r : Registry) : Option Bool := r.queries[h]?.map Query.isPolling

/-- The registry, and queries that were made elsewhere: under identifiers of the maker's, or by
another registry. -/
def beside (others : List Query) (r : Registry) : Registry :=
  { r with queries := r.queries ++ others }

/-- The identifier of a query stands for what is registered under it. -/
theorem Indexed.idOf?_of_get? {r : Registry} (hr : r.Indexed) {id : Nat} {h : Handle}
    (hid : r.get? id = some h) : r.idOf? h = some id := by
  obtain ⟨before, after, he, -⟩ := List.lookup_eq_some_iff.mp hid
  exact hr.idOf id h (by simp [he])

theorem Indexed.filter {r : Registry} (hr : r.Indexed) {r' : Registry} {p : Nat × Handle → Bool}
    (he : r'.entries = r.entries.filter p) (hids : ∀ h, r'.idOf? h = r.idOf? h) : r'.Indexed where
  nodup := by
    rw [keys, he]
    exact hr.nodup.sublist (List.filter_sublist.map Prod.fst)
  idOf id h hm := by
    rw [hids]
    rw [he] at hm
    exact hr.idOf id h (List.mem_filter.mp hm).1

theorem Indexed.beside {r : Registry} (hr : r.Indexed) (others : List Query) :
    (r.beside others).Indexed where
  nodup := hr.nodup
  idOf id h he := by
    obtain ⟨q, hq, hid⟩ := Option.map_eq_some_iff.mp (hr.idOf id h he)
    have hlt := (List.getElem?_eq_some_iff.mp hq).1
    rw [idOf?, Registry.beside, List.getElem?_append_left hlt, hq, Option.map_some, hid]

/-! ## Entries -/

theorem entries_stopQuery (h : Handle) (r : Registry) : (r.stopQuery h).1.entries = r.entries := by
  rw [stopQuery_eq_amend]
  rfl

theorem entries_dispose (id : Nat) (r : Registry) :
    (r.outcome (r.dispose id)).entries = r.entries.filter fun e => e.1 ≠ id := by
  change _ = (r.remove id).entries
  simp only [dispose, outcome]
  cases hid : r.get? id with
  | none => rw [remove_of_get?_eq_none hid]
  | some h => exact entries_stopQuery h (r.remove id)

/-- A release takes the identifier of the query off the register, whatever stands for it there. -/
theorem entries_release (g : Handle) (r : Registry) :
    (Scope.release g r).1.entries = r.entries.filter fun e => r.idOf? g ≠ some e.1 := by
  cases hid : r.idOf? g with
  | none => simp [release_of_none hid]
  | some id =>
    rw [release_eq hid, entries_dispose, entries_stopQuery]
    simp [eq_comm]

theorem entries_releases (owned : List Handle) (r : Registry) :
    (each Scope.release owned r).1.entries =
      r.entries.filter fun e => owned.all fun g => r.idOf? g ≠ some e.1 := by
  induction owned generalizing r with
  | nil => simp [each]
  | cons g owned ih =>
    change (each Scope.release owned (Scope.release g r).1).1.entries = _
    rw [ih, entries_release, List.filter_filter]
    simp only [idOf?_release, List.all_cons, Bool.and_comm]

/-- Of entries that are kept by their keys, the one with a key is there if the key is kept. -/
theorem lookup_filter_fst {α : Type} (p : Nat → Bool) (id : Nat) (es : List (Nat × α)) :
    (es.filter fun e => p e.1).lookup id = if p id then es.lookup id else none := by
  induction es with
  | nil => simp
  | cons e es ih =>
    obtain ⟨k, a⟩ := e
    by_cases hk : id = k
    · subst hk
      cases hp : p id <;> simp [hp, ih]
    · have hbeq : (id == k) = false := by simpa using hk
      cases hp : p k <;> simp [hp, ih, List.lookup_cons, hbeq]

/-- A query is registered after a teardown exactly if it was before and no query of the scope has
its identifier. -/
theorem get?_teardown (s : Scope) (id : Nat) (h : Handle) (r : Registry) :
    (s.teardown r).2.2.1.get? id = some h ↔
      r.get? id = some h ∧ ∀ g ∈ s.owned, r.idOf? g ≠ some id := by
  change (each Scope.release s.owned r).1.entries.lookup id = some h ↔ _
  rw [entries_releases, lookup_filter_fst fun id => s.owned.all fun g => r.idOf? g ≠ some id]
  have hall : (s.owned.all fun g => decide (r.idOf? g ≠ some id)) = true ↔
      ∀ g ∈ s.owned, r.idOf? g ≠ some id := by
    simp
  by_cases hs : ∀ g ∈ s.owned, r.idOf? g ≠ some id
  · rw [if_pos (hall.mpr hs), get?]
    exact (and_iff_left hs).symm
  · rw [if_neg fun h => hs (hall.mp h)]
    exact iff_of_false (by simp) fun h => hs h.2

/-! ## Queries -/

theorem getElem?_queries_stopQuery {g h : Handle} (hne : g ≠ h) (r : Registry) :
    (r.stopQuery g).1.queries[h]? = r.queries[h]? := by
  rw [stopQuery_eq_amend, getElem?_queries_amend, if_neg hne]

/-- A release stops two queries at most: the one that is released, and the one that is registered
under its identifier. -/
theorem getElem?_queries_release {r : Registry} (hr : r.Indexed) {g h : Handle} (hne : g ≠ h)
    (hid : r.idOf? g ≠ r.idOf? h) : (Scope.release g r).1.queries[h]? = r.queries[h]? := by
  cases hg : r.idOf? g with
  | none => rw [release_of_none hg]
  | some id =>
    have hget : (r.stopQuery g).1.get? id = r.get? id := by
      rw [get?, get?, entries_stopQuery]
    rw [release_eq hg, ← getElem?_queries_stopQuery hne r]
    simp only [dispose, outcome, hget]
    cases hk : r.get? id with
    | none => rfl
    | some k =>
      have hkh : k ≠ h := by
        rintro rfl
        exact hid (hg.trans (hr.idOf?_of_get? hk).symm)
      exact getElem?_queries_stopQuery hkh ((r.stopQuery g).1.remove id)

theorem Indexed.release {r : Registry} (hr : r.Indexed) (g : Handle) :
    (Scope.release g r).1.Indexed :=
  hr.filter (entries_release g r) fun h => idOf?_release g h r

/-- A teardown leaves a query alone that the scope does not own and that has an identifier which no
query of the scope has. -/
theorem getElem?_queries_teardown {r : Registry} (hr : r.Indexed) {s : Scope} {h : Handle}
    (hh : h ∉ s.owned) (hids : ∀ g ∈ s.owned, r.idOf? g ≠ r.idOf? h) :
    (s.teardown r).2.2.1.queries[h]? = r.queries[h]? := by
  change (each Scope.release s.owned r).1.queries[h]? = _
  generalize s.owned = owned at hh hids
  induction owned generalizing r with
  | nil => rfl
  | cons g owned ih =>
    simp only [List.mem_cons, not_or] at hh
    have hfirst := getElem?_queries_release hr (Ne.symm hh.1) (hids g (List.mem_cons_self ..))
    have hrest := ih (hr.release g) hh.2 fun g' hg' => by
      rw [idOf?_release, idOf?_release]
      exact hids g' (List.mem_cons_of_mem g hg')
    exact hrest.trans hfirst

end Registry

namespace World

open Registry (beside)

/-- In every registry that can come about, beside whatever queries were made elsewhere, a teardown
leaves a query registered under its identifier that is registered and that the scope does not own,
and leaves it polling exactly if it was, exactly if no query of the scope has that identifier. -/
theorem teardown_spares_iff {client : Client} {ss : List Step} {others : List Query} {s : Scope}
    {id : Nat} {h : Handle}
    (hid : (((start client).run ss).registry.beside others).get? id = some h)
    (hh : h ∉ s.owned) :
    let r := ((start client).run ss).registry.beside others
    let torn := (s.teardown r).2.2.1
    (torn.get? id = some h ∧ torn.polls? h = r.polls? h) ↔
      ∀ g ∈ s.owned, r.idOf? g ≠ some id := by
  intro r torn
  have hr : r.Indexed := (indexed_run_start client ss).beside others
  have hget : torn.get? id = some h ↔ ∀ g ∈ s.owned, r.idOf? g ≠ some id := by
    rw [Registry.get?_teardown, and_iff_right hid]
  constructor
  · rintro ⟨hreg, -⟩
    exact hget.mp hreg
  · intro hids
    refine ⟨hget.mpr hids, ?_⟩
    have hquery : torn.queries[h]? = r.queries[h]? :=
      Registry.getElem?_queries_teardown hr hh fun g hg => hr.idOf?_of_get? hid ▸ hids g hg
    rw [Registry.polls?, Registry.polls?, hquery]

/-- A query that polls is made and registered. -/
def registering : List Step :=
  [.call (.create (some EndpointName.flow.endpoint) .empty ⟨1000⟩ true), .part 0, .part 0, .part 0,
    .part 0, .part 0]

/-- A query that was made elsewhere under an identifier. -/
def stranger (id : Nat) : Query := .fresh id default EndpointName.version.endpoint .empty ⟨0⟩

/-- A scope that has adopted a query of another registry, with an identifier that is not registered
here, leaves the query alone that is. -/
theorem teardown_spares_iff_stranger :
    let r := ((start default).run registering).registry.beside [stranger 7]
    let torn := (Scope.teardown ⟨"view", [1, 1]⟩ r).2.2.1
    r.get? 0 = some 0 ∧ torn.get? 0 = some 0 ∧ torn.polls? 0 = some true := by
  have hid : (((start default).run registering).registry.beside [stranger 7]).get? 0 = some 0 := rfl
  obtain ⟨hget, hpolls⟩ := (teardown_spares_iff (s := ⟨"view", [1, 1]⟩) hid (by decide)).mpr
    (by decide)
  exact ⟨hid, hget, hpolls⟩

/-- A scope that has adopted a query of another registry, with an identifier that is registered here
too, takes the query off the register that it stands for here, so that not every query is left alone
which the scope does not own. -/
theorem teardown_takes_namesake :
    ¬ ∀ (client : Client) (ss : List Step) (others : List Query) (s : Scope) (id : Nat)
        (h : Handle),
      (((start client).run ss).registry.beside others).get? id = some h → h ∉ s.owned →
        let r := ((start client).run ss).registry.beside others
        let torn := (s.teardown r).2.2.1
        torn.get? id = some h ∧ torn.polls? h = r.polls? h := by
  intro hspares
  obtain ⟨hget, -⟩ := hspares default registering [stranger 0] ⟨"view", [1]⟩ 0 0 rfl (by decide)
  exact absurd hget (by decide)

end World
end LiveQuery
