import LiveQuery.Proofs.Registry.Account
import LiveQuery.Session

/-!
# What a teardown releases

A teardown goes through the queries that a scope owns and releases each: it stops it and disposes of
its identifier. The disposal fails for a query that was never registered, that has been disposed of
before or that the scope owns once more; none of this keeps the teardown from the queries after it.
What is released first stays so while the others are, since a release starts nothing and registers
nothing.
-/

namespace LiveQuery
namespace Registry

variable {h : Handle} {r : Registry}

/-! ## One release -/

theorem polls?_stopQuery (g h : Handle) (r : Registry) :
    (r.stopQuery g).1.polls? h = if g = h then (r.polls? h).map fun _ => false else r.polls? h := by
  unfold polls?
  rw [stopQuery_eq_amend, getElem?_queries_amend]
  split
  · rw [Option.map_map, Option.map_map]
    congr 1
    funext q
    exact Query.isPolling_stop q
  · rfl

theorem not_polls_stopQuery_self (h : Handle) (r : Registry) :
    (r.stopQuery h).1.polls? h ≠ some true := by
  rw [polls?_stopQuery, if_pos rfl]
  cases r.polls? h <;> simp

/-- Stopping a query makes no query poll. -/
theorem not_polls_stopQuery (hp : r.polls? h ≠ some true) (g : Handle) :
    (r.stopQuery g).1.polls? h ≠ some true := by
  by_cases hg : g = h
  · subst hg
    exact not_polls_stopQuery_self g r
  · rw [polls?_stopQuery, if_neg hg]
    exact hp

theorem not_polls_dispose (hp : r.polls? h ≠ some true) (id : Nat) :
    (r.outcome (r.dispose id)).polls? h ≠ some true := by
  unfold dispose outcome
  cases r.get? id with
  | none => exact hp
  | some g => exact not_polls_stopQuery (r := r.remove id) hp g

/-- A query that does not poll goes on so when another one is released, or the query itself once
more. -/
theorem not_polls_release (hp : r.polls? h ≠ some true) (g : Handle) :
    (Scope.release g r).1.polls? h ≠ some true := by
  cases hid : r.idOf? g with
  | none =>
    rw [release_of_none hid]
    exact hp
  | some id =>
    rw [release_eq hid]
    apply not_polls_dispose
    exact not_polls_stopQuery hp g

/-- A query that has been released does not poll, whether its identifier was registered or not. -/
theorem not_polls_release_self (h : Handle) (r : Registry) :
    (Scope.release h r).1.polls? h ≠ some true := by
  cases hid : r.idOf? h with
  | none =>
    rw [release_of_none hid]
    unfold polls?
    rw [Option.map_eq_none_iff.mp hid]
    simp
  | some id =>
    rw [release_eq hid]
    apply not_polls_dispose
    exact not_polls_stopQuery_self h r

/-! ## All releases of a teardown -/

/-- When all of a list of queries have been released, those of the list do not poll, and neither do
those that did not before. -/
theorem not_polls_releases {owned : List Handle} (hh : h ∈ owned ∨ r.polls? h ≠ some true) :
    (each Scope.release owned r).1.polls? h ≠ some true := by
  induction owned generalizing r with
  | nil => exact hh.resolve_left List.not_mem_nil
  | cons g owned ih =>
    show (each Scope.release owned (Scope.release g r).1).1.polls? h ≠ some true
    apply ih
    rcases hh with hm | hp
    · rcases List.mem_cons.mp hm with rfl | hm
      · exact .inr (not_polls_release_self h r)
      · exact .inl hm
    · exact .inr (not_polls_release hp g)

theorem idOf?_releases (owned : List Handle) (h : Handle) (r : Registry) :
    (each Scope.release owned r).1.idOf? h = r.idOf? h := by
  induction owned generalizing r with
  | nil => rfl
  | cons g owned ih => exact (ih (Scope.release g r).1).trans (idOf?_release g h r)

/-- The identifier of a query that a scope owns is off the register after the teardown, whatever it
stood for there. -/
theorem not_mem_ids_teardown {s : Scope} (hh : h ∈ s.owned) {id : Nat} (hid : r.idOf? h = some id) :
    id ∉ (s.teardown r).2.2.1.ids := by
  rw [mem_ids, ← get?_eq_none_iff, Option.eq_none_iff_forall_ne_some]
  intro g hg
  exact ((get?_teardown s id g r).mp hg).2 h hh hid

end Registry

/-- What is kept under a name is found under it. -/
theorem lookup_keep {α : Type} (name : String) (value : α) (kept : List (String × α)) :
    (keep name value kept).lookup name = some value := by
  induction kept with
  | nil => simp [keep]
  | cons entry rest ih =>
    obtain ⟨n, v⟩ := entry
    by_cases hn : n = name
    · simp [keep, hn]
    · have hbeq : (name == n) = false := by simpa using Ne.symm hn
      rw [keep, if_neg hn, List.lookup_cons, hbeq]
      exact ih

/-! ## What is left to a second teardown -/

/-- Taking over the registry that is there, and no effects, changes nothing. -/
theorem Schedule.absorb_self {σ : Type} (s : Schedule σ) : s.absorb s.registry [] = s := by
  simp [absorb]

/-- A scope that owns nothing has nothing to release. -/
theorem Scope.teardown_of_owned_eq_nil {s : Scope} (hs : s.owned = []) (r : Registry) :
    s.teardown r = (0, s, r, []) := by
  obtain ⟨name, owned⟩ := s
  cases hs
  rfl

namespace Session

/-- Once a host has torn a scope down, there is nothing left under its name to be released. -/
theorem owned_of_teardown {s : Session} {name : String} {owner : Scope}
    (hs : (s.teardown name).2.scopes.lookup name = some owner) : owner.owned = [] := by
  unfold teardown at hs
  cases hname : s.scopes.lookup name with
  | none =>
    simp only [hname] at hs
    cases hs
  | some owner' =>
    simp only [hname, lookup_keep] at hs
    cases hs
    rfl

/-- Tearing a scope down that owns nothing changes nothing. -/
theorem teardown_of_owned_eq_nil {s : Session} {name : String}
    (hs : ∀ owner, s.scopes.lookup name = some owner → owner.owned = []) :
    (s.teardown name).1 = 0 ∧ (s.teardown name).2.schedule = s.schedule := by
  unfold teardown
  cases hname : s.scopes.lookup name with
  | none => exact ⟨rfl, rfl⟩
  | some owner =>
    simp only [Scope.teardown_of_owned_eq_nil (hs owner hname), true_and]
    exact s.schedule.absorb_self

end Session

/-- A teardown, whatever a scope owns and whatever has become of it, tells how many queries that
were, and leaves the scope with none; none of them polls, and none of their identifiers is
registered. After it there is nothing left to be released: for the scope itself, and for a host that
tears it down or drops it once more. -/
theorem Scope.teardown_releases (s : Scope) (r : Registry) :
    let (released, empty, torn, _) := s.teardown r
    released = s.owned.length ∧ empty = ⟨s.name, []⟩ ∧
    (∀ h ∈ s.owned, torn.polls? h ≠ some true ∧
      ∀ id, torn.idOf? h = some id → torn.get? id = none ∧ id ∉ torn.ids) ∧
    (∀ h, torn.idOf? h = r.idOf? h) ∧
    empty.teardown torn = (0, empty, torn, []) ∧
    ∀ (host : Session) (name : String),
      let after := (host.teardown name).2
      (after.perform (.scopeTeardown name)).1 = .released 0 ∧
      (after.perform (.scopeTeardown name)).2.schedule = after.schedule ∧
      (after.perform (.scopeDrop name)).2.schedule = after.schedule := by
  have hids (h : Handle) : (s.teardown r).2.2.1.idOf? h = r.idOf? h :=
    Registry.idOf?_releases s.owned h r
  refine ⟨rfl, rfl, ?_, hids, rfl, ?_⟩
  · intro h hh
    refine ⟨Registry.not_polls_releases (.inl hh), ?_⟩
    intro id hid
    have hoff := Registry.not_mem_ids_teardown hh ((hids h).symm.trans hid)
    exact ⟨Registry.get?_eq_none_iff.mpr fun hm => hoff (Registry.mem_ids.mpr hm), hoff⟩
  · intro host name after
    have hnothing : ∀ owner, after.scopes.lookup name = some owner → owner.owned = [] := by
      intro owner howner
      exact Session.owned_of_teardown howner
    obtain ⟨hnumber, hschedule⟩ := Session.teardown_of_owned_eq_nil hnothing
    exact ⟨congrArg Session.Answer.released hnumber, hschedule, hschedule⟩

end LiveQuery
