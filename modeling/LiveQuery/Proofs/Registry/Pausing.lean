import LiveQuery.Proofs.Query.Outcome
import LiveQuery.Proofs.Registry.Account
import LiveQuery.Proofs.Registry.Polling

/-!
# What pausing, resuming and disposing reach

Pausing stops each registered query and resuming starts each anew, one after the other; disposing
stops one. No query is registered twice, so that each is reached once, and whatever state its own
loops are in, a start leaves it with one live loop and a stop with none. `Registry.Spares` says what
is left alone by it: the counter, what the queries know, and the queries that are not reached.
-/

namespace LiveQuery
namespace Query

/-! ## Starting a query anew -/

/-- A start, and the task of the loop that has been decided on. -/
def restart (q : Query) : Query :=
  match q.start with
  | (started, none) => started
  | (started, some i) => started.spawn i

/-- A query that does not poll is stopped by a start. -/
theorem restart_of_not_isPolling {q : Query} (h : q.options.isPolling = false) :
    q.restart = q.move .stop := by
  unfold restart
  rw [start_of_not_isPolling h]
  rfl

theorem restart_of_isPolling {q : Query} (h : q.options.isPolling = true) :
    q.restart = (q.move .start).move (.spawn q.loops.length) := by
  unfold restart move
  rw [start_of_isPolling h]

theorem snapshot_restart (q : Query) : q.restart.snapshot = q.snapshot := by
  cases hp : q.options.isPolling with
  | false =>
    rw [restart_of_not_isPolling hp]
    exact snapshot_cancelTimer q
  | true =>
    rw [restart_of_isPolling hp]
    exact (snapshot_move (.spawn _) _).trans (snapshot_start q)

/-- Whatever loops a query has had, after it has been started anew it polls by one loop. -/
theorem WellTimed.restart {q : Query} (hq : q.WellTimed) (hp : q.options.isPolling = true) :
    q.restart.isPolling = true ∧ ∃! i, q.restart.isCancelled i = false := by
  have hspawn : (Move.spawn q.loops.length).swaps = false := rfl
  rw [restart_of_isPolling hp]
  constructor
  · apply isPolling_move (m := .spawn q.loops.length) (by simp)
    · rw [options_move, hp]
    · exact isPolling_start hp
  · refine ⟨q.loops.length, ?_, ?_⟩
    · show ((q.move .start).move _).isCancelled _ = false
      rw [isCancelled_move hspawn]
      exact (hq.isCancelled_start _).mpr ⟨hp, rfl⟩
    · intro i hi
      rw [isCancelled_move hspawn] at hi
      exact ((hq.isCancelled_start i).mp hi).2

/-- A stop leaves a query alone that has been stopped. -/
theorem stop_of_timer {q : Query} (ht : q.timer = none) : q.stop = (q, false) := by
  unfold stop cancelTimer
  rw [ht]
  rfl

end Query

namespace Registry

/-! ## What is reached, and what is not -/

/-- A query is on the register. -/
def IsRegistered (r : Registry) (h : Handle) : Prop := ∃ id, r.get? id = some h

/-- What a query knows, if there is one. -/
def snapshot? (h : Handle) (r : Registry) : Option Snapshot := r.queries[h]?.map Query.snapshot

/-- From one registry to another nothing has been done but to stop or to start some of the queries:
the counter and what the queries know are as they were, and so are all other queries. -/
structure Spares (reached : Handle → Prop) (r r' : Registry) : Prop where
  issued : r'.issued = r.issued
  snapshots : ∀ h, r'.snapshot? h = r.snapshot? h
  others : ∀ h, ¬ reached h → r'.queries[h]? = r.queries[h]?

theorem isRegistered_iff {r : Registry} (hr : r.keys.Nodup) {h : Handle} :
    r.IsRegistered h ↔ h ∈ r.handles := by
  unfold IsRegistered handles
  rw [List.mem_map]
  constructor
  · rintro ⟨id, hid⟩
    exact ⟨(id, h), (get?_eq_some_iff hr).mp hid, rfl⟩
  · rintro ⟨⟨id, _⟩, he, rfl⟩
    exact ⟨id, (get?_eq_some_iff hr).mpr he⟩

theorem startQuery_eq_amend (h : Handle) (r : Registry) :
    (r.startQuery h).1 = r.amend h Query.restart := by
  unfold startQuery
  cases hq : r.queries[h]? with
  | none => rw [amend_of_none hq]
  | some q =>
    rw [amend_of_some hq]
    rcases hs : q.start with ⟨started, i⟩
    cases i <;> simp [Query.restart, hs]

section Each

variable {step : Handle → Registry → Registry × List Effect} {f : Query → Query}

/-- What is done to each of a list of queries, none of which is there twice, is done once to each of
them and to no other. -/
theorem getElem?_queries_each (hstep : ∀ h r, (step h r).1 = r.amend h f) {hs : List Handle}
    (hnodup : hs.Nodup) (r : Registry) (g : Handle) :
    (each step hs r).1.queries[g]? =
      if g ∈ hs then r.queries[g]?.map f else r.queries[g]? := by
  induction hs generalizing r with
  | nil => rfl
  | cons h hs ih =>
    obtain ⟨hh, hnodup⟩ := List.nodup_cons.mp hnodup
    show (each step hs (step h r).1).1.queries[g]? = _
    rw [ih hnodup, hstep, getElem?_queries_amend]
    by_cases hg : h = g
    · subst hg
      simp [hh]
    · have hmem : g ∈ h :: hs ↔ g ∈ hs := by simp [Ne.symm hg]
      simp only [if_neg hg, hmem]

/-- What changes no snapshot leaves a query knowing what it knew. -/
theorem snapshot?_of_map (hf : ∀ q, (f q).snapshot = q.snapshot) {r r' : Registry} {h : Handle}
    (hq : r'.queries[h]? = r.queries[h]?.map f) : r'.snapshot? h = r.snapshot? h := by
  unfold snapshot?
  rw [hq, Option.map_map]
  congr 1
  funext q
  exact hf q

theorem spares_amend (hf : ∀ q, (f q).snapshot = q.snapshot) (h : Handle) (r : Registry) :
    Spares (· = h) r (r.amend h f) where
  issued := rfl
  snapshots g := by
    by_cases hg : h = g
    · apply snapshot?_of_map hf
      rw [getElem?_queries_amend, if_pos hg]
    · unfold snapshot?
      rw [getElem?_queries_amend, if_neg hg]
  others g hg := by rw [getElem?_queries_amend, if_neg (Ne.symm hg)]

theorem spares_each (hstep : ∀ h r, (step h r).1 = r.amend h f)
    (hf : ∀ q, (f q).snapshot = q.snapshot) (hkeeps : ∀ h r, Keeps r (step h r).1)
    {hs : List Handle} (hnodup : hs.Nodup) (r : Registry) :
    Spares (· ∈ hs) r (each step hs r).1 where
  issued := (Keeps.each hkeeps hs r).issued
  snapshots h := by
    by_cases hh : h ∈ hs
    · apply snapshot?_of_map hf
      rw [getElem?_queries_each hstep hnodup, if_pos hh]
    · unfold snapshot?
      rw [getElem?_queries_each hstep hnodup, if_neg hh]
  others h hh := by rw [getElem?_queries_each hstep hnodup, if_neg hh]

/-- Where nothing is to be done to any of the queries nothing is done. -/
theorem each_of_fixed {hs : List Handle} {r : Registry} (hfixed : ∀ h ∈ hs, step h r = (r, [])) :
    each step hs r = (r, []) := by
  induction hs with
  | nil => rfl
  | cons h hs ih =>
    have hrest := ih fun g hg => hfixed g (List.mem_cons_of_mem h hg)
    unfold each
    rw [hfixed h (List.mem_cons_self ..)]
    show ((each step hs r).1, [] ++ (each step hs r).2) = _
    rw [hrest]
    rfl

end Each

/-- A query that has been stopped is not stopped again, and no turn is asked for. -/
theorem stopQuery_of_timer {r : Registry} {h : Handle} {q : Query} (hq : r.queries[h]? = some q)
    (ht : q.timer = none) : r.stopQuery h = (r, []) := by
  unfold stopQuery wakeCancelled
  simp only [hq, Query.stop_of_timer ht, ht, put_self hq]
  rfl

theorem get?_remove (id id' : Nat) (r : Registry) :
    (r.remove id).get? id' = if id' = id then none else r.get? id' := by
  show (r.entries.filter fun e => decide (e.1 ≠ id)).lookup id' = _
  rw [lookup_filter_fst (fun k => decide (k ≠ id)) id' r.entries]
  by_cases hid : id' = id
  · simp [hid]
  · simp [hid, get?]

end Registry

namespace World

open Registry (IsRegistered Spares)

variable {w : World}

/-- Pausing stops the registered queries, and has nothing to do when it comes again. -/
theorem pauseAll_reaches (hw : w.Orderly) :
    let paused := w.registry.pauseAll.1
    (∀ h ∈ w.registry.handles, paused.polls? h = some false) ∧
      paused.entries = w.registry.entries ∧
      Spares (· ∈ w.registry.handles) w.registry paused ∧
      paused.pauseAll = (paused, [.notice (.pausing w.registry.entries.length)]) := by
  intro paused
  have hkeeps : Registry.Keeps w.registry paused := .each .stopQuery _ _
  have hstopped : ∀ h ∈ w.registry.handles, ∃ q : Query,
      paused.queries[h]? = some (q.move .stop) := by
    intro h hh
    obtain ⟨q, hq, -⟩ := hw.registered h hh
    replace hq : w.registry.queries[h]? = some q := hq
    refine ⟨q, ?_⟩
    show (Registry.each Registry.stopQuery w.registry.handles w.registry).1.queries[h]? = _
    rw [Registry.getElem?_queries_each Registry.stopQuery_eq_amend hw.nodup, if_pos hh, hq]
    rfl
  refine ⟨?_, hkeeps.entries, ?_, ?_⟩
  · intro h hh
    obtain ⟨q, hq⟩ := hstopped h hh
    rw [Registry.polls?, hq, Option.map_some, Query.isPolling_stop]
  · exact Registry.spares_each Registry.stopQuery_eq_amend Query.snapshot_cancelTimer
      Registry.Keeps.stopQuery hw.nodup w.registry
  · have hhandles : paused.handles = w.registry.handles :=
      congrArg (List.map Prod.snd) hkeeps.entries
    have hfixed : Registry.each Registry.stopQuery paused.handles paused = (paused, []) := by
      apply Registry.each_of_fixed
      intro h hh
      obtain ⟨q, hq⟩ := hstopped h (hhandles ▸ hh)
      exact Registry.stopQuery_of_timer hq (Query.timer_cancelTimer q)
    have hlength : paused.handles.length = w.registry.entries.length := by
      rw [hhandles, Registry.handles, List.length_map]
    show ((Registry.each Registry.stopQuery paused.handles paused).1,
      Effect.notice (.pausing paused.handles.length) ::
        (Registry.each Registry.stopQuery paused.handles paused).2) = _
    rw [hfixed, hlength]

/-- Resuming starts the registered queries, those that had been stopped one by one too. -/
theorem resumeAll_reaches (hw : w.Orderly) (htimed : ∀ h q, w.query? h = some q → q.WellTimed) :
    let resumed := w.registry.resumeAll.1
    (∀ h ∈ w.registry.handles, ∃ q, resumed.queries[h]? = some q ∧ q.isPolling = true ∧
        ∃! i, q.isCancelled i = false) ∧
      resumed.entries = w.registry.entries ∧
      Spares (· ∈ w.registry.handles) w.registry resumed := by
  intro resumed
  have hkeeps : Registry.Keeps w.registry resumed := .each .startQuery _ _
  refine ⟨?_, hkeeps.entries, ?_⟩
  · intro h hh
    obtain ⟨q, hq, hp⟩ := hw.registered h hh
    replace hq : w.registry.queries[h]? = some q := hq
    refine ⟨q.restart, ?_, (htimed h q hq).restart hp⟩
    show (Registry.each Registry.startQuery w.registry.handles w.registry).1.queries[h]? = _
    rw [Registry.getElem?_queries_each Registry.startQuery_eq_amend hw.nodup, if_pos hh, hq]
    rfl
  · exact Registry.spares_each Registry.startQuery_eq_amend Query.snapshot_restart
      Registry.Keeps.startQuery hw.nodup w.registry

/-- A disposal stops the query that the identifier stands for, and unregisters no other. -/
theorem dispose_reaches {r : Registry} (hr : r.Indexed) {id : Nat} {h : Handle}
    (hid : r.get? id = some h) :
    ∃ r' effects, r.dispose id = .ok (h, r', effects) ∧ r'.polls? h = some false ∧
      (∀ id', r'.get? id' = if id' = id then none else r.get? id') ∧ ¬ r'.IsRegistered h ∧
      Spares (· = h) r r' := by
  obtain ⟨q, hq, -⟩ := Option.map_eq_some_iff.mp (hr.idOf?_of_get? hid)
  have hstop : ((r.remove id).stopQuery h).1 = (r.remove id).amend h (Query.move .stop) :=
    Registry.stopQuery_eq_amend h (r.remove id)
  have hget (id' : Nat) : ((r.remove id).stopQuery h).1.get? id' =
      if id' = id then none else r.get? id' := by
    rw [Registry.get?, Registry.entries_stopQuery]
    exact Registry.get?_remove id id' r
  refine ⟨((r.remove id).stopQuery h).1, _, by simp only [Registry.dispose, hid]; rfl,
    ?_, hget, ?_, ?_⟩
  · rw [hstop, Registry.polls?, Registry.getElem?_queries_amend, if_pos rfl]
    show (r.queries[h]?.map _).map _ = some false
    rw [hq]
    exact congrArg some (Query.isPolling_stop q)
  · -- A query has one identifier, and this one has been taken off the register.
    rintro ⟨id', hid'⟩
    rw [hget] at hid'
    split at hid'
    case isTrue => cases hid'
    case isFalse hne =>
      have hsame := (hr.idOf?_of_get? hid').symm.trans (hr.idOf?_of_get? hid)
      exact hne (Option.some.inj hsame)
  · -- Taking the identifier off the register leaves the queries and the counter alone.
    have hspares : Spares (· = h) (r.remove id) ((r.remove id).amend h (Query.move .stop)) :=
      Registry.spares_amend Query.snapshot_cancelTimer h (r.remove id)
    rw [hstop]
    exact ⟨hspares.issued, hspares.snapshots, hspares.others⟩

/-- In every registry that can come about pausing leaves no registered query polling, and pausing
once more leaves everything as it is and asks for nothing; resuming leaves every registered query
polling by one live loop; disposing of a registered identifier stops the query that it stands for
and takes it, and no other, off the register. The counter, what the queries know, all other queries
and, but for the disposal, the register are left alone. -/
theorem pause_resume_dispose_reach (client : Client) (ss : List Step) :
    let r := ((start client).run ss).registry
    let paused := r.pauseAll.1
    let resumed := r.resumeAll.1
    ((∀ h, r.IsRegistered h → paused.polls? h = some false) ∧ paused.entries = r.entries ∧
      Spares r.IsRegistered r paused ∧
      paused.pauseAll = (paused, [.notice (.pausing r.entries.length)])) ∧
    ((∀ h, r.IsRegistered h → ∃ q, resumed.queries[h]? = some q ∧ q.isPolling = true ∧
        ∃! i, q.isCancelled i = false) ∧
      resumed.entries = r.entries ∧ Spares r.IsRegistered r resumed) ∧
    ∀ id h, r.get? id = some h →
      ∃ r' effects, r.dispose id = .ok (h, r', effects) ∧ r'.polls? h = some false ∧
        (∀ id', r'.get? id' = if id' = id then none else r.get? id') ∧ ¬ r'.IsRegistered h ∧
        Spares (· = h) r r' := by
  intro r paused resumed
  have hw := orderly_run_start client ss
  have hr : r.Indexed := indexed_run_start client ss
  have hreg : r.IsRegistered = (· ∈ r.handles) := by
    funext h
    exact propext (Registry.isRegistered_iff hr.nodup)
  rw [hreg]
  refine ⟨pauseAll_reaches hw, ?_, ?_⟩
  · exact resumeAll_reaches hw fun h q hq => wellTimed hq
  · intro id h hid
    exact dispose_reaches hr hid

end World
end LiveQuery
