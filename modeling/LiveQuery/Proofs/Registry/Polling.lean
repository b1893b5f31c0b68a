import LiveQuery.Proofs.Query.Timer
import LiveQuery.Proofs.Registry.World

/-!
# Polling loops in a world

What is true of the loops of a query whatever else is under way. In every reachable world the timer
of a query names its only live loop, and a spent loop never begins another request. A stop does not
keep a query quiet: the loops whose tasks have not had their first turn still fetch once, and the
query is quiet until the next start exactly if there are none.
-/

namespace LiveQuery

/-- A loop is live while it has neither been cancelled nor ended. -/
def Query.IsLive (i : Nat) (q : Query) : Prop := q.isCancelled i = false ∧ q.phase i ≠ .ended

namespace World

/-- The phase of a loop of a query. -/
def phase? (h : Handle) (i : Nat) (w : World) : Option Phase :=
  (w.query? h).map fun q => q.phase i

/-- In the step a loop of a query begins a request. -/
def Begins (s : Step) (h : Handle) (i : Nat) (w : World) : Prop :=
  w.phase? h i ≠ some .fetching ∧ (w.step s).phase? h i = some .fetching

instance (s : Step) (h : Handle) (i : Nat) (w : World) : Decidable (w.Begins s h i) :=
  inferInstanceAs (Decidable (_ ∧ _))

/-- The loops of a query begin their requests by its moves. -/
theorem begins_iff {s : Step} {h : Handle} {i : Nat} {w : World} {q : Query}
    (hq : w.query? h = some q) : w.Begins s h i ↔ ∃ m, w.moves h s = [m] ∧ q.Begins m i := by
  simp only [Begins, phase?, hq, query?_step hq, Option.map_some, ne_eq, Option.some.injEq]
  constructor
  · rintro ⟨hn, hf⟩
    rcases moves_eq_nil_or h s w with hm | ⟨m, hm⟩
    · rw [hm] at hf
      exact absurd hf hn
    · rw [hm] at hf
      exact ⟨m, hm, hn, hf⟩
  · rintro ⟨m, hm, hn, hf⟩
    rw [hm]
    exact ⟨hn, hf⟩

/-- A query that is not there yet begins nothing. -/
theorem Begins.exists_query {s : Step} {h : Handle} {i : Nat} {w : World} (hb : w.Begins s h i) :
    ∃ q, w.query? h = some q := by
  cases hq : w.query? h with
  | some q => exact ⟨q, rfl⟩
  | none =>
    obtain ⟨-, hf⟩ := hb
    cases hq' : (w.step s).query? h with
    | none => simp [phase?, hq'] at hf
    | some q' =>
      obtain ⟨id, e, f, o, rfl⟩ := query?_step_of_none hq hq'
      simp [phase?, hq', Query.phase, Query.fresh] at hf

/-- In every reachable world a query is well timed. -/
theorem wellTimed {client : Client} {ss : List Step} {h : Handle} {q : Query}
    (hq : ((start client).run ss).query? h = some q) : q.WellTimed := by
  obtain ⟨id, e, f, o, rfl⟩ := query?_run_start hq
  exact Query.wellTimed_run _ (Query.wellTimed_fresh id client e f o)

/-- A loop that has begun a request somewhere in a run has begun for good. -/
theorem hasBegun_of_begins {s : Step} {h : Handle} {i : Nat} {w : World} {before after : List Step}
    {q : Query} (hb : (w.run before).Begins s h i)
    (hq : (w.run (before ++ s :: after)).query? h = some q) : q.HasBegun i := by
  obtain ⟨q₀, hq₀⟩ := hb.exists_query
  obtain ⟨m, hm, hbeg⟩ := (begins_iff hq₀).mp hb
  have hstep := query?_step (s := s) hq₀
  rw [hm] at hstep
  rw [run_append, run_cons, query?_run hstep, Option.some.injEq] at hq
  rw [← hq]
  exact Query.hasBegun_run _ hbeg.hasBegun

/-- In every reachable world at most one loop of a query is not cancelled, and it is the one that
the timer names; the query polls exactly if it has a live loop; a loop that has been cancelled after
its first request had begun never begins another one; and a query whose interval is zero has no
loop at all. -/
theorem timer_names_live_loop {client : Client} {ss : List Step} {h : Handle} {q : Query}
    (hq : ((start client).run ss).query? h = some q) :
    (∀ i j, q.isCancelled i = false → q.isCancelled j = false → i = j) ∧
    (∀ i, q.timer = some i ↔ q.isCancelled i = false) ∧
    (q.isPolling = true ↔ ∃ i, q.IsLive i) ∧
    (∀ before s after i, ss = before ++ s :: after → ((start client).run before).Begins s h i →
      q.isCancelled i = true →
        ∀ later next, ¬ (((start client).run ss).run later).Begins next h i) ∧
    (q.options.pollIntervalMs = 0 → q.loops = []) := by
  have hw := wellTimed hq
  refine ⟨?_, hw.timer_iff, ?_, ?_, ?_⟩
  · intro i j hi hj
    have hi' := (hw.timer_iff i).mpr hi
    rw [(hw.timer_iff j).mpr hj] at hi'
    exact (Option.some.inj hi').symm
  · rw [hw.isPolling_iff]
    constructor
    · rintro ⟨i, hi⟩
      have hc := (hw.timer_iff i).mp hi
      exact ⟨i, hc, hw.not_ended i hc⟩
    · rintro ⟨i, hc, -⟩
      exact ⟨i, (hw.timer_iff i).mpr hc⟩
  · intro before s after i hss hbegun hc later next hb
    subst hss
    have hspent := (hasBegun_of_begins hbegun hq).isSpent hc
    obtain ⟨m, -, hm⟩ := (begins_iff (query?_run hq)).mp hb
    exact Query.not_begins_of_isSpent m (Query.isSpent_run _ hspent) hm
  · intro hz
    exact hw.no_loops (by simp [QueryOptions.isPolling, hz])

/-- A query that polls is made, its loop begins a request, and it is started anew. -/
def restartedInFlight : List Step :=
  [.call (.make 0 (some EndpointName.flow.endpoint) .empty ⟨1000⟩ true), .part 0, .part 0, .part 0,
    .move 0 (.beginLoop 0), .move 0 .start]

/-- Of a loop in flight and the one that has replaced it only the second is live, though it has no
task yet; the first never begins another request. -/
theorem timer_names_live_loop_restarted :
    ∃ q, ((start default).run restartedInFlight).query? 0 = some q ∧ q.timer = some 1 ∧
      q.isPolling = true ∧ (∃ i, q.IsLive i) ∧
      ∀ later next, ¬ (((start default).run restartedInFlight).run later).Begins next 0 0 := by
  have hq : ((start default).run restartedInFlight).query? 0 = some _ := rfl
  obtain ⟨-, -, hpolling, hspent, -⟩ := timer_names_live_loop hq
  refine ⟨_, hq, rfl, rfl, ?_, ?_⟩
  · exact hpolling.mp rfl
  · exact hspent (restartedInFlight.take 4) (.move 0 (.beginLoop 0)) [.move 0 .start] 0 rfl
      (by decide) rfl

/-! ## After a stop -/

/-- When a query has been stopped, by whomever, no loop of it begins a request before the next start
but one that has its first turn then, and had not had it when the query was stopped. So the query is
quiet until the next start exactly if every loop had had its first turn. -/
theorem quiet_after_stop_iff {client : Client} {ss : List Step} {s : Step} {h : Handle} {q : Query}
    (hq : ((start client).run ss).query? h = some q)
    (hs : ((start client).run ss).moves h s = [.stop]) :
    let stopped := ((start client).run ss).step s
    (∀ later next i, .start ∉ stopped.history h later → (stopped.run later).Begins next h i →
      (stopped.run later).phase? h i = some .spawned ∧ (q.phase i).hasBegun = false) ∧
    ((∀ later next i, .start ∉ stopped.history h later → ¬ (stopped.run later).Begins next h i) ↔
      ∀ i, (q.phase i).hasBegun = true) := by
  intro stopped
  have hstop : stopped.query? h = some (q.move .stop) := by
    rw [query?_step hq, hs]
    rfl
  have hall : (q.move .stop).AllCancelled := (wellTimed hq).isCancelled_stop
  have hfirst : ∀ later next i, .start ∉ stopped.history h later →
      (stopped.run later).Begins next h i →
      (stopped.run later).phase? h i = some .spawned ∧ (q.phase i).hasBegun = false := by
    intro later next i hns hb
    obtain ⟨m, -, hm⟩ := (begins_iff (query?_run hstop)).mp hb
    obtain ⟨hsp, hnb⟩ := Query.begins_after_stop hns hall hm
    rw [Query.phase_stop] at hnb
    rw [phase?, query?_run hstop, Option.map_some, hsp]
    exact ⟨rfl, hnb⟩
  refine ⟨hfirst, ?_, ?_⟩
  · intro hquiet i
    rw [← Bool.not_eq_false]
    intro hnb
    -- A loop that has not begun is given its task, if it has none yet, and its first turn.
    have hb := Query.exists_begins (i := i) (q := q.move .stop) (by rw [Query.phase_stop]; exact hnb)
    have hspawn : stopped.moves h (.move h (.spawn i)) = [.spawn i] := by
      simp [moves, hstop, move?]
    have hq' := query?_step hstop (s := .move h (.spawn i))
    rw [hspawn] at hq'
    apply hquiet [.move h (.spawn i)] (.move h (.beginLoop i)) i
    · simp [hspawn]
    · refine (begins_iff hq').mpr ⟨.beginLoop i, ?_, hb⟩
      simp only [moves, hq', move?, if_true]
  · intro hbegun later next i hns hb
    have := (hfirst later next i hns hb).2
    rw [hbegun i] at this
    cases this

/-- A query that polls is made and registered, its loop begins a request, and a call that stops all
queries has copied their handles. -/
def pausedInFlight : List Step :=
  [.call (.create (some EndpointName.flow.endpoint) .empty ⟨1000⟩ true), .part 0, .part 0, .part 0,
    .part 0, .part 0, .move 0 (.beginLoop 0), .call .pauseAll, .part 1]

/-- A query that is stopped in flight is quiet until it is started again. -/
theorem quiet_after_stop_in_flight :
    let stopped := ((start default).run pausedInFlight).step (.part 1)
    ((start default).run pausedInFlight).moves 0 (.part 1) = [.stop] ∧
      ∀ later next i, .start ∉ stopped.history 0 later → ¬ (stopped.run later).Begins next 0 i := by
  have hq : ((start default).run pausedInFlight).query? 0 = some _ := rfl
  have hs : ((start default).run pausedInFlight).moves 0 (.part 1) = [.stop] := rfl
  refine ⟨hs, (quiet_after_stop_iff hq hs).2.mpr ?_⟩
  intro i
  cases i <;> rfl

/-- A stop before the first turn of the task does not keep it from fetching, so that not every query
is quiet between a stop and the next start. -/
theorem request_after_stop :
    ¬ ∀ (client : Client) (ss : List Step) (s : Step) (h : Handle),
      ((start client).run ss).moves h s = [.stop] →
      ∀ later next i, .start ∉ (((start client).run ss).step s).history h later →
        ¬ ((((start client).run ss).step s).run later).Begins next h i := by
  intro hquiet
  refine hquiet default (restartedInFlight.take 4) (.move 0 .stop) 0 rfl [] (.move 0 (.beginLoop 0))
    0 ?_ ?_
  · simp
  · decide

end World
end LiveQuery
