import LiveQuery.Proofs.Registry.Alone
import LiveQuery.Proofs.Registry.Spacing
import LiveQuery.Session

/-!
# What is played

A schedule picks one order in which things happen, and a session plays it. Each thing that happens
at a point in time is a list of steps of a world that are made then (`Registry.LeadsTo`), and from
one such point the clock goes on to the next (`Schedule.Plays`). So every session is a run of a
world with a clock (`Session.exists_clocked_run`), every registry a session comes by is that of a
reachable world (`Session.exists_run`), and what holds in all worlds holds in sessions.
-/

namespace LiveQuery

/-- Whatever else is under way, steps that are made at a point in time lead from one registry to
another. -/
def Registry.LeadsTo (t : Nat) (r r' : Registry) : Prop :=
  ∀ w : World, w.registry = r → ∃ ss, (∀ s ∈ ss, s.at_ t = s) ∧ (w.run ss).registry = r'

/-- A relation that puts single moves of a query before whatever it holds of relates a registry to
what all moves make of it. -/
theorem Registry.put_run_induct {P : Registry → Registry → Prop} {good : Move → Prop} {h : Handle}
    (hrefl : ∀ r, P r r)
    (hmove : ∀ {r r' : Registry} {q : Query} {m : Move}, r.queries[h]? = some q → good m →
      P (r.put h (q.move m)) r' → P r r')
    {r : Registry} {q : Query} (hq : r.queries[h]? = some q) (ms : List Move)
    (hms : ∀ m ∈ ms, good m) : P r (r.put h (q.run ms)) := by
  induction ms generalizing r q with
  | nil =>
    rw [Query.run_nil, Registry.put_self hq]
    exact hrefl r
  | cons m ms ih =>
    apply hmove hq (hms m (List.mem_cons_self ..))
    have hrun := ih (Registry.getElem?_queries_put hq (q.move m))
      fun m' hm' => hms m' (List.mem_cons_of_mem m hm')
    rwa [Registry.put_put] at hrun

namespace Registry.LeadsTo

variable {t : Nat}

theorem refl (r : Registry) : r.LeadsTo t r := fun _ hw => ⟨[], by simp, hw⟩

theorem trans {r r' r'' : Registry} (h : r.LeadsTo t r') (h' : r'.LeadsTo t r'') :
    r.LeadsTo t r'' := by
  intro w hw
  obtain ⟨ss, hnow, hss⟩ := h w hw
  obtain ⟨ts, hnow', hts⟩ := h' (w.run ss) hss
  refine ⟨ss ++ ts, ?_, by rw [World.run_append, hts]⟩
  intro s hs
  exact (List.mem_append.mp hs).elim (hnow s) (hnow' s)

/-- A call that is left alone leads to what its parts do. -/
theorem of_finishes {c : Call} {r r' : Registry} (hf : Finishes (c.parts r) r r') :
    r.LeadsTo t r' := by
  intro w hw
  subst hw
  have hcall : (w.step (.call c)).calls[w.calls.length]? = some ⟨c, c.parts w.registry ++ []⟩ := by
    simp [World.step]
  obtain ⟨n, hn, -⟩ := hf.run (w := w.step (.call c)) rfl hcall
  refine ⟨.call c :: List.replicate n (.part w.calls.length), ?_, hn⟩
  intro s hs
  rcases List.mem_cons.mp hs with rfl | hs
  · rfl
  · rw [List.eq_of_mem_replicate hs]
    rfl

theorem put_move {r : Registry} {h : Handle} {q : Query} (hq : r.queries[h]? = some q) {m : Move}
    (hm : m.at_ t = m) : r.LeadsTo t (r.put h (q.move m)) := by
  intro w hw
  refine ⟨[.move h m], by simp [World.Step.at_, hm], ?_⟩
  rw [← Registry.amend_of_some hq, ← hw]
  rfl

/-- The moves of a query lead to what they make of it. -/
theorem put_run {r : Registry} {h : Handle} {q : Query} (hq : r.queries[h]? = some q)
    (ms : List Move) (hms : ∀ m ∈ ms, m.at_ t = m) : r.LeadsTo t (r.put h (q.run ms)) :=
  put_run_induct refl (fun hq hm hrest => (put_move hq hm).trans hrest) hq ms hms

theorem startQuery (h : Handle) (r : Registry) : r.LeadsTo t (r.startQuery h).1 := by
  cases hq : r.queries[h]? with
  | none =>
    simp only [Registry.startQuery, hq]
    exact refl r
  | some q =>
    obtain ⟨ms, hmoves, hms⟩ := Registry.startQuery_eq_put hq
    rw [hms]
    refine put_run hq ms fun m hm => ?_
    rcases hmoves m hm with rfl | ⟨i, rfl⟩ <;> rfl

theorem stopQuery (h : Handle) (r : Registry) : r.LeadsTo t (r.stopQuery h).1 := by
  simp only [Registry.stopQuery]
  cases hq : r.queries[h]? with
  | none => exact refl r
  | some q => exact put_run hq [.stop] (by simp [Move.at_])

theorem apply (v : Visibility) (r : Registry) : r.LeadsTo t (r.apply v).1 := by
  cases v with
  | hidden => exact of_finishes (Registry.finishes_pauseAll r)
  | visible => exact of_finishes (Registry.finishes_resumeAll r)

end Registry.LeadsTo

/-- Turns that the tasks of queries have at a point in time lead from one registry to another: moves
that swap no timer. -/
inductive Registry.Turns (t : Nat) : Registry → Registry → Prop
  | refl (r : Registry) : Turns t r r
  | move {r r' : Registry} {h : Handle} {q : Query} {m : Move} (hq : r.queries[h]? = some q)
    (hm : m.swaps = false ∧ m.at_ t = m) (hturns : Turns t (r.put h (q.move m)) r') : Turns t r r'

namespace Registry.Turns

variable {t : Nat} {r r' r'' : Registry}

theorem trans (h : r.Turns t r') (h' : r'.Turns t r'') : r.Turns t r'' := by
  induction h with
  | refl => exact h'
  | move hq hm _ ih => exact .move hq hm (ih h')

theorem put_run {h : Handle} {q : Query} (hq : r.queries[h]? = some q) (ms : List Move)
    (hms : ∀ m ∈ ms, m.swaps = false ∧ m.at_ t = m) : r.Turns t (r.put h (q.run ms)) :=
  put_run_induct .refl .move hq ms hms

theorem leadsTo (h : r.Turns t r') : r.LeadsTo t r' := by
  induction h with
  | refl r => exact .refl r
  | move hq hm _ ih => exact (LeadsTo.put_move hq hm.2).trans ih

end Registry.Turns

open Registry (LeadsTo Turns)

/-! ## Schedules -/

namespace Schedule

variable {σ : Type}

@[simp] theorem registry_report (q : Query) (result : Except FetchError Response)
    (s : Schedule σ) : (s.report q result).registry = s.registry := by
  cases result <;> rfl

/-- The query whose task it is. -/
def taskHandle : Task → Handle
  | .first h => h
  | .loop h _ => h

theorem turns_settle {t : Task} {q : Query} {s : Schedule σ}
    (hq : s.registry.queries[taskHandle t]? = some q) (outcome : Outcome) :
    s.registry.Turns s.now (s.settle t q outcome).registry := by
  cases t with
  | first h =>
    simp only [settle, settleDirect, registry_report]
    exact Turns.put_run hq [.settleDirect _ _] (by simp [Move.swaps, Move.at_])
  | loop h i =>
    simp only [settle, settleLoop]
    split
    · simp only [wait, registry_report]
      exact Turns.put_run hq [.settleLoop i _ _ _, .wake i _] (by simp [Move.swaps, Move.at_])
    · simp only [registry_report]
      exact Turns.put_run hq [.settleLoop i _ _ _, .wake i _] (by simp [Move.swaps, Move.at_])

theorem turns_dispatch {t : Task} {q : Query} {s : Schedule σ}
    (hq : s.registry.queries[taskHandle t]? = some q) :
    s.registry.Turns s.now (s.dispatch t q).registry := by
  simp only [dispatch]
  split
  · exact turns_settle (s := (s.send q).2) hq _
  · exact .refl _
  · exact .refl _

/-- A task that begins a fetch and sends its request. -/
theorem turns_put_dispatch {t : Task} {q : Query} {s : Schedule σ}
    (hq : s.registry.queries[taskHandle t]? = some q) (ms : List Move)
    (hms : ∀ m ∈ ms, m.swaps = false ∧ m.at_ s.now = m) :
    s.registry.Turns s.now ((s.put (taskHandle t) (q.run ms)).dispatch t (q.run ms)).registry :=
  (Turns.put_run hq ms hms).trans (turns_dispatch (s := s.put (taskHandle t) (q.run ms))
    (Registry.getElem?_queries_put hq _))

theorem turns_runTask (t : Task) (outcome : Option Outcome) (s : Schedule σ) :
    s.registry.Turns s.now (s.runTask t outcome).registry := by
  cases t with
  | first h =>
    simp only [runTask]
    cases hq : s.registry.queries[h]? with
    | none => exact .refl _
    | some q =>
      cases outcome with
      | some outcome => exact turns_settle (t := .first h) hq outcome
      | none =>
        exact turns_put_dispatch (t := .first h) hq [.beginDirect] (by simp [Move.swaps, Move.at_])
  | loop h i =>
    simp only [runTask]
    cases hq : s.registry.queries[h]? with
    | none => exact .refl _
    | some q =>
      cases outcome with
      | some outcome => exact turns_settle (t := .loop h i) hq outcome
      | none =>
        simp only
        split
        · exact turns_put_dispatch (t := .loop h i) hq [.wake i s.now, .beginLoop i]
            (by simp [Move.swaps, Move.at_])
        · exact Turns.put_run hq [.wake i s.now, .beginLoop i] (by simp [Move.swaps, Move.at_])

theorem leadsTo_observe (t : Nat) (w : Watcher) (r : Registry) : r.LeadsTo t (w.observe r).2.1 := by
  simp only [Watcher.observe]
  split
  · split
    · exact LeadsTo.refl r
    · split
      · split
        · exact LeadsTo.refl r
        · exact LeadsTo.apply w.value r
      · split <;> exact LeadsTo.refl r
  · exact LeadsTo.refl r

theorem leadsTo_run (turn : Turn) (s : Schedule σ) :
    s.registry.LeadsTo s.now (s.run turn).registry := by
  cases turn with
  | task t outcome => exact (turns_runTask t outcome s).leadsTo
  | watcher k =>
    simp only [run, runWatcher]
    cases s.watchers[k]? with
    | none => exact LeadsTo.refl _
    | some w => exact (leadsTo_observe _ _ _).trans (leadsTo_observe _ _ _)

/-! ## The clock -/

/-- A schedule leads to another one: whatever else is under way, steps of a world with a clock that
shows the time of the first lead to the registry and to the time of the second. -/
def Plays (s s' : Schedule σ) : Prop :=
  ∀ c : Clocked, c.world.registry = s.registry → c.now = s.now →
    ∃ ss, (c.run ss).world.registry = s'.registry ∧ (c.run ss).now = s'.now

namespace Plays

variable {s s' s'' : Schedule σ}

theorem refl (s : Schedule σ) : s.Plays s := fun _ hr hn => ⟨[], hr, hn⟩

theorem trans (h : s.Plays s') (h' : s'.Plays s'') : s.Plays s'' := by
  intro c hr hn
  obtain ⟨ss, hr', hn'⟩ := h c hr hn
  obtain ⟨ts, hends⟩ := h' (c.run ss) hr' hn'
  exact ⟨ss ++ ts, by rwa [Clocked.run_append]⟩

/-- Steps that are made now take no time. -/
theorem of_leadsTo (h : s.registry.LeadsTo s.now s'.registry) (hn : s'.now = s.now) :
    s.Plays s' := by
  intro c hr hc
  obtain ⟨ss, hnow, hss⟩ := h c.world hr
  refine ⟨ss.map fun s => ⟨0, s⟩, ?_⟩
  rw [← hc] at hnow
  rw [Clocked.run_at_once hnow, hn]
  exact ⟨hss, hc⟩

/-- Time passes. -/
theorem of_wait (hr : s'.registry = s.registry) (hn : s.now ≤ s'.now) : s.Plays s' := by
  intro c hc hnow
  -- A part of no call is a step of no effect.
  refine ⟨[⟨s'.now - s.now, .part c.world.calls.length⟩], ?_, ?_⟩
  · simp [Clocked.step, World.Step.at_, World.step, World.next?, hr, hc]
  · simp only [Clocked.run_cons, Clocked.run_nil, Clocked.step, hnow]
    omega

end Plays

@[simp] theorem now_report (q : Query) (result : Except FetchError Response) (s : Schedule σ) :
    (s.report q result).now = s.now := by
  cases result <;> rfl

@[simp] theorem now_settle (t : Task) (q : Query) (outcome : Outcome) (s : Schedule σ) :
    (s.settle t q outcome).now = s.now := by
  cases t with
  | first h =>
    simp only [settle, settleDirect, now_report]
    rfl
  | loop h i =>
    simp only [settle, settleLoop]
    split <;> exact now_report ..

@[simp] theorem now_dispatch (t : Task) (q : Query) (s : Schedule σ) :
    (s.dispatch t q).now = s.now := by
  simp only [dispatch]
  split
  · exact now_settle ..
  · rfl
  · rfl

@[simp] theorem now_run (turn : Turn) (s : Schedule σ) : (s.run turn).now = s.now := by
  cases turn with
  | watcher k =>
    simp only [run, runWatcher]
    split <;> rfl
  | task t outcome =>
    simp only [run, runTask]
    split
    · rfl
    · exact now_settle ..
    · split
      · exact now_dispatch ..
      · split
        · exact now_dispatch ..
        · rfl

theorem now_runReady (s : Schedule σ) : s.runReady.now = s.now := by
  induction s using runReady.induct with
  | case1 s hs => rw [runReady, hs]
  | case2 s turn rest hs ih =>
    rw [runReady, hs]
    exact ih.trans (now_run turn _)

theorem now_runTo (target now : Nat) (s : Schedule σ) : (s.runTo target now).now = target := by
  induction now, s using runTo.induct target with
  | case1 now s hs => rw [runTo, hs]
  | case2 now s t hs ih =>
    rw [runTo, hs]
    exact ih

theorem plays_runReady (s : Schedule σ) : s.Plays s.runReady := by
  induction s using runReady.induct with
  | case1 s hs =>
    rw [runReady, hs]
    exact .refl s
  | case2 s turn rest hs ih =>
    rw [runReady, hs]
    have hrun : s.Plays (run turn { s with ready := rest }) :=
      .of_leadsTo (leadsTo_run turn { s with ready := rest }) (now_run turn _)
    exact hrun.trans ih

theorem plays_fire {t : Nat} {s : Schedule σ} (ht : s.now ≤ t) : s.Plays (fire t s) :=
  .of_wait rfl ht

theorem plays_runTo {target now : Nat} {s : Schedule σ} (hn : s.now = now) (ht : now ≤ target) :
    s.Plays (s.runTo target now) := by
  induction now, s using runTo.induct target with
  | case1 now s hs =>
    rw [runTo, hs]
    exact .of_wait rfl (hn ▸ ht)
  | case2 now s t hs ih =>
    obtain ⟨hlt, hle⟩ := lt_of_nextInstant? hs
    rw [runTo, hs]
    have hfire : s.Plays (fire t s) := plays_fire (hn ▸ Nat.le_of_lt hlt)
    exact hfire.trans ((plays_runReady (fire t s)).trans (ih (now_runReady _) hle))

theorem plays_advance (ms : Nat) (s : Schedule σ) : s.Plays (s.advance ms) := by
  simp only [advance]
  split
  · exact plays_runReady s
  · exact (plays_runReady s).trans (plays_runTo rfl (Nat.le_add_right _ ms))

theorem plays_settleDirect (h : Handle) (q₀ : Query) (outcome : Outcome) (s : Schedule σ) :
    s.Plays (s.settleDirect h ((s.registry.queries[h]?).getD q₀) outcome) := by
  refine .of_leadsTo ?_ (now_report ..)
  simp only [settleDirect, registry_report]
  cases hq : s.registry.queries[h]? with
  | some q => exact LeadsTo.put_run hq [.settleDirect _ _] (by simp [Move.at_])
  | none =>
    have hput : ∀ q, s.registry.put h q = s.registry := by
      intro q
      rw [Registry.put, List.set_eq_of_length_le (List.getElem?_eq_none_iff.mp hq)]
    change s.registry.LeadsTo s.now (s.registry.put h _)
    rw [hput]
    exact LeadsTo.refl _

theorem plays_fetch (h : Handle) (s : Schedule σ) : s.Plays (s.fetch h).2 := by
  simp only [fetch]
  cases hq : s.registry.queries[h]? with
  | none => exact .refl s
  | some q =>
    have hbegin : s.Plays ((s.put h q.beginDirect).send q.beginDirect).2 :=
      .of_leadsTo (LeadsTo.put_run hq [.beginDirect] (by simp [Move.at_])) rfl
    simp only
    split
    · exact hbegin.trans (plays_runReady _)
    · exact hbegin.trans ((plays_settleDirect h _ _ _).trans (plays_runReady _))
    · rename_i ms outcome hms _
      let sent := ((s.put h q.beginDirect).send q.beginDirect).2
      -- The tasks run up to the instant at which the fetch settles.
      let before := sent.runReady.runTo (sent.now + ms - 1) sent.runReady.now
      let late : Schedule σ := { before with now := sent.now + ms }
      have hbefore : sent.Plays before := by
        refine (plays_runReady sent).trans (plays_runTo rfl ?_)
        rw [now_runReady]
        exact Nat.le_sub_one_of_lt (Nat.lt_add_of_pos_right (Nat.pos_of_ne_zero hms))
      have hlate : before.Plays late := by
        refine .of_wait rfl ?_
        rw [now_runTo]
        exact Nat.sub_le _ 1
      have hsettled := plays_settleDirect h q.beginDirect outcome late
      refine hbegin.trans (hbefore.trans (hlate.trans (hsettled.trans ?_)))
      exact (plays_fire (Nat.le_of_eq (now_report ..))).trans (plays_runReady _)

end Schedule

/-! ## Sessions -/

namespace Session

variable {t : Nat}

theorem registry_keepMade (s : Session) (order : Order)
    (made : Except CreationError (Handle × Registry × List Effect)) :
    (s.keepMade order made).2.registry = s.registry.outcome made := by
  simp only [keepMade]
  cases made with
  | error => rfl
  | ok result =>
    obtain ⟨h, r, effects⟩ := result
    cases order.name with
    | none =>
      simp only
      split <;> rfl
    | some name =>
      simp only
      split <;> rfl

theorem leadsTo_withOrder {s : Session} (order : Order)
    {next : Filter → QueryOptions → Answer × Session}
    (hnext : ∀ filter options, s.registry.LeadsTo t (next filter options).2.registry) :
    s.registry.LeadsTo t (s.withOrder order next).2.registry := by
  simp only [withOrder]
  split
  · exact LeadsTo.refl _
  · exact hnext _ _

theorem leadsTo_create (endpoint : Option Endpoint) (filter : Filter) (options : QueryOptions)
    (runtime : Bool) (r : Registry) :
    r.LeadsTo t (r.outcome (r.create endpoint filter options runtime)) :=
  LeadsTo.of_finishes (Registry.finishes_create endpoint filter options runtime r)

theorem leadsTo_createNamed (name : String) (filter : Filter) (options : QueryOptions)
    (runtime : Bool) (r : Registry) :
    r.LeadsTo t (r.outcome (r.createNamed name filter options runtime)) := by
  simp only [Registry.createNamed]
  split
  · exact LeadsTo.refl r
  · exact leadsTo_create _ _ _ _ _

/-- What a scope adopts has been made by the registry. -/
theorem outcome_of_adopt {made : Except CreationError (Handle × Registry × List Effect)}
    {owner owner' : Scope} {h : Handle} {r r' : Registry} {effects : List Effect}
    (hm : (match made with
        | .error e => .error e
        | .ok (h, made, effects) => .ok (h, owner.adopt h, made, effects)) =
      (.ok (h, owner', r', effects) :
        Except CreationError (Handle × Scope × Registry × List Effect))) :
    r.outcome made = r' := by
  cases made with
  | error => cases hm
  | ok result =>
    cases hm
    rfl

theorem leadsTo_teardown (s : Session) (scope : String) :
    s.registry.LeadsTo t (s.teardown scope).2.registry := by
  simp only [teardown]
  split
  · exact LeadsTo.refl _
  · exact LeadsTo.of_finishes (Registry.finishes_teardown _ s.registry)

theorem leadsTo_updateQuery (s : Session) (name : String)
    {f : Handle → Registry → Registry × List Effect}
    (hf : ∀ (h : Handle) (r : Registry), r.LeadsTo t (f h r).1) :
    s.registry.LeadsTo t (s.updateQuery name f).registry := by
  simp only [updateQuery]
  split
  · exact LeadsTo.refl _
  · exact hf _ _

theorem registry_updateWatcher (s : Session) (name : String) (f : Watcher → Watcher) :
    (s.updateWatcher name f).registry = s.registry := by
  simp only [updateWatcher]
  split <;> rfl

/-- Making a query in a scope is making it. -/
theorem leadsTo_makeIn {s : Session} {scope : String} (order : Order)
    {make : Scope → Except CreationError (Handle × Scope × Registry × List Effect)}
    (hmake : ∀ (owner owner' : Scope) (h : Handle) (r : Registry) (effects : List Effect),
      make owner = .ok (h, owner', r, effects) → s.registry.LeadsTo t r) :
    s.registry.LeadsTo t (s.makeIn scope order make).2.registry := by
  simp only [makeIn]
  split
  · exact LeadsTo.refl _
  · split
    · exact LeadsTo.refl _
    · rename_i hr
      rw [registry_keepMade]
      exact hmake _ _ _ _ _ hr

/-- Whether a step of the host lets time pass. -/
def Step.takesTime : Step → Bool
  | .fetch _ | .advance _ => true
  | _ => false

theorem leadsTo_perform (s : Session) {step : Step} (hstep : step.takesTime = false) :
    s.registry.LeadsTo t (s.perform step).2.registry := by
  cases step with
  | fetch | advance => cases hstep
  | query endpoint order =>
    refine leadsTo_withOrder order fun filter options => ?_
    rw [registry_keepMade]
    exact leadsTo_create _ _ _ _ _
  | queryNamed name order =>
    refine leadsTo_withOrder order fun filter options => ?_
    rw [registry_keepMade]
    exact leadsTo_createNamed _ _ _ _ _
  | make endpoint id order =>
    refine leadsTo_withOrder order fun filter options => ?_
    rw [registry_keepMade]
    exact LeadsTo.of_finishes (Registry.finishes_make id endpoint filter options s.runtime _)
  | start query => exact leadsTo_updateQuery s query LeadsTo.startQuery
  | stop query => exact leadsTo_updateQuery s query LeadsTo.stopQuery
  | startAll => exact LeadsTo.of_finishes (Registry.finishes_resumeAll s.registry)
  | stopAll => exact LeadsTo.of_finishes (Registry.finishes_pauseAll s.registry)
  | dispose id =>
    have hd := LeadsTo.of_finishes (t := t) (Registry.finishes_dispose id s.registry)
    simp only [perform]
    cases hr : s.registry.dispose id with
    | error => exact LeadsTo.refl _
    | ok result =>
      rw [hr] at hd
      exact hd
  | apply v => exact LeadsTo.apply v s.registry
  | scopeNew scope => exact leadsTo_teardown s scope
  | scopeQuery scope endpoint order =>
    refine leadsTo_withOrder order fun filter options => leadsTo_makeIn order ?_
    intro owner owner' h r effects hm
    exact outcome_of_adopt (r := s.registry) hm ▸ leadsTo_create _ _ _ _ _
  | scopeQueryNamed scope name order =>
    refine leadsTo_withOrder order fun filter options => leadsTo_makeIn order ?_
    intro owner owner' h r effects hm
    exact outcome_of_adopt (r := s.registry) hm ▸ leadsTo_createNamed _ _ _ _ _
  | scopeTeardown scope => exact leadsTo_teardown s scope
  | scopeDrop scope => exact leadsTo_teardown s scope
  | scopeAdopt scope query =>
    simp only [perform]
    split <;> exact LeadsTo.refl _
  | subscribe query receiver =>
    simp only [perform]
    split <;> exact LeadsTo.refl _
  | receive receiver =>
    simp only [perform]
    split
    · exact LeadsTo.refl _
    · split <;> exact LeadsTo.refl _
  | watcherSend watcher v =>
    simp only [perform]
    split
    · exact LeadsTo.refl _
    · rw [registry_updateWatcher]
      exact LeadsTo.refl _
  | watcherCancel watcher | watcherClose watcher =>
    simp only [perform, registry_updateWatcher]
    exact LeadsTo.refl _
  | info | inspect | get | scopeInfo | watcherStart | watcherDone => exact LeadsTo.refl _

/-! ### The clock of a host -/

theorem now_keepMade (s : Session) (order : Order)
    (made : Except CreationError (Handle × Registry × List Effect)) :
    (s.keepMade order made).2.schedule.now = s.schedule.now := by
  simp only [keepMade]
  cases made with
  | error => rfl
  | ok result =>
    obtain ⟨h, r, effects⟩ := result
    cases order.name <;> (simp only; split <;> rfl)

theorem now_withOrder {s : Session} (order : Order)
    {next : Filter → QueryOptions → Answer × Session}
    (hnext : ∀ filter options, (next filter options).2.schedule.now = s.schedule.now) :
    (s.withOrder order next).2.schedule.now = s.schedule.now := by
  simp only [withOrder]
  split
  · rfl
  · exact hnext _ _

theorem now_makeIn (s : Session) (scope : String) (order : Order)
    (make : Scope → Except CreationError (Handle × Scope × Registry × List Effect)) :
    (s.makeIn scope order make).2.schedule.now = s.schedule.now := by
  simp only [makeIn]
  split
  · rfl
  · split
    · rfl
    · exact now_keepMade ..

theorem now_teardown (s : Session) (scope : String) :
    (s.teardown scope).2.schedule.now = s.schedule.now := by
  simp only [teardown]
  split <;> rfl

theorem now_perform (s : Session) {step : Step} (hstep : step.takesTime = false) :
    (s.perform step).2.schedule.now = s.schedule.now := by
  cases step with
  | fetch | advance => cases hstep
  | query | queryNamed | make => exact now_withOrder _ fun _ _ => now_keepMade ..
  | scopeQuery | scopeQueryNamed => exact now_withOrder _ fun _ _ => now_makeIn ..
  | scopeNew scope | scopeTeardown scope | scopeDrop scope => exact now_teardown s scope
  | start | stop =>
    simp only [perform, updateQuery]
    split <;> rfl
  | watcherCancel | watcherClose =>
    simp only [perform, updateWatcher]
    split <;> rfl
  | watcherSend =>
    simp only [perform, updateWatcher]
    split
    · rfl
    · split <;> rfl
  | receive =>
    simp only [perform]
    split
    · rfl
    · split <;> rfl
  | dispose | scopeAdopt | subscribe =>
    simp only [perform]
    split <;> rfl
  | info | inspect | get | scopeInfo | watcherStart | watcherDone | startAll | stopAll | apply =>
    rfl

theorem plays_perform (s : Session) (step : Step) :
    s.schedule.Plays (s.perform step).2.schedule := by
  cases hstep : step.takesTime with
  | false => exact .of_leadsTo (leadsTo_perform s hstep) (now_perform s hstep)
  | true =>
    cases step with
    | advance ms => exact Schedule.plays_advance ms s.schedule
    | fetch query =>
      simp only [perform]
      split
      · exact .refl _
      · exact Schedule.plays_fetch _ _
    | _ => cases hstep

/-- A host after any script, and its clock, are those of a world with a clock that began with
nothing. -/
theorem exists_clocked_run {baseUrl : String} {delayMs : Nat} {otherwise : Prepared}
    {byPath : List (String × List Prepared)} {runtime : Bool} {steps : List Step}
    {answer : Answer} {s : Session}
    (hs : (answer, s) ∈ (start baseUrl delayMs otherwise byPath runtime).run steps) :
    ∃ ss, ((Clocked.start (Client.ofUrl baseUrl)).run ss).world.registry = s.registry ∧
      ((Clocked.start (Client.ofUrl baseUrl)).run ss).now = s.schedule.now := by
  suffices ∀ s₀ : Session, (answer, s) ∈ s₀.run steps → s₀.schedule.Plays s.schedule from
    this _ hs (Clocked.start (Client.ofUrl baseUrl)) rfl rfl
  clear hs
  induction steps with
  | nil => intro s₀ h; cases h
  | cons step steps ih =>
    intro s₀ h
    simp only [run] at h
    have hfirst : s₀.schedule.Plays (s₀.forget.perform step).2.schedule :=
      plays_perform s₀.forget step
    rcases List.mem_cons.mp h with h | h
    · cases h
      exact hfirst
    · exact hfirst.trans (ih _ h)

/-- The registry of a host after any script is that of a world that began with nothing. -/
theorem exists_run {baseUrl : String} {delayMs : Nat} {otherwise : Prepared}
    {byPath : List (String × List Prepared)} {runtime : Bool} {steps : List Step}
    {answer : Answer} {s : Session}
    (hs : (answer, s) ∈ (start baseUrl delayMs otherwise byPath runtime).run steps) :
    ∃ ss, ((World.start (Client.ofUrl baseUrl)).run ss).registry = s.registry := by
  obtain ⟨ss, hss, -⟩ := exists_clocked_run hs
  rw [Clocked.world_run] at hss
  exact ⟨_, hss⟩

/-- Whatever the script, the timer of a query of a host names its only loop that goes on. -/
theorem wellTimed {baseUrl : String} {delayMs : Nat} {otherwise : Prepared}
    {byPath : List (String × List Prepared)} {runtime : Bool} {steps : List Step}
    {answer : Answer} {s : Session}
    (hs : (answer, s) ∈ (start baseUrl delayMs otherwise byPath runtime).run steps) {h : Handle}
    {q : Query} (hq : s.at? h = some q) : q.WellTimed := by
  obtain ⟨ss, hss⟩ := exists_run hs
  have hw : ((World.start (Client.ofUrl baseUrl)).run ss).query? h = some q := by
    rw [World.query?, hss]
    exact hq
  exact World.wellTimed hw

end Session
end LiveQuery
