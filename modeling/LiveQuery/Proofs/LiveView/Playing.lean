import LiveQuery.Program.Stage
import LiveQuery.Proofs.LiveView.Scene
import LiveQuery.Proofs.Registry.Playing

/-!
# Views that are played

A view that runs picks one order in which things happen. Each thing that it does, and each turn of
its schedule, is a list of steps of a scene, so that whatever a stage plays is a scene
(`Stage.exists_run_playFrom`), and what holds in all scenes holds of the view that runs.
-/

namespace LiveQuery

/-! ## Tasks and watchers -/

namespace Schedule

variable {σ : Type}

theorem watchers_settle (t : Task) (q : Query) (outcome : Outcome) (d : Schedule σ) :
    (d.settle t q outcome).watchers = d.watchers := by
  cases t with
  | first h =>
    simp only [settle, settleDirect, report]
    split <;> rfl
  | loop h i =>
    simp only [settle, settleLoop, report]
    split <;> split <;> rfl

theorem watchers_dispatch (t : Task) (q : Query) (d : Schedule σ) :
    (d.dispatch t q).watchers = d.watchers := by
  simp only [dispatch]
  split
  · rw [watchers_settle]
    rfl
  · rfl
  · rfl

theorem watchers_runTask (t : Task) (outcome : Option Outcome) (d : Schedule σ) :
    (d.runTask t outcome).watchers = d.watchers := by
  simp only [runTask]
  split
  · rfl
  · exact watchers_settle ..
  · split
    · exact watchers_dispatch ..
    · split
      · exact watchers_dispatch ..
      · rfl

end Schedule

/-! ## Steps of a watcher in a scene -/

namespace Scene

variable {c : Settings} {o : ViewOrder} {s : Scene}

/-- The world with the watcher of a scene. -/
def watched (w : Watch) (s : Scene) : Watched := ⟨s.world, w.watcher, w.call⟩

/-- The scene with another world and another watcher. -/
def withWatched (w : Watched) (s : Scene) : Scene :=
  { s with world := w.world, watch := some ⟨w.watcher, w.call⟩ }

/-- What the task of the watcher does it does in the scene. -/
theorem exists_step_of_isTurn {w : Watch} (hw : s.watch = some w) {e : Watched.Step}
    (he : e.isTurn = true) : ∃ e', s.step c o e' = s.withWatched ((s.watched w).step e) := by
  cases e with
  | begin_ => exact ⟨.begin_, by simp only [step, onWatch, hw]; rfl⟩
  | observe => exact ⟨.observe, by simp only [step, onWatch, hw]; rfl⟩
  | world t =>
    cases t with
    | part k =>
      refine ⟨.part k, ?_⟩
      simp only [step, withWatched, watched, Watched.step, ← hw]
    | move | call | rearrange => cases he
  | send | close | cancel | abort => cases he

theorem exists_run_of_isTurn {w : Watch} (hw : s.watch = some w) {es : List Watched.Step}
    (hes : ∀ e ∈ es, e.isTurn = true) :
    ∃ es', s.run c o es' = s.withWatched ((s.watched w).run es) := by
  induction es generalizing s w with
  | nil => exact ⟨[], by simp only [run_nil, withWatched, watched, Watched.run_nil, ← hw]⟩
  | cons e es ih =>
    obtain ⟨e', he'⟩ := exists_step_of_isTurn (c := c) (o := o) hw (hes e (List.mem_cons_self ..))
    obtain ⟨es', hes'⟩ := ih (s := s.step c o e') (w := ⟨_, _⟩) (by rw [he']; rfl)
      fun e he => hes e (List.mem_cons_of_mem _ he)
    refine ⟨e' :: es', ?_⟩
    rw [run_cons, hes', he']
    rfl

/-- The turns of tasks are steps of the scene. -/
theorem exists_run_of_turns {t : Nat} {r r' : Registry} (ht : r.Turns t r') (hr : s.world.registry = r) :
    ∃ es, s.run c o es = { s with world := { s.world with registry := r' } } := by
  induction ht generalizing s with
  | refl => exact ⟨[], by rw [← hr]; rfl⟩
  | @move r r' h q m hq hm _ ih =>
    have hstep : s.step c o (.task h m) =
        { s with world := { s.world with registry := r.put h (q.move m) } } := by
      simp only [step, hm.1, World.step, hr, Registry.amend_of_some hq]
      rfl
    obtain ⟨es, hes⟩ := ih (s := s.step c o (.task h m)) (by rw [hstep])
    refine ⟨.task h m :: es, ?_⟩
    rw [run_cons, hes, hstep]

/-! ## Schedules -/

variable {σ : Type}

/-- A schedule is the world of a scene and its watcher, whose last action has come to its end. -/
structure Tracks (s : Scene) (d : Schedule σ) : Prop where
  registry : s.world.registry = d.registry
  watchers : d.watchers = (s.watch.map Watch.watcher).toList
  idle : ∀ w, s.watch = some w → (s.watched w).isIdle = true

/-- What has happened beside a view leaves it where it is. -/
structure Alongside (s s' : Scene) : Prop where
  phase : s'.phase = s.phase
  report : s'.report = s.report
  watch : s'.watch.isSome = s.watch.isSome

theorem Alongside.refl (s : Scene) : s.Alongside s := ⟨rfl, rfl, rfl⟩

theorem Alongside.trans {s' s'' : Scene} (h : s.Alongside s') (h' : s'.Alongside s'') :
    s.Alongside s'' :=
  ⟨h'.phase.trans h.phase, h'.report.trans h.report, h'.watch.trans h.watch⟩

theorem Tracks.runTask {d : Schedule σ} (h : s.Tracks d) (t : Task) (outcome : Option Outcome) :
    ∃ es, (s.run c o es).Tracks (d.runTask t outcome) ∧ s.Alongside (s.run c o es) := by
  obtain ⟨es, hes⟩ :=
    exists_run_of_turns (c := c) (o := o) (d.turns_runTask t outcome) h.registry
  refine ⟨es, ?_, ?_⟩ <;> rw [hes]
  · exact ⟨rfl, by rw [Schedule.watchers_runTask, h.watchers], h.idle⟩
  · exact ⟨rfl, rfl, rfl⟩

theorem Tracks.runWatcher {d : Schedule σ} (h : s.Tracks d) (k : Nat) :
    ∃ es, (s.run c o es).Tracks (d.runWatcher k) ∧ s.Alongside (s.run c o es) := by
  cases hk : d.watchers[k]? with
  | none =>
    simp only [Schedule.runWatcher, hk]
    exact ⟨[], h, .refl s⟩
  | some watcher =>
    have hwatchers := h.watchers
    cases hw : s.watch with
    | none => simp [hwatchers, hw] at hk
    | some w =>
      rw [hw] at hwatchers
      obtain ⟨rfl, rfl⟩ : k = 0 ∧ watcher = w.watcher := by
        rw [hwatchers] at hk
        cases k with
        | zero => exact ⟨rfl, (Option.some.inj hk).symm⟩
        | succ k => cases hk
      obtain ⟨turn, hturn, hidle, hwatcher, hregistry⟩ := Watched.exists_turn (h.idle w hw)
      obtain ⟨es, hes⟩ := exists_run_of_isTurn (c := c) (o := o) hw hturn
      simp only [watched, h.registry] at hwatcher hregistry
      refine ⟨es, ?_, ?_⟩ <;> rw [hes]
      · simp only [Schedule.runWatcher, hk]
        refine ⟨hregistry, ?_, ?_⟩
        · simp [Schedule.absorb, withWatched, watched, hwatchers, hwatcher]
        · intro w' hw'
          cases hw'
          exact hidle
      · exact ⟨rfl, rfl, by rw [hw]; rfl⟩

theorem Tracks.run {d : Schedule σ} (h : s.Tracks d) (turn : Turn) :
    ∃ es, (s.run c o es).Tracks (d.run turn) ∧ s.Alongside (s.run c o es) := by
  cases turn with
  | task t outcome => exact h.runTask t outcome
  | watcher k => exact h.runWatcher k

/-- When everybody who is ready has had a turn, the scene has gone on by so many steps. -/
theorem Tracks.runReady {d : Schedule σ} (h : s.Tracks d) :
    ∃ es, (s.run c o es).Tracks d.runReady ∧ s.Alongside (s.run c o es) := by
  induction d using Schedule.runReady.induct generalizing s with
  | case1 d hd =>
    rw [Schedule.runReady, hd]
    exact ⟨[], h, .refl s⟩
  | case2 d turn rest hd ih =>
    rw [Schedule.runReady, hd]
    have hrest : s.Tracks { d with ready := rest } := ⟨h.registry, h.watchers, h.idle⟩
    obtain ⟨es, htracks, halong⟩ := hrest.run (c := c) (o := o) turn
    obtain ⟨es', htracks', halong'⟩ := ih htracks
    refine ⟨es ++ es', ?_, ?_⟩ <;> rw [run_append]
    · exact htracks'
    · exact halong.trans halong'

end Scene

/-! ## Views -/

namespace LiveView

variable {σ : Type} {c : Settings} {o : ViewOrder} {v : LiveView σ} {s : Scene}

/-- A view that goes on is a scene. -/
structure Shows (c : Settings) (o : ViewOrder) (v : LiveView σ) (s : Scene) : Prop where
  tracks : s.Tracks v.schedule
  handle : v.handle = 0
  polls : v.polls = o.polls c
  report : s.report = v.report
  phase : s.phase = .looking
  watcher : v.watcher = s.watch.map fun _ => 0

/-- A view that has ended is a scene in which it has returned. -/
structure Ends (result : Except CommandError Nat) (v : LiveView σ) (s : Scene) : Prop where
  phase : s.phase = .returned result
  registry : s.world.registry = v.schedule.registry
  report : s.report = v.report

/-- A view opens by the step in which it makes its query. -/
theorem shows_start (transport : Transport σ) (wire : σ) (epoch : Timestamp) :
    match start transport wire epoch c o with
    | .error e => ((Scene.start c o).step c o .make).phase = .returned (.error e)
    | .ok v => v.Shows c o ((Scene.start c o).step c o .make) := by
  have hmake : (Scene.start c o).step c o .make = (Scene.start c o).make c o := rfl
  rw [hmake]
  cases hf : o.flags.filter? with
  | error e =>
    simp only [start, Scene.make, hf, Except.mapError, bind, Except.bind]
    rfl
  | ok filter =>
    have hscene : (Scene.start c o).world.registry.create (some o.endpoint) filter (o.options c)
        true = (Registry.empty (.ofUrl c.api.baseUrl)).create (some o.endpoint) filter
          (o.options c) true := rfl
    have hschedule : (Schedule.start transport wire epoch (.ofUrl c.api.baseUrl)).registry.create
        (some o.endpoint) filter ⟨o.intervalMs.getD c.polling.defaultIntervalMs⟩ true =
          (Registry.empty (.ofUrl c.api.baseUrl)).create (some o.endpoint) filter
            (o.options c) true := rfl
    cases hc : (Registry.empty (.ofUrl c.api.baseUrl)).create (some o.endpoint) filter
        (o.options c) true with
    | error e =>
      simp only [start, Scene.make, hf, hscene, hschedule, hc, Except.mapError, bind, Except.bind]
      rfl
    | ok made =>
      obtain ⟨h, r, effects⟩ := made
      obtain ⟨rfl, -⟩ := Registry.create_empty hc
      simp only [start, Scene.make, hf, hscene, hschedule, hc, Except.mapError, bind, Except.bind,
        pure, Except.pure]
      cases o.visibility with
      | none => exact ⟨⟨rfl, rfl, by simp⟩, rfl, rfl, rfl, rfl, rfl⟩
      | some visibility =>
        refine ⟨⟨rfl, rfl, ?_⟩, rfl, rfl, rfl, rfl, rfl⟩
        intro w hw
        cases hw
        rfl

theorem registry_endWatcher (v : LiveView σ) :
    v.endWatcher.schedule.registry = v.schedule.registry := by
  simp only [endWatcher]
  split <;> rfl

theorem report_endWatcher (v : LiveView σ) : v.endWatcher.report = v.report := by
  simp only [endWatcher]
  split <;> rfl

theorem close_of_disposeQuery {v' : LiveView σ} (h : v.disposeQuery = .ok v') :
    v.close = (.ok v'.report.count, v'.endWatcher) := by
  simp only [close, h]

/-- A view that ends its watcher last has returned as the scene has. -/
theorem ends_returnOk (hr : s.world.registry = v.schedule.registry)
    (hreport : s.report = v.report) :
    v.endWatcher.Ends (.ok v.report.count) s.returnOk where
  phase := by rw [Scene.phase_returnOk, hreport]
  registry := by rw [Scene.world_returnOk, registry_endWatcher, hr]
  report := by rw [Scene.report_returnOk, report_endWatcher, hreport]

/-- A view whose query is on the register ends by the two steps in which the query is stopped and the
view finds that it has been. -/
theorem exists_run_dispose (hr : s.world.registry = v.schedule.registry) (hp : v.polls = true)
    (hreport : s.report = v.report) (ho : o.polls c = true) {q : Query} (hv : v.query? = some q)
    (hq : s.world.query? 0 = some q) {h : Handle} (hget : s.world.registry.get? q.id = some h) :
    ∃ es, v.close.2.Ends v.close.1 ((s.close c o).run c o es) := by
  obtain ⟨hregistry, hdone⟩ := World.beginDispose_alone hget
  let after := ((s.world.registry.remove q.id).stopQuery h).1
  obtain ⟨effects, hdispose⟩ : ∃ effects, v.disposeQuery =
      .ok { v with schedule := v.schedule.absorb after effects } := by
    simp only [disposeQuery, hp, hv, Registry.dispose, ← hr, hget, Bool.not_true,
      Bool.false_eq_true, if_false]
    exact ⟨_, rfl⟩
  let disposing := s.close c o
  have hclose : disposing = _ := Scene.close_of_polls ho hq hget
  let stopped := disposing.step c o (.part s.world.calls.length)
  have hstopped : stopped.step c o .finish = stopped.returnOk := by
    simp [stopped, hclose, Scene.step, Scene.isDone, hdone]
  refine ⟨[.part s.world.calls.length, .finish], ?_⟩
  rw [Scene.run_cons, Scene.run_cons, Scene.run_nil, close_of_disposeQuery hdispose]
  change Ends _ _ (stopped.step c o .finish)
  rw [hstopped]
  refine ends_returnOk (v := { v with schedule := v.schedule.absorb after effects }) ?_ ?_
  · simp only [stopped, hclose, Scene.step, hregistry]
    rfl
  · simp only [stopped, hclose, Scene.step]
    exact hreport

/-- A view that ends goes on by the steps in which its query is disposed of, whatever its watcher has
been told. -/
theorem exists_run_close (hr : s.world.registry = v.schedule.registry) (hh : v.handle = 0)
    (hp : v.polls = o.polls c) (hreport : s.report = v.report) :
    ∃ es, v.close.2.Ends v.close.1 ((s.close c o).run c o es) := by
  have hquery : v.query? = s.world.query? 0 := by
    rw [query?, hh, ← hr, World.query?]
  cases ho : o.polls c with
  | false =>
    have hdispose : v.disposeQuery = .ok v := by simp [disposeQuery, hp, ho]
    rw [close_of_disposeQuery hdispose, Scene.close_of_not_polls ho]
    exact ⟨[], ends_returnOk hr hreport⟩
  | true =>
    cases hq : s.world.query? 0 with
    | none =>
      have hdispose : v.disposeQuery = .ok v := by simp [disposeQuery, hp, ho, hquery, hq]
      have hclose : s.close c o = s.returnOk := by simp [Scene.close, ho, hq]
      rw [close_of_disposeQuery hdispose, hclose]
      exact ⟨[], ends_returnOk hr hreport⟩
    | some q =>
      cases hget : s.world.registry.get? q.id with
      | none =>
        have hdispose : v.disposeQuery = .error (.registry (.notFound q.id)) := by
          simp [disposeQuery, hp, ho, hquery, hq, Registry.dispose, ← hr, hget]
        have hclose : s.close c o = s.fail (.registry (.notFound q.id)) := by
          simp [Scene.close, ho, hq, hget]
        refine ⟨[], ?_⟩
        simp only [LiveView.close, hdispose, Scene.run_nil, hclose]
        exact ⟨rfl, hr, hreport⟩
      | some h => exact exists_run_dispose hr (hp.trans ho) hreport ho (hquery.trans hq) hq hget

theorem Shows.snapshot_eq (h : v.Shows c o s) : s.snapshot = v.snapshot := by
  rw [Scene.snapshot, snapshot, query?, h.handle, ← h.tracks.registry, World.query?]

/-- A line that has been written is in both reports. -/
theorem Shows.add (h : v.Shows c o s) :
    ({ v with report := v.report.add v.snapshot } : LiveView σ).Shows c o
      { s with report := s.report.add s.snapshot } := by
  refine ⟨⟨h.tracks.registry, h.tracks.watchers, h.tracks.idle⟩, h.handle, h.polls, ?_, h.phase,
    h.watcher⟩
  simp only [h.report, h.snapshot_eq]

/-- A look of a view is the step in which it looks; if it ends by that, the query is disposed of. -/
theorem Shows.look (h : v.Shows c o s) (write : String → Except String Unit) :
    match v.look write with
    | .going v' => v'.Shows c o (s.step c o (.look (write (v.report.line v.snapshot))))
    | .ended result v' =>
      ∃ es, v'.Ends result (s.run c o (.look (write (v.report.line v.snapshot)) :: es)) := by
  have hstep : ∀ written, s.step c o (.look written) = s.look c o written := by
    intro written
    simp only [Scene.step, h.phase]
  simp only [Scene.run_cons, hstep]
  by_cases hwants : v.report.wants v.snapshot = true
  · cases hwrite : write (v.report.line v.snapshot) with
    | error why =>
      simp only [LiveView.look, Scene.look, h.report, h.snapshot_eq, hwants, hwrite, Bool.not_true,
        Bool.false_eq_true, if_false]
      exact ⟨[], rfl, h.tracks.registry, h.report⟩
    | ok =>
      let s' : Scene := { s with report := s.report.add s.snapshot }
      let v' : LiveView σ := { v with report := v.report.add v.snapshot }
      have h' : v'.Shows c o s' := h.add
      have hends : (!o.polls c || s'.report.isComplete) = (!v'.polls || v'.report.isComplete) := by
        rw [h'.polls, h'.report]
      have hscene : s.look c o (.ok ()) =
          if !v'.polls || v'.report.isComplete then s'.close c o else s' := by
        simp only [Scene.look, h.report, h.snapshot_eq, hwants, Bool.not_true, Bool.false_eq_true,
          if_false, ← hends]
        simp only [s', h.report, h.snapshot_eq]
      have hview : v.look write =
          if !v'.polls || v'.report.isComplete then .ended v'.close.1 v'.close.2
          else .going v' := by
        simp only [LiveView.look, hwants, hwrite, Bool.not_true, Bool.false_eq_true, if_false]
        rfl
      rw [hview, hscene]
      by_cases hlast : (!v'.polls || v'.report.isComplete) = true
      · rw [if_pos hlast, if_pos hlast]
        exact exists_run_close h'.tracks.registry h'.handle h'.polls h'.report
      · rw [if_neg hlast, if_neg hlast]
        exact h'
  · simp only [LiveView.look, Scene.look, h.report, h.snapshot_eq, hwants, Bool.not_false, if_true]
    exact h

/-- What the host tells a view goes to its watcher. -/
theorem Shows.see (h : v.Shows c o s) (visibility : Visibility) :
    (v.see visibility).Shows c o (s.step c o (.send visibility)) := by
  cases hw : s.watch with
  | none =>
    have hsee : v.see visibility = v := by simp [LiveView.see, h.watcher, hw]
    have hstep : s.step c o (.send visibility) = s := by
      simp only [Scene.step, Scene.onWatch_of_none hw]
    rw [hsee, hstep]
    exact h
  | some w =>
    have hwatchers := h.tracks.watchers
    rw [hw] at hwatchers
    have hstep : s.step c o (.send visibility) =
        { s with watch := some ⟨(w.watcher.send visibility).1, w.call⟩ } := by
      simp only [Scene.step, Scene.onWatch, hw, Watched.step]
    have hsee : v.see visibility = { v with
        schedule := v.schedule.withWatcher 0 fun watcher => (watcher.send visibility).1 } := by
      simp [LiveView.see, h.watcher, hw]
    rw [hsee, hstep]
    refine ⟨⟨h.tracks.registry, ?_, ?_⟩, h.handle, h.polls, h.report, h.phase, ?_⟩
    · simp [Schedule.withWatcher, hwatchers]
    · intro w' hw'
      cases hw'
      exact h.tracks.idle w hw
    · simp [h.watcher, hw]

/-- A view that is told to end does so. -/
theorem Shows.cancel (h : v.Shows c o s) : ∃ es, v.close.2.Ends v.close.1 (s.run c o es) := by
  let told := s.step c o .cancel
  have hphase : told.phase = .looking := by
    simp only [told, Scene.step, Scene.phase_onWatch, h.phase]
  have hreport : told.report = v.report := by
    simp only [told, Scene.step, Scene.report_onWatch, h.report]
  have hregistry : told.world.registry = v.schedule.registry := by
    rw [← h.tracks.registry]
    cases hw : s.watch <;> simp [told, Scene.step, Scene.onWatch, hw, Watched.step]
  have hleave : told.step c o .leave = told.close c o := by
    have hcancelled : told.cancelled = true := rfl
    simp only [Scene.step, hphase, hcancelled, if_true]
  obtain ⟨es, hends⟩ := exists_run_close hregistry h.handle h.polls hreport
  refine ⟨.cancel :: .leave :: es, ?_⟩
  rw [Scene.run_cons, Scene.run_cons]
  change Ends _ _ ((told.step c o .leave).run c o es)
  rw [hleave]
  exact hends

/-- When everybody who is ready has had a turn, a view has gone on by so many steps. -/
theorem Shows.settle (h : v.Shows c o s) : ∃ es, v.settle.Shows c o (s.run c o es) := by
  obtain ⟨es, htracks, halong⟩ := h.tracks.runReady (c := c) (o := o)
  refine ⟨es, htracks, h.handle, h.polls, halong.report.trans h.report,
    halong.phase.trans h.phase, ?_⟩
  have hsome := halong.watch
  have hwatcher : v.settle.watcher = s.watch.map fun _ => 0 := h.watcher
  rw [hwatcher]
  cases hw : s.watch <;> cases hw' : (s.run c o es).watch <;> simp [hw, hw'] at hsome ⊢

end LiveView

/-! ## The stage -/

namespace Stage

open LiveView (Shows Ends)

variable {c : Settings} {o : ViewOrder} {v : LiveView Http.ScriptedServer} {s : Scene}

/-- What the clock and the server do to a schedule between the turns is no step of a scene. -/
theorem shows_schedule (h : v.Shows c o s) {d : Schedule Http.ScriptedServer}
    (hr : d.registry = v.schedule.registry) (hw : d.watchers = v.schedule.watchers) :
    ({ v with schedule := d } : LiveView _).Shows c o s :=
  ⟨⟨h.tracks.registry.trans hr.symm, hw.trans h.tracks.watchers, h.tracks.idle⟩, h.handle, h.polls,
    h.report, h.phase, h.watcher⟩

/-- A view that has its turns and then looks goes on or ends as a scene does. -/
theorem exists_run_look (h : v.Shows c o s) (write : String → Except String Unit) :
    ∃ es, match v.settle.look write with
      | .going v' => v'.Shows c o (s.run c o es)
      | .ended result v' => v'.Ends result (s.run c o es) := by
  obtain ⟨es, hsettle⟩ := h.settle
  have hlook := hsettle.look write
  cases hv : v.settle.look write with
  | going v' =>
    rw [hv] at hlook
    refine ⟨es ++ [.look (write (v.settle.report.line v.settle.snapshot))], ?_⟩
    rw [Scene.run_append]
    exact hlook
  | ended result v' =>
    rw [hv] at hlook
    obtain ⟨es', hends⟩ := hlook
    refine ⟨es ++ .look (write (v.settle.report.line v.settle.snapshot)) :: es', ?_⟩
    rw [Scene.run_append]
    exact hends

/-- What has come of a view that was played: it has ended, or it goes on. -/
def Comes (c : Settings) (o : ViewOrder)
    (ending : CommandEnd Nat × LiveView Http.ScriptedServer) (s : Scene) : Prop :=
  match ending.1 with
  | .result result => ending.2.Ends result s
  | .killed _ | .waiting => ending.2.Shows c o s

/-- What comes of a view that is played comes of a scene. -/
theorem exists_run_playView (h : v.Shows c o s) (events : Nat) (pending : Signals) :
    ∃ es, Comes c o (playView events v pending) (s.run c o es) := by
  induction events generalizing v s pending with
  | zero =>
    obtain ⟨es, hlook⟩ := exists_run_look h writeAny
    refine ⟨es, ?_⟩
    rw [playView]
    cases hv : v.settle.look writeAny with
    | ended | going =>
      rw [hv] at hlook
      exact hlook
  | succ events ih =>
    obtain ⟨es, hlook⟩ := exists_run_look h writeAny
    rw [playView]
    cases hv : v.settle.look writeAny with
    | ended =>
      rw [hv] at hlook
      exact ⟨es, hlook⟩
    | going v₁ =>
      rw [hv] at hlook
      -- what is played from here on follows the steps so far
      suffices hrest : ∃ es', Comes c o _ ((s.run c o es).run c o es') by
        obtain ⟨es', hends⟩ := hrest
        exact ⟨es ++ es', by rwa [Scene.run_append]⟩
      rcases hcollect : collect v₁.schedule pending with ⟨schedule, rest⟩
      have hfst : schedule = (collect v₁.schedule pending).1 := by rw [hcollect]
      have h₂ : Shows c o { v₁ with schedule } (s.run c o es) :=
        shows_schedule hlook (hfst ▸ rfl) (hfst ▸ rfl)
      simp only [hcollect]
      cases next? schedule rest with
      | none => exact ⟨[], h₂⟩
      | some event =>
        cases event with
        | timers due => exact ih (shows_schedule (d := schedule.fire due) h₂ rfl rfl) rest
        | signal t signal =>
          have h₃ : (atTime t { v₁ with schedule }).Shows c o (s.run c o es) :=
            shows_schedule h₂ rfl rfl
          simp only
          cases (atTime t { v₁ with schedule }).reaction signal with
          | killed => exact ⟨[], h₃⟩
          | see visibility =>
            obtain ⟨es', hends⟩ := ih (h₃.see visibility) rest.tail
            exact ⟨.send visibility :: es', hends⟩
          | close => exact h₃.cancel

/-- Whatever a stage plays is a scene: a view that does not open is one that returns when it is to
make its query, and what comes of a view that opens comes of the scene. -/
theorem exists_run_playFrom (server : Http.ScriptedServer) (closed : Bool) :
    ∃ es, match LiveView.start (transport c) server epoch c o with
      | .error e => ((Scene.start c o).run c o es).phase = .returned (.error e)
      | .ok v => Comes c o (playFrom v closed) ((Scene.start c o).run c o es) := by
  have hstart := LiveView.shows_start (c := c) (o := o) (transport c) server epoch
  cases hv : LiveView.start (transport c) server epoch c o with
  | error e =>
    rw [hv] at hstart
    exact ⟨[.make], hstart⟩
  | ok v =>
    rw [hv] at hstart
    have hcomes : ∃ es, Comes c o (playFrom v closed)
        (((Scene.start c o).step c o .make).run c o es) := by
      cases closed with
      | true => exact hstart.cancel
      | false => exact exists_run_playView hstart _ []
    obtain ⟨es, hcomes⟩ := hcomes
    exact ⟨.make :: es, hcomes⟩

end Stage
end LiveQuery
