import LiveQuery.LiveView.Basic
import LiveQuery.Proofs.Registry.Revival

/-!
# Scenes

A live view together with all that runs beside it: its query, its watcher and what the watcher does
to the register. The view itself is a task among others. It makes its query, looks at it and writes
a line for what is new, and at its end takes the query off the register, waits until it has been
stopped and ends its watcher. Between any two of these steps the tasks of the query have turns, the
host sends visibilities, the watcher looks about, a call of it goes on, or the view is told to end.
A write may fail, and then the view returns where it is.

Every schedule is a list of steps, and `Scene.run` plays it. The register is the view's own: nobody
else calls it, and nobody else holds the query. `Scene.goes_step` says once what a step can do.
-/

namespace LiveQuery

/-- How often the query of a view asks. -/
def ViewOrder.options (c : Settings) (o : ViewOrder) : QueryOptions :=
  ⟨o.intervalMs.getD c.polling.defaultIntervalMs⟩

/-- Whether the query of a view polls; if not, it is reported once. -/
def ViewOrder.polls (c : Settings) (o : ViewOrder) : Bool := (o.options c).isPolling

/-- The watcher of a view, and the call which its last action is. -/
structure Watch where
  watcher : Watcher
  call : Option Nat

/-- Where a view is. -/
inductive ViewPhase where
  /-- It has not made its query yet. -/
  | making
  | looking
  /-- It has taken its query off the register, and the call at this place is to stop it. -/
  | disposing (k : Nat)
  | returned (result : Except CommandError Nat)

/-- Whether a view has returned. -/
def ViewPhase.isReturned : ViewPhase → Bool
  | returned _ => true
  | _ => false

/-- A view and what runs beside it. Its query is the first one of the world. -/
structure Scene where
  world : World
  watch : Option Watch
  /-- The view has been told to end. -/
  cancelled : Bool
  report : Report
  phase : ViewPhase

namespace Scene

/-- What happens in one piece. -/
inductive Step where
  /-- A task of a query has a turn. -/
  | task (h : Handle) (m : Move)
  /-- A call under way goes on. -/
  | part (k : Nat)
  | rearrange (entries : List (Nat × Handle))
  /-- The host tells its visibility. -/
  | send (v : Visibility)
  /-- The host drops its end of the channel. -/
  | hangUp
  /-- The task of the watcher has its first turn. -/
  | begin_
  /-- The task of the watcher looks about. -/
  | observe
  /-- The view is told to end, and its watcher with it. -/
  | cancel
  /-- The view makes its query and starts its watcher. -/
  | make
  /-- The view looks at its query, and writes a line if there is something new. -/
  | look (write : Except String Unit)
  /-- The view finds that it is to end. -/
  | leave
  /-- The query has been disposed of, and the view returns. -/
  | finish

/-- What the query knows. -/
def snapshot (s : Scene) : Snapshot := ((s.world.query? 0).map Query.snapshot).getD .blank

/-- The call which the last action of the watcher is. -/
def action? (s : Scene) : Option Nat := s.watch.bind Watch.call

/-- The view returns with an error, and leaves everything as it is. -/
def fail (e : CommandError) (s : Scene) : Scene := { s with phase := .returned (.error e) }

/-- Something happens to the watcher, if there is one. -/
def onWatch (e : Watched.Step) (s : Scene) : Scene :=
  match s.watch with
  | none => s
  | some ⟨watcher, call⟩ =>
    let after := Watched.step e ⟨s.world, watcher, call⟩
    { s with world := after.world, watch := some ⟨after.watcher, after.call⟩ }

/-- The view returns, its watcher ended. -/
def returnOk (s : Scene) : Scene :=
  { s.onWatch .abort with phase := .returned (.ok s.report.count) }

/-- Whether a call has come to its end. -/
def isDone (k : Nat) (s : Scene) : Bool := s.world.calls[k]?.all fun c => c.todo.isEmpty

section

variable (c : Settings) (o : ViewOrder)

/-- Nothing has been done yet. -/
def start : Scene :=
  ⟨.start (.ofUrl c.api.baseUrl), none, false, .blank o.style o.limit, .making⟩

/-- The view makes its query and starts its watcher. Nobody else holds the register yet, so that
this is one step. -/
def make (s : Scene) : Scene :=
  match o.flags.filter? with
  | .error e => s.fail (.filter e)
  | .ok filter =>
    match s.world.registry.create (some o.endpoint) filter (o.options c) true with
    | .error e => s.fail (.creation e)
    | .ok (_, registry, _) =>
      { s with
        world := { s.world with registry }
        watch := o.visibility.map fun v => ⟨{ Watcher.start v with cancelled := s.cancelled }, none⟩
        phase := .looking }

/-- The view ends: it takes a query that polls off the register, and otherwise returns at once. -/
def close (s : Scene) : Scene :=
  if !o.polls c then s.returnOk
  else
    match s.world.query? 0 with
    | none => s.returnOk
    | some q =>
      match s.world.registry.get? q.id with
      | none => s.fail (.registry (.notFound q.id))
      | some _ =>
        { s with
          world := s.world.beginDispose q.id
          phase := .disposing s.world.calls.length }

/-- The view looks at its query. -/
def look (write : Except String Unit) (s : Scene) : Scene :=
  if !s.report.wants s.snapshot then s
  else
    match write with
    | .error why => s.fail (.output why)
    | .ok () =>
      let s := { s with report := s.report.add s.snapshot }
      if !o.polls c || s.report.isComplete then s.close c o else s

/-- The scene after a step. A step of the view that is not its next one changes nothing, and nobody
but a call starts or stops a query. -/
def step (e : Step) (s : Scene) : Scene :=
  match e with
  | .task h m => if m.swaps then s else { s with world := s.world.step (.move h m) }
  | .part k => { s with world := s.world.step (.part k) }
  | .rearrange entries => { s with world := s.world.step (.rearrange entries) }
  | .send v => s.onWatch (.send v)
  | .hangUp => s.onWatch .close
  | .begin_ => s.onWatch .begin_
  | .observe => s.onWatch .observe
  | .cancel => { s.onWatch .cancel with cancelled := true }
  | .make =>
    match s.phase with
    | .making => s.make c o
    | _ => s
  | .look write =>
    match s.phase with
    | .looking => s.look c o write
    | _ => s
  | .leave =>
    match s.phase with
    | .looking => if s.cancelled then s.close c o else s
    | _ => s
  | .finish =>
    match s.phase with
    | .disposing k => if s.isDone k then s.returnOk else s
    | _ => s

/-- The scene after a list of steps. -/
def run : List Step → Scene → Scene
  | [], s => s
  | e :: es, s => run es (s.step c o e)

@[simp] theorem run_nil (s : Scene) : s.run c o [] = s := rfl

@[simp] theorem run_cons (e : Step) (es : List Step) (s : Scene) :
    s.run c o (e :: es) = (s.step c o e).run c o es := rfl

theorem run_append (es fs : List Step) (s : Scene) :
    s.run c o (es ++ fs) = (s.run c o es).run c o fs := by
  induction es generalizing s with
  | nil => rfl
  | cons e es ih => exact ih (s.step c o e)

end

/-! ## What a step can do -/

/-- A step is none of the view's own: nothing happens, or something goes on in the world, or the
watcher acts, whose last action has come to its end. -/
inductive Beside (e : Step) (s s' : Scene) : Prop
  | still (he : ∀ k, e ≠ .part k) (hw : s'.world = s.world) (ha : s'.action? = s.action?)
  | goesOn (t : World.Step) (ht : t.goesOn = true) (he : ∀ k, t = .part k ↔ e = .part k)
    (hw : s'.world = s.world.step t) (ha : s'.action? = s.action?)
  | acts (he : ∀ k, e ≠ .part k) (v : Visibility) (hidle : ∀ k ∈ s.action?, s.isDone k = true)
    (hw : s'.world = s.world.step (.call (.ofVisibility v)))
    (ha : s'.action? = some s.world.calls.length)

/-- What a step makes of a scene. -/
inductive Goes (c : Settings) (o : ViewOrder) (e : Step) (s s' : Scene) : Prop
  | beside (hb : Beside e s s') (hp : s'.phase = s.phase) (hn : s.watch = none → s'.watch = none)
  | make (he : e = .make) (hp : s.phase = .making) (hs : s' = s.make c o)
  | look (write : Except String Unit) (he : e = .look write) (hp : s.phase = .looking)
    (hs : s' = s.look c o write)
  | leave (he : e = .leave) (hp : s.phase = .looking) (hs : s' = s.close c o)
  | finish (k : Nat) (he : e = .finish) (hp : s.phase = .disposing k) (hd : s.isDone k = true)
    (hs : s' = s.returnOk)

theorem onWatch_of_none {s : Scene} (h : s.watch = none) (e : Watched.Step) : s.onWatch e = s := by
  simp only [onWatch, h]

@[simp] theorem phase_onWatch (e : Watched.Step) (s : Scene) : (s.onWatch e).phase = s.phase := by
  simp only [onWatch]
  split <;> rfl

@[simp] theorem report_onWatch (e : Watched.Step) (s : Scene) :
    (s.onWatch e).report = s.report := by
  simp only [onWatch]
  split <;> rfl

theorem watch_onWatch_of_none {s : Scene} (h : s.watch = none) (e : Watched.Step) :
    (s.onWatch e).watch = none := by
  rw [onWatch_of_none h, h]

/-- What does not make the watcher act leaves the world and its last action alone. -/
theorem beside_onWatch {e : Step} (he : ∀ k, e ≠ .part k) {we : Watched.Step}
    (hwe : ∀ w : Watched, (w.step we).world = w.world ∧ (w.step we).call = w.call) (s : Scene) :
    Beside e s (s.onWatch we) := by
  cases hw : s.watch with
  | none =>
    rw [onWatch_of_none hw]
    exact .still he rfl rfl
  | some watch =>
    obtain ⟨hworld, hcall⟩ := hwe ⟨s.world, watch.watcher, watch.call⟩
    refine .still he ?_ ?_
    · simp only [onWatch, hw, hworld]
    · simp only [action?, onWatch, hw, Option.bind_some, hcall]

/-- When the watcher looks about, it may act, if its last action has come to its end. -/
theorem beside_observe (s : Scene) : Beside .observe s (s.onWatch .observe) := by
  cases hw : s.watch with
  | none =>
    rw [onWatch_of_none hw]
    exact .still (by simp) rfl rfl
  | some watch =>
    let w : Watched := ⟨s.world, watch.watcher, watch.call⟩
    have hworld : (s.onWatch .observe).world = (w.step .observe).world := by simp only [onWatch, hw, w]
    have haction : (s.onWatch .observe).action? = (w.step .observe).call := by
      simp only [action?, onWatch, hw, Option.bind_some, w]
    have hlast : s.action? = w.call := by simp only [action?, hw, Option.bind_some, w]
    by_cases hidle : w.isIdle = true
    · have hstep : w.step .observe = w.look := by rw [Watched.step, if_pos hidle]
      rw [hstep] at hworld haction
      cases ha : w.watcher.acts? with
      | none =>
        simp only [Watched.look, ha] at hworld haction
        exact .still (by simp) hworld (haction.trans hlast.symm)
      | some v =>
        simp only [Watched.look, ha] at hworld haction
        refine .acts (by simp) v ?_ hworld haction
        intro k hk
        have hcall : watch.call = some k := hlast.symm.trans hk
        simpa [Watched.isIdle, isDone, w, hcall] using hidle
    · have hstep : w.step .observe = w := by rw [Watched.step, if_neg hidle]
      rw [hstep] at hworld haction
      exact .still (by simp) hworld (haction.trans hlast.symm)

theorem goes_step (c : Settings) (o : ViewOrder) (e : Step) (s : Scene) :
    Goes c o e s (s.step c o e) := by
  have stays : (∀ k, e ≠ .part k) → Goes c o e s s := fun he => .beside (.still he rfl rfl) rfl id
  cases e with
  | task h m =>
    simp only [step]
    split
    · exact stays (by simp)
    · rename_i hm
      refine .beside (.goesOn (.move h m) ?_ (by simp) rfl rfl) rfl id
      simpa [World.Step.goesOn] using hm
  | part k => exact .beside (.goesOn (.part k) rfl (by simp) rfl rfl) rfl id
  | rearrange entries => exact .beside (.goesOn (.rearrange entries) rfl (by simp) rfl rfl) rfl id
  | send | hangUp | begin_ =>
    exact .beside (beside_onWatch (by simp) (fun _ => ⟨rfl, rfl⟩) s) (phase_onWatch _ s)
      fun hn => watch_onWatch_of_none hn _
  | observe =>
    exact .beside (beside_observe s) (phase_onWatch _ s) fun hn => watch_onWatch_of_none hn _
  | cancel =>
    have hb : Beside .cancel s (s.onWatch .cancel) :=
      beside_onWatch (by simp) (fun _ => ⟨rfl, rfl⟩) s
    refine .beside ?_ (phase_onWatch _ s) fun hn => watch_onWatch_of_none hn _
    cases hb with
    | still he hw ha => exact .still he hw ha
    | goesOn t ht he hw ha => exact .goesOn t ht he hw ha
    | acts he v hidle hw ha => exact .acts he v hidle hw ha
  | make =>
    cases hp : s.phase with
    | making =>
      simp only [step, hp]
      exact .make rfl hp rfl
    | looking | disposing | returned =>
      simp only [step, hp]
      exact stays (by simp)
  | look write =>
    cases hp : s.phase with
    | looking =>
      simp only [step, hp]
      exact .look write rfl hp rfl
    | making | disposing | returned =>
      simp only [step, hp]
      exact stays (by simp)
  | leave =>
    cases hp : s.phase with
    | looking =>
      simp only [step, hp]
      split
      · exact .leave rfl hp rfl
      · exact stays (by simp)
    | making | disposing | returned =>
      simp only [step, hp]
      exact stays (by simp)
  | finish =>
    cases hp : s.phase with
    | disposing k =>
      simp only [step, hp]
      split
      · rename_i hd
        exact .finish k rfl hp hd rfl
      · exact stays (by simp)
    | making | looking | returned =>
      simp only [step, hp]
      exact stays (by simp)

/-! ## The end -/

@[simp] theorem world_returnOk (s : Scene) : s.returnOk.world = s.world := by
  cases hw : s.watch <;> simp [returnOk, onWatch, hw, Watched.step]

@[simp] theorem phase_returnOk (s : Scene) :
    s.returnOk.phase = .returned (.ok s.report.count) := rfl

@[simp] theorem report_returnOk (s : Scene) : s.returnOk.report = s.report := by
  simp only [returnOk, report_onWatch]

theorem close_of_not_polls {c : Settings} {o : ViewOrder} {s : Scene} (ho : o.polls c = false) :
    s.close c o = s.returnOk := by
  simp only [close, ho, Bool.not_false, if_true]

/-- A view whose query polls and is on the register takes it off when it ends. -/
theorem close_of_polls {c : Settings} {o : ViewOrder} {s : Scene} (ho : o.polls c = true)
    {q : Query} (hq : s.world.query? 0 = some q) {h : Handle}
    (hget : s.world.registry.get? q.id = some h) :
    s.close c o =
      { s with
        world := s.world.beginDispose q.id
        phase := .disposing s.world.calls.length } := by
  simp only [close, ho, hq, hget, Bool.not_true, Bool.false_eq_true, if_false]

/-- A view that has returned does nothing more; the rest goes on. -/
theorem Goes.of_returned {c : Settings} {o : ViewOrder} {e : Step} {s s' : Scene}
    (hg : Goes c o e s s') (hr : s.phase.isReturned = true) :
    Beside e s s' ∧ s'.phase.isReturned = true ∧ (s.watch = none → s'.watch = none) := by
  cases hg with
  | beside hb hp hn => exact ⟨hb, hp ▸ hr, hn⟩
  | make he hp | look write he hp | leave he hp | finish k he hp =>
    simp [hp, ViewPhase.isReturned] at hr

/-- Beside the view the world goes at most one step, and nobody starts or stops a query by hand. -/
theorem Beside.world {e : Step} {s s' : Scene} (hb : Beside e s s') :
    s'.world = s.world ∨
      ∃ t, s'.world = s.world.step t ∧ ∀ h, t ≠ .move h .start ∧ t ≠ .move h .stop := by
  cases hb with
  | still he hw ha => exact .inl hw
  | goesOn t ht he hw ha => exact .inr ⟨t, hw, World.Step.ne_of_goesOn ht⟩
  | acts he v hidle hw ha => exact .inr ⟨_, hw, by simp⟩

end Scene
end LiveQuery
