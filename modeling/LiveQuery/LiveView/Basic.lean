import LiveQuery.CommandError
import LiveQuery.LiveView.Report
import LiveQuery.Schedule
import LiveQuery.Signal

/-!
# Live views

A live view polls an endpoint and reports every settled fetch until its report is complete or it is
told to end. It owns a query and, where the visibility of the host matters, a watcher; at its end it
disposes of the query and ends the watcher. If its output fails it gives up at once.

The functions of this module are the steps of a view: `start`, `look`, `close` and `see`. Between
them the tasks of its schedule run.
-/

namespace LiveQuery

/-- A live view. -/
structure LiveView (σ : Type) where
  schedule : Schedule σ
  handle : Handle
  watcher : Option Nat
  /-- Whether the query polls; one that does not is reported once. -/
  polls : Bool
  report : Report

/-- What a view is to show. -/
structure ViewOrder where
  endpoint : Endpoint
  flags : FilterFlags
  intervalMs : Option Nat
  limit : Option Nat
  style : ReportStyle
  /-- The visibility of the host, where it matters. -/
  visibility : Option Visibility

/-- A view after a step. -/
inductive Viewing (σ : Type) where
  | going (view : LiveView σ)
  /-- It has ended, with so many lines reported or with an error. -/
  | ended (result : Except CommandError Nat) (view : LiveView σ)

namespace LiveView

variable {σ : Type}

/-- Opens a view. -/
def start (transport : Transport σ) (wire : σ) (epoch : Timestamp) (s : Settings)
    (order : ViewOrder) : Except CommandError (LiveView σ) := do
  let options : QueryOptions := ⟨order.intervalMs.getD s.polling.defaultIntervalMs⟩
  let schedule := Schedule.start transport wire epoch (Client.ofUrl s.api.baseUrl)
  let filter ← order.flags.filter?.mapError CommandError.filter
  let (handle, registry, effects) ←
    (schedule.registry.create (some order.endpoint) filter options true).mapError
      CommandError.creation
  let schedule := schedule.absorb registry effects
  let (watcher, schedule) := match order.visibility with
    | none => (none, schedule)
    | some v =>
      let (w, schedule) := schedule.startWatcher v
      (some w, schedule)
  return ⟨schedule, handle, watcher, options.isPolling, .blank order.style order.limit⟩

/-- The query of the view. -/
def query? (v : LiveView σ) : Option Query := v.schedule.registry.queries[v.handle]?

/-- What the query knows. -/
def snapshot (v : LiveView σ) : Snapshot := (v.query?.map Query.snapshot).getD .blank

/-- Everybody who is ready has a turn. -/
def settle (v : LiveView σ) : LiveView σ := { v with schedule := v.schedule.runReady }

/-- Disposes of the query, if the registry has it. -/
def disposeQuery (v : LiveView σ) : Except CommandError (LiveView σ) :=
  if !v.polls then .ok v
  else
    match v.query? with
    | none => .ok v
    | some q =>
      match v.schedule.registry.dispose q.id with
      | .error e => .error (.registry e)
      | .ok (_, registry, effects) =>
        .ok { v with schedule := v.schedule.absorb registry effects }

/-- Ends the watcher. -/
def endWatcher (v : LiveView σ) : LiveView σ :=
  match v.watcher with
  | none => v
  | some w => { v with schedule := v.schedule.withWatcher w Watcher.abort }

/-- Ends the view: what it owns is given up, and the result is how many lines there are. -/
def close (v : LiveView σ) : Except CommandError Nat × LiveView σ :=
  match v.disposeQuery with
  | .error e => (.error e, v)
  | .ok v => (.ok v.report.count, v.endWatcher)

/-- The view looks at its query, and reports what is new; `write` says whether a line can be
written, or why it cannot. -/
def look (write : String → Except String Unit) (v : LiveView σ) : Viewing σ :=
  if !v.report.wants v.snapshot then .going v
  else
    match write (v.report.line v.snapshot) with
    | .error why => .ended (.error (.output why)) v
    | .ok () =>
      let v := { v with report := v.report.add v.snapshot }
      if !v.polls || v.report.isComplete then
        let (result, v) := v.close
        .ended result v
      else .going v

/-- The view is told of the visibility of the host. -/
def see (visibility : Visibility) (v : LiveView σ) : LiveView σ :=
  match v.watcher with
  | none => v
  | some w =>
    { v with schedule := v.schedule.withWatcher w fun watcher => (watcher.send visibility).1 }

/-- What a signal does to a view: it ends, is told of a visibility, or is killed. -/
inductive Reaction where
  | close
  | see (v : Visibility)
  | killed
  deriving DecidableEq, Repr

/-- How a view reacts to a signal; it handles the two free ones if it has a watcher. -/
def reaction (v : LiveView σ) : Signal → Reaction
  | .interrupt => .close
  | .user1 => if v.watcher.isSome then .see .hidden else .killed
  | .user2 => if v.watcher.isSome then .see .visible else .killed

end LiveView
end LiveQuery
