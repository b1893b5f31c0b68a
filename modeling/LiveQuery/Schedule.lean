import LiveQuery.Registry.Scope
import LiveQuery.Registry.Watcher

/-!
# Schedules

One thread runs all tasks on a clock that counts milliseconds. A task runs until it has to wait;
tasks that are ready run first in, first out; when none is ready the clock goes on to the next
timer. Timers of one instant fire in the order in which they were set.

What becomes of a request is decided when it is sent, by a transport with a state of its own. A
transport need not know the end of a request; then the outcome is brought by `Schedule.deliver`.
-/

namespace LiveQuery

/-- What the transport says of a request: a reply or an error. -/
abbrev Outcome := Except FetchError Reply

/-- What becomes of a request. -/
inductive Delivery where
  /-- It settles after so many milliseconds, or at once. -/
  | after (ms : Nat) (outcome : Outcome)
  /-- Nobody knows yet how it ends. -/
  | unknown

/-- A way to have requests answered. -/
abbrev Transport (σ : Type) := Request → σ → Delivery × σ

/-- Who has a turn. -/
inductive Turn where
  /-- A task of a query, with the outcome of its request if that is what it waited for. -/
  | task (t : Task) (outcome : Option Outcome)
  | watcher (w : Nat)

/-- A turn to come at a point in time. -/
structure Timer where
  due : Nat
  turn : Turn

/-- A request and the time at which it was sent. -/
structure Sent where
  at_ : Nat
  request : Request

/-- How a fetch of an endpoint ended. -/
structure Fetched where
  path : String
  success : Bool
  deriving DecidableEq, Repr

/-- Everything that runs. -/
structure Schedule (σ : Type) where
  transport : Transport σ
  wire : σ
  /-- The point in time at which the clock stood at zero. -/
  epoch : Timestamp
  now : Nat
  registry : Registry
  watchers : List Watcher
  ready : List Turn
  timers : List Timer
  /-- The tasks whose requests have no known end, with these requests. -/
  awaiting : List (Task × Request)
  sent : Array Sent
  notices : Array Notice
  fetched : Array Fetched

namespace Schedule

variable {σ : Type}

/-- A schedule on which nothing has happened. -/
def start (transport : Transport σ) (wire : σ) (epoch : Timestamp) (client : Client) :
    Schedule σ :=
  { transport, wire, epoch, now := 0, registry := .empty client, watchers := [], ready := [],
    timers := [], awaiting := [], sent := #[], notices := #[], fetched := #[] }

/-- The time of day. -/
def clock (s : Schedule σ) : Timestamp := s.epoch.addMs s.now

/-- Takes over a registry and does what its step asked for. -/
def absorb (r : Registry) (effects : List Effect) (s : Schedule σ) : Schedule σ :=
  let turns := effects.filterMap fun
    | .turn t => some (Turn.task t none)
    | .notice _ => none
  let notices := effects.filterMap fun
    | .notice n => some n
    | .turn _ => none
  { s with registry := r, ready := s.ready ++ turns, notices := s.notices ++ notices }

/-- Replaces a query. -/
def put (h : Handle) (q : Query) (s : Schedule σ) : Schedule σ :=
  { s with registry := s.registry.put h q }

/-- Sets a timer. -/
def wait (ms : Nat) (turn : Turn) (s : Schedule σ) : Schedule σ :=
  { s with timers := s.timers ++ [⟨s.now + ms, turn⟩] }

/-! ## Fetches -/

/-- Sends the request of a query. -/
def send (q : Query) (s : Schedule σ) : Delivery × Schedule σ :=
  let request := q.request
  let (delivery, wire) := s.transport request s.wire
  (delivery,
    { s with
      wire
      sent := s.sent.push ⟨s.now, request⟩
      notices := s.notices.push (.sending request.method request.url) })

/-- Reports how the fetch of a query ended. -/
def report (q : Query) (result : Except FetchError Response) (s : Schedule σ) : Schedule σ :=
  let path := q.endpoint.path
  match result with
  | .ok response =>
    { s with
      fetched := s.fetched.push ⟨path, true⟩
      notices := s.notices.push (.completed path response.status) }
  | .error e =>
    { s with
      fetched := s.fetched.push ⟨path, false⟩
      notices := (s.notices.push (.failed path e.message)).push (.fetchFailed q.id e.message) }

/-- The fetch of no loop settles. -/
def settleDirect (h : Handle) (q : Query) (outcome : Outcome) (s : Schedule σ) : Schedule σ :=
  let result := Response.ofOutcome outcome
  (s.put h (q.settleDirect result s.clock)).report q result

/-- The fetch of a loop settles, and the loop waits, unless it finds itself cancelled. -/
def settleLoop (h : Handle) (i : Nat) (q : Query) (outcome : Outcome) (s : Schedule σ) :
    Schedule σ :=
  let result := Response.ofOutcome outcome
  let settled := (q.settleLoop i result s.clock s.now).wake i s.now
  let s := (s.put h settled).report q result
  if settled.isWaiting i then s.wait q.options.pollIntervalMs (.task (.loop h i) none) else s

/-- The fetch of a task settles. -/
def settle (t : Task) (q : Query) (outcome : Outcome) (s : Schedule σ) : Schedule σ :=
  match t with
  | .first h => s.settleDirect h q outcome
  | .loop h i => s.settleLoop h i q outcome

/-- Sends the request of a task; a reply that is there at once settles it. -/
def dispatch (t : Task) (q : Query) (s : Schedule σ) : Schedule σ :=
  let (delivery, s) := s.send q
  match delivery with
  | .after 0 outcome => s.settle t q outcome
  | .after ms outcome => s.wait ms (.task t (some outcome))
  | .unknown => { s with awaiting := s.awaiting ++ [(t, q.request)] }

/-- A task has a turn. -/
def runTask (t : Task) (outcome : Option Outcome) (s : Schedule σ) : Schedule σ :=
  let h := match t with
    | .first h => h
    | .loop h _ => h
  match s.registry.queries[h]?, outcome with
  | none, _ => s
  | some q, some outcome => s.settle t q outcome
  | some q, none =>
    match t with
    | .first h =>
      let begun := q.beginDirect
      (s.put h begun).dispatch t begun
    | .loop h i =>
      let begun := (q.wake i s.now).beginLoop i
      let s := s.put h begun
      if begun.phase i = .fetching ∧ q.phase i ≠ .fetching then s.dispatch t begun else s

/-- The request of a task that was waited for settles. -/
def deliver (t : Task) (outcome : Outcome) (s : Schedule σ) : Schedule σ :=
  { s with
    awaiting := s.awaiting.filter fun entry => entry.1 ≠ t
    ready := s.ready ++ [.task t (some outcome)] }

/-- A watcher has a turn. -/
def runWatcher (w : Nat) (s : Schedule σ) : Schedule σ :=
  match s.watchers[w]? with
  | none => s
  | some watcher =>
    let (watcher, r, effects) := watcher.turn s.registry
    { s with watchers := s.watchers.set w watcher }.absorb r effects

/-- Somebody has a turn. -/
def run (turn : Turn) (s : Schedule σ) : Schedule σ :=
  match turn with
  | .task t outcome => s.runTask t outcome
  | .watcher w => s.runWatcher w

/-! ## Running until nothing is ready

A task of a query makes nobody ready, and a watcher makes only tasks ready: that is why the turns
come to an end. -/

/-- How many of a list of turns are watchers'. -/
def watcherTurns : List Turn → Nat
  | [] => 0
  | .watcher _ :: rest => watcherTurns rest + 1
  | .task _ _ :: rest => watcherTurns rest

theorem watcherTurns_append (a b : List Turn) :
    watcherTurns (a ++ b) = watcherTurns a + watcherTurns b := by
  induction a with
  | nil => simp [watcherTurns]
  | cons t rest ih => cases t <;> simp [watcherTurns, ih]; omega

theorem settle_ready (t : Task) (q : Query) (outcome : Outcome) (s : Schedule σ) :
    (s.settle t q outcome).ready = s.ready := by
  cases t with
  | first h => simp only [settle, settleDirect, report]; split <;> rfl
  | loop h i => simp only [settle, settleLoop, report]; split <;> split <;> rfl

theorem dispatch_ready (t : Task) (q : Query) (s : Schedule σ) :
    (s.dispatch t q).ready = s.ready := by
  simp only [dispatch]
  split
  · rw [settle_ready]; rfl
  · rfl
  · rfl

theorem runTask_ready (t : Task) (outcome : Option Outcome) (s : Schedule σ) :
    (s.runTask t outcome).ready = s.ready := by
  simp only [runTask]
  split
  · rfl
  · rw [settle_ready]
  · split
    · rw [dispatch_ready]; rfl
    · split
      · rw [dispatch_ready]; rfl
      · rfl

theorem watcherTurns_absorb (r : Registry) (effects : List Effect) (s : Schedule σ) :
    watcherTurns (s.absorb r effects).ready = watcherTurns s.ready := by
  simp only [absorb, watcherTurns_append]
  induction effects with
  | nil => simp [watcherTurns]
  | cons e rest ih => cases e <;> simp_all [watcherTurns]

theorem watcherTurns_runWatcher (w : Nat) (s : Schedule σ) :
    watcherTurns (s.runWatcher w).ready = watcherTurns s.ready := by
  simp only [runWatcher]
  split
  · rfl
  · rw [watcherTurns_absorb]

/-- Everybody who is ready has a turn, and so has everybody whom that makes ready. -/
def runReady (s : Schedule σ) : Schedule σ :=
  match _h : s.ready with
  | [] => s
  | turn :: rest => runReady (run turn { s with ready := rest })
  termination_by (watcherTurns s.ready, s.ready.length)
  decreasing_by
    rw [_h]
    cases turn with
    | task t outcome =>
      simp only [run, runTask_ready, watcherTurns]
      exact Prod.Lex.right _ (by simp)
    | watcher w =>
      apply Prod.Lex.left
      simp only [run, watcherTurns_runWatcher, watcherTurns]
      omega

/-! ## The clock -/

/-- The next point in time after `now` and not after `target` for which a timer is set. -/
def nextInstant? (s : Schedule σ) (now target : Nat) : Option Nat :=
  ((s.timers.map Timer.due).filter fun due => now < due ∧ due ≤ target).min?

theorem lt_of_nextInstant? {s : Schedule σ} {now target t : Nat}
    (h : s.nextInstant? now target = some t) : now < t ∧ t ≤ target := by
  have := List.min?_mem h
  simp_all

/-- The clock goes on to an instant, and the timers of it fire. -/
def fire (t : Nat) (s : Schedule σ) : Schedule σ :=
  { s with
    now := t
    ready := s.ready ++ (s.timers.filter fun timer => timer.due ≤ t).map Timer.turn
    timers := s.timers.filter fun timer => t < timer.due }

/-- Goes through the instants after `now` up to `target`, and does at each what there is to do. -/
def runTo (target now : Nat) (s : Schedule σ) : Schedule σ :=
  match _h : s.nextInstant? now target with
  | none => { s with now := target }
  | some t => runTo target t (fire t s).runReady
  termination_by target - now
  decreasing_by have := lt_of_nextInstant? _h; omega

/-- Lets time pass, and then does what there is to do. -/
def advance (ms : Nat) (s : Schedule σ) : Schedule σ :=
  let s := s.runReady
  if ms = 0 then s else s.runTo (s.now + ms) s.now

/-! ## What the host does -/

/-- Takes the effects of what the host does to the registry. -/
def withRegistry (f : Registry → Registry × List Effect) (s : Schedule σ) : Schedule σ :=
  let (r, effects) := f s.registry
  s.absorb r effects

/-- The host fetches and waits for the fetch to settle; then whatever is ready runs. Of the timers
of one instant the host's own comes first. The result is the snapshot at the moment at which the
fetch settles; there is none if it never does. -/
def fetch (h : Handle) (s : Schedule σ) : Option Snapshot × Schedule σ :=
  match s.registry.queries[h]? with
  | none => (none, s)
  | some q =>
    let begun := q.beginDirect
    let (delivery, s) := (s.put h begun).send begun
    let finish (outcome : Outcome) (s : Schedule σ) : Option Snapshot × Schedule σ :=
      let q := (s.registry.queries[h]?).getD begun
      let s := s.settleDirect h q outcome
      (s.registry.queries[h]?.map Query.snapshot, s)
    match delivery with
    | .unknown => (none, s.runReady)
    | .after 0 outcome =>
      let (snapshot, s) := finish outcome s
      (snapshot, s.runReady)
    | .after ms outcome =>
      let due := s.now + ms
      let s := s.runReady
      let (snapshot, s) := finish outcome { s.runTo (due - 1) s.now with now := due }
      (snapshot, (s.fire due).runReady)

/-- The host starts a watcher. -/
def startWatcher (v : Visibility) (s : Schedule σ) : Nat × Schedule σ :=
  (s.watchers.length,
    { s with
      watchers := s.watchers ++ [.start v]
      ready := s.ready ++ [.watcher s.watchers.length] })

/-- The host does something to a watcher, which then has a turn. -/
def withWatcher (w : Nat) (f : Watcher → Watcher) (s : Schedule σ) : Schedule σ :=
  { s with watchers := s.watchers.modify w f, ready := s.ready ++ [.watcher w] }

end Schedule
end LiveQuery
