import LiveQuery.Ask
import LiveQuery.Http.ScriptedServer
import LiveQuery.Program.Basic

/-!
# The program on a stage

A command that talks to the API is played out on a stage: there is one scripted server, whose
signals reach the command, and time passes only when everybody waits. A signal that the command does
not handle kills it.
-/

namespace LiveQuery

open Http

/-- How a command that talks to the API comes to its end. -/
inductive CommandEnd (α : Type) where
  | result (r : Except CommandError α)
  /-- A signal killed it. -/
  | killed (by_ : Signal)
  /-- Nothing can happen any more, or not within the steps allowed; it waits for ever. -/
  | waiting

/-- The same end with another result. -/
def CommandEnd.map (f : α → β) : CommandEnd α → CommandEnd β
  | result r => .result (r.map f)
  | killed s => .killed s
  | waiting => .waiting

/-- How the program ends with its command. -/
def CommandEnd.conclude (world : Surroundings) (lines : List String) :
    CommandEnd (List String) → Ending
  | result r => Program.conclude world lines r
  | killed _ => Program.breakOff world lines
  | waiting => Program.breakOff world lines

namespace Stage

/-- What happens next on a stage. -/
inductive Event where
  | signal (at_ : Nat) (s : Signal)
  /-- Timers fire. -/
  | timers (at_ : Nat)
  deriving DecidableEq, Repr

/-- The signals on their way, each with its time, in order. -/
abbrev Signals := List (Nat × Signal)

/-- Takes the signals that the server has decided to give since the last look. -/
def collect (s : Schedule ScriptedServer) (pending : Signals) : Schedule ScriptedServer × Signals :=
  let (fresh, wire) := s.wire.takeSignals
  let fresh := fresh.map (Prod.map (s.now + ·) id)
  ({ s with wire }, (pending ++ fresh).mergeSort fun a b => a.1 ≤ b.1)

/-- What happens next; of a signal and timers at the same time, the signal. -/
def next? (s : Schedule ScriptedServer) (pending : Signals) : Option Event :=
  match pending.head?, (s.timers.map Timer.due).min? with
  | none, none => none
  | none, some due => some (.timers due)
  | some (t, signal), none => some (.signal t signal)
  | some (t, signal), some due => some (if t ≤ due then .signal t signal else .timers due)

/-! ## Asking once -/

/-- Plays a fetch that is on its way; it handles no signal and sets one timer at most. -/
def playAsk (a : Ask ScriptedServer) : CommandEnd Response × ScriptedServer :=
  let schedule := a.schedule.runReady
  match { a with schedule }.answer? with
  | some r => (.result r, schedule.wire)
  | none =>
    let (schedule, pending) := collect schedule []
    match next? schedule pending with
    | none => (.waiting, schedule.wire)
    | some (.signal _ signal) => (.killed signal, schedule.wire)
    | some (.timers due) =>
      let schedule := (schedule.fire due).runReady
      match { a with schedule }.answer? with
      | some r => (.result r, schedule.wire)
      | none => (.waiting, schedule.wire)

/-! ## Watching -/

/-- Every line can be written. -/
def writeAny (_ : String) : Except String Unit := .ok ()

/-- The clock of a view goes on to a point in time. -/
def atTime (t : Nat) (v : LiveView ScriptedServer) : LiveView ScriptedServer :=
  { v with schedule := { v.schedule with now := max v.schedule.now t } }

/-- Plays a view for so many events at most. -/
def playView (events : Nat) (v : LiveView ScriptedServer) (pending : Signals) :
    CommandEnd Nat × LiveView ScriptedServer :=
  match v.settle.look writeAny with
  | .ended result v => (.result result, v)
  | .going v =>
    match events with
    | 0 => (.waiting, v)
    | events + 1 =>
      let (schedule, pending) := collect v.schedule pending
      let v := { v with schedule }
      match next? schedule pending with
      | none => (.waiting, v)
      | some (.timers due) => playView events { v with schedule := schedule.fire due } pending
      | some (.signal t signal) =>
        let v := atTime t v
        match v.reaction signal with
        | .killed => (.killed signal, v)
        | .see visibility => playView events (v.see visibility) pending.tail
        | .close =>
          let (result, v) := v.close
          (.result result, v)

/-- More events than a view can see that comes to an end: the server gives the signals of an entry
at every request, every signal makes one more request at most, and a request sets two timers. -/
def eventBound (server : ScriptedServer) (limit : Option Nat) : Nat :=
  let signals := server.script.foldl (fun n e => n + e.before.length + e.after.length) 0
  (server.script.length + limit.getD 0 + signals + 2) * (signals + 4)

/-- Plays a view from its start; it may be told to end before anything happens. -/
def playFrom (v : LiveView ScriptedServer) (closed : Bool) :
    CommandEnd Nat × LiveView ScriptedServer :=
  if closed then
    let (result, v) := v.close
    (.result result, v)
  else playView (eventBound v.schedule.wire v.report.limit) v []

/-! ## The program -/

/-- The time of day at the start. -/
def epoch : Timestamp := ⟨0, 0⟩

/-- How a request is answered. -/
def transport (s : Settings) : Transport ScriptedServer :=
  ScriptedServer.deliver s.api.timeoutSeconds

/-- Asks an endpoint once; the result is the text of the response. -/
def ask (s : Settings) (a : QueryArguments) (server : ScriptedServer) :
    CommandEnd String × ScriptedServer :=
  match Ask.start (transport s) server epoch s a.endpoint.endpoint a.filter with
  | .error e => (.result (.error e), server)
  | .ok started =>
    let (ending, server) := playAsk started
    (ending.map (Response.render a.json), server)

/-- Watches an endpoint; the lines are what has been printed. -/
def watch (s : Settings) (order : ViewOrder) (closed : Bool) (server : ScriptedServer) :
    CommandEnd Nat × List String × ScriptedServer :=
  match LiveView.start (transport s) server epoch s order with
  | .error e => (.result (.error e), [], server)
  | .ok v =>
    let (ending, v) := playFrom v closed
    (ending, v.report.lines, v.schedule.wire)

/-- Runs the program. -/
def run (world : Surroundings) (arguments : List Bytes) (server : ScriptedServer) :
    Ending × ScriptedServer :=
  match Program.plan world arguments with
  | .done e => (e, server)
  | .ask s a =>
    let (ending, server) := ask s a server
    ((ending.map fun text => [text]).conclude world [], server)
  | .watch s order =>
    let (ending, lines, server) := watch s order false server
    ((ending.map fun _ => []).conclude world lines, server)

end Stage
end LiveQuery
