import LiveQuery.Ask
import LiveQuery.Http.Network
import LiveQuery.LogLine
import LiveQuery.Program.Basic
import Std.Async.Signal
import Std.Time.DateTime.Timestamp

/-!
# The command line

The outermost layer: it reads the arguments, the environment and the file that they name, lets the
program decide, and carries out the decision. While a command talks to the API, the tasks of its
schedule run in real time: requests go over the network, timers wait for the clock, and signals are
passed on.
-/

namespace LiveQuery.CommandLine

open Std.Async

/-! ## What the program is started in -/

/-- The environment variables that the program looks at. -/
def watchedVariables : List String :=
  ["ORION_API_URL", "ORION_API_TIMEOUT", "ORION_POLL_INTERVAL_MS", "ORION_LOG_LEVEL",
    "ORION_LOG_FORMAT", "CLICOLOR", "CLICOLOR_FORCE", "NO_COLOR"]

/-- The environment. -/
def environment : IO Environment :=
  watchedVariables.filterMapM fun name => do
    return (← IO.getEnv name).map fun value => (name, Bytes.ofString value)

/-- The paths on the way to a path, itself included. -/
def leading (path : Bytes) : List Bytes :=
  let inner := (List.range path.length).filter fun i =>
    0 < i && path[i]? = some FileTree.slash
  inner.map (path.take ·) ++ [path]

/-- Adds what stands at a path. -/
def look (tree : FileTree) (path : Bytes) : IO FileTree := do
  try
    let content ← IO.FS.readBinFile path.toStringLossy
    return tree.insert path (.file content.toList)
  catch
    | .inappropriateType none _ _ => return tree.insert path .directory
    | .permissionDenied _ _ _ => return tree.insert path .locked
    | _ => return tree

/-- The files that a command can see. -/
def filesOf : Command → IO FileTree
  | .query a => (leading a.connection.config).foldlM look .empty
  | .watch a => (leading a.connection.config).foldlM look .empty
  | .configInit output _ => (leading output).foldlM look .empty
  | _ => return .empty

/-- The time of day. -/
def timeOfDay : IO Timestamp := do
  let now ← Std.Time.Timestamp.now
  return (Timestamp.mk 0 0).addMs now.toMillisecondsSinceUnixEpoch.val.toNat

/-! ## Real time -/

/-- No request has a known end when it is sent. -/
def live : Transport Unit := fun _ s => (.unknown, s)

/-- Logs the notices of a schedule, which then has none. -/
def report (s : Settings) (schedule : Schedule Unit) : IO (Schedule Unit) := do
  for notice in schedule.notices do
    let record := notice.record
    if s.logging.lets record then IO.eprintln (s.logging.line schedule.clock record)
  return { schedule with notices := #[] }

/-- Something that a command has waited for. -/
inductive Event where
  | settled (t : LiveQuery.Task) (outcome : Outcome)
  | signal (s : LiveQuery.Signal)
  | timers

/-- What a command waits for. -/
structure Waits where
  requests : List (LiveQuery.Task × AsyncTask Event)
  signals : List (LiveQuery.Signal × Signal.Waiter × AsyncTask Event)
  timer : Option (Nat × AsyncTask Event)

namespace Waits

/-- Waits for a signal. -/
def forSignal (signal : LiveQuery.Signal) (waiter : Signal.Waiter) :
    IO (LiveQuery.Signal × Signal.Waiter × AsyncTask Event) := do
  return (signal, waiter, (← waiter.wait).map fun _ => .signal signal)

/-- Waits for the signals that a command handles. -/
def start (signals : List (LiveQuery.Signal × Std.Async.Signal)) : IO Waits := do
  let signals ← signals.mapM fun s => do forSignal s.1 (← Signal.Waiter.mk s.2 true)
  return ⟨[], signals, none⟩

/-- Waits for everything that a schedule has on its way. -/
def update (s : Settings) (schedule : Schedule Unit) (w : Waits) : IO Waits := do
  let fresh := schedule.awaiting.filter fun entry => w.requests.all fun r => r.1 ≠ entry.1
  let fresh ← fresh.mapM fun entry => do
    let sent ← (Http.Network.send s.api.timeoutSeconds entry.2).toIO
    return (entry.1, sent.map (Event.settled entry.1))
  let due := (schedule.timers.map Timer.due).min?
  let timer ←
    if due = w.timer.map Prod.fst then pure w.timer
    else due.mapM fun due => do
      let slept ← (sleep (.ofNat (due - schedule.now))).toIO
      return (due, slept.map fun _ => Event.timers)
  return { w with requests := w.requests ++ fresh, timer }

/-- Everything that is waited for. -/
def all (w : Waits) : List (AsyncTask Event) :=
  w.requests.map Prod.snd ++ w.signals.map (·.2.2) ++ (w.timer.map Prod.snd).toList

/-- Waits until something comes; there is nothing to wait for if the result is none. -/
def next (w : Waits) : IO (Option (Event × Waits)) := do
  if h : 0 < w.all.length then
    match ← IO.ofExcept (← IO.waitAny w.all h) with
    | .settled t outcome =>
      return some (.settled t outcome,
        { w with requests := w.requests.filter fun r => r.1 ≠ t })
    | .timers => return some (.timers, { w with timer := none })
    | .signal signal =>
      let signals ← w.signals.mapM fun s =>
        if s.1 = signal then forSignal signal s.2.1 else pure s
      return some (.signal signal, { w with signals })
  else return none

end Waits

/-- A schedule once an event has come, at a time that the clock shows. -/
def advance (event : Event) (now : Nat) (schedule : Schedule Unit) : Schedule Unit :=
  let schedule := schedule.fire now
  match event with
  | .settled t outcome => schedule.deliver t outcome
  | _ => schedule

/-- The milliseconds since a start. -/
def elapsed (start : Nat) : IO Nat := do return (← IO.monoMsNow) - start

/-- Asks an endpoint once. -/
partial def ask (s : Settings) (start : Nat) (a : Ask Unit) (w : Waits) :
    IO (Except CommandError Response) := do
  let schedule ← report s a.schedule.runReady
  let a := { a with schedule }
  match a.answer? with
  | some r => return r
  | none =>
    match ← (← w.update s schedule).next with
    | none => return .error .noResponse
    | some (event, w) =>
      ask s start { a with schedule := advance event (← elapsed start) schedule } w

/-- Writes the line that a view is about to report. -/
def write (v : LiveView Unit) : IO (Except String Unit) := do
  if v.report.wants v.snapshot then
    try
      IO.println (v.report.line v.snapshot)
      (← IO.getStdout).flush
      return .ok ()
    catch e => return .error (toString e)
  else return .ok ()

/-- Watches an endpoint until the view ends. -/
partial def watch (s : Settings) (start : Nat) (v : LiveView Unit) (w : Waits) :
    IO (Except CommandError Nat) := do
  let v := v.settle
  let written ← write v
  match v.look fun _ => written with
  | .ended result v =>
    let _ ← report s v.schedule
    return result
  | .going v =>
    let schedule ← report s v.schedule
    match ← (← w.update s schedule).next with
    | none => return .ok v.report.count
    | some (event, w) =>
      let v := { v with schedule := advance event (← elapsed start) schedule }
      match event with
      | .signal signal =>
        match v.reaction signal with
        | .see visibility => watch s start (v.see visibility) w
        | _ => return v.close.1
      | _ => watch s start v w

/-- The signals that a view handles. -/
def handled (order : ViewOrder) : List (LiveQuery.Signal × Std.Async.Signal) :=
  (.interrupt, .sigint)
    :: if order.visibility.isSome then [(.user1, .sigusr1), (.user2, .sigusr2)] else []

/-! ## Carrying out a plan -/

/-- Shows how the program ends, and returns its code. -/
def present (e : Ending) : IO UInt32 := do
  IO.print e.printed
  match e.complaint with
  | some complaint => IO.eprintln complaint
  | none => pure ()
  return (e.code.getD Program.failure).toUInt32

/-- Writes the file that the program has changed. -/
def save (before : FileTree) (path : Bytes) (e : Ending) : IO Ending := do
  match e.files.read? path with
  | .error _ => return e
  | .ok content =>
    if (before.read? path).toOption = some content then return e
    try
      IO.FS.writeBinFile path.toStringLossy ⟨content.toArray⟩
      return e
    catch error =>
      return ⟨some Program.failure, "", some s!"Error: {error}", before⟩

/-- Carries out a plan. -/
def carryOut (world : Surroundings) : Plan → IO Ending
  | .done e => return e
  | .ask s a => do
    let start ← IO.monoMsNow
    match Ask.start live () (← timeOfDay) s a.endpoint.endpoint a.filter with
    | .error e => return Program.conclude world [] (.error e)
    | .ok started =>
      let answer ← ask s start started (← Waits.start [])
      return Program.conclude world [] (answer.map fun r => [r.render a.json])
  | .watch s order => do
    let start ← IO.monoMsNow
    match LiveView.start live () (← timeOfDay) s order with
    | .error e => return Program.conclude world [] (.error e)
    | .ok v =>
      let result ← watch s start v (← Waits.start (handled order))
      return Program.conclude world [] (result.map fun _ => [])

/-- Runs the program. -/
def run (arguments : List Bytes) : IO UInt32 := do
  let environment ← environment
  let command := Arguments.parse environment arguments
  let files ← match command with
    | .ok command => filesOf command
    | .error _ => pure .empty
  let world : Surroundings := ⟨environment, files, ← (← IO.getStdout).isTty, false⟩
  let ending ← carryOut world (Program.plan world arguments)
  match command with
  | .ok (.configInit output _) => present (← save files output ending)
  | _ => present ending

end LiveQuery.CommandLine

/-- Runs the program on its arguments; the result is the exit code. -/
def main (arguments : List String) : IO UInt32 :=
  LiveQuery.CommandLine.run (arguments.map LiveQuery.Bytes.ofString)
