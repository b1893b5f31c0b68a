import LiveQuery.Http.Exchange
import LiveQuery.Schedule
import LiveQuery.Signal

/-!
# A server that goes by a script

Nothing of a real network is needed to know how a program behaves: this server stands at one address
and answers the requests that reach it from a list, the last entry again and again. At every other
address nobody answers. While it has a request it may also give signals to the program, at even
distances before and after its reply.
-/

namespace LiveQuery

namespace Http

/-- How the server ends a reply. -/
inductive Manner where
  /-- It sends the whole reply. -/
  | whole
  /-- It breaks off in the body. -/
  | short
  /-- It sends nothing and hangs up. -/
  | drop
  /-- It never answers. -/
  | hang
  deriving DecidableEq, Repr

/-- One entry of the script. -/
structure Entry where
  manner : Manner
  head : Head
  body : Bytes
  /-- The signals given before the reply. -/
  before : List Signal
  /-- The signals given after the reply. -/
  after : List Signal
  deriving DecidableEq, Repr

/-- A request as the server receives it. -/
structure Received where
  method : Method
  target : String
  body : Option String
  deriving DecidableEq, Repr

/-- A server with a script. -/
structure ScriptedServer where
  /-- The host and the port at which it stands. -/
  host : Host
  port : Nat
  /-- The entries for the requests to come. -/
  script : List Entry
  received : List Received
  /-- The signals to be given, each with the time until then in milliseconds, counted from the
  request under way. -/
  signals : List (Nat × Signal)
  deriving Repr

namespace Entry

/-- The time between two signals, in milliseconds. -/
def signalGapMs : Nat := 120

/-- How much longer the announced body is than what is sent of it, where it breaks off. -/
def missing : Nat := 10

/-- The time from the request to the reply. -/
def delayMs (e : Entry) : Nat := signalGapMs * e.before.length

/-- The signals of an entry, each with the time from the request to it. -/
def timedSignals (e : Entry) : List (Nat × Signal) :=
  (e.before.zipIdx.map fun s => (signalGapMs * s.2, s.1))
    ++ e.after.zipIdx.map fun s => (e.delayMs + signalGapMs * (s.2 + 1), s.1)

/-- The headers that the server adds. -/
def ownHeaders (e : Entry) : List (Bytes × Bytes) :=
  let header (name value : String) := (Bytes.ofString name, Bytes.ofString value)
  let length := e.body.length + if e.manner = .short then missing else 0
  (if e.head.status = 204 ∨ e.head.status = 304 then []
    else [header "content-length" (toString length)])
    ++ [header "connection" "close"]

/-- What the client sees of an entry, if it sees anything at all. -/
def answer? (e : Entry) : Option Answer :=
  let head := { e.head with headers := e.head.headers ++ e.ownHeaders }
  match e.manner with
  | .hang => none
  | .drop => some .nothing
  | .short => some (.reply head none)
  | .whole => some (.reply head (some e.body))

end Entry

namespace ScriptedServer

/-- A server before its first request. -/
def start (host : Host) (port : Nat) (script : List Entry) : ScriptedServer :=
  ⟨host, port, script, [], []⟩

/-- Whether a URL leads to the server. -/
def isAt (s : ScriptedServer) (url : Url) : Bool :=
  url.scheme = "http" && url.host = some s.host && url.portOrUsual = s.port

/-- Takes a request after so many milliseconds, if its URL leads here. -/
def receive (h : Hop) (elapsed : Nat) (s : ScriptedServer) : Option Entry × ScriptedServer :=
  if !s.isAt h.url then (none, s)
  else
    let received := s.received ++ [Received.mk h.method h.url.target h.body]
    match s.script with
    | [] => (none, { s with received })
    | entry :: rest =>
      let signals := entry.timedSignals.map (Prod.map (elapsed + ·) id)
      (some entry,
        { s with
          received
          script := if rest.isEmpty then [entry] else rest
          signals := s.signals ++ signals })

/-- Sends a hop and all that follow it. The result is the outcome and after how many milliseconds it
is known; there is none where the server never answers. -/
def settle (h : Hop) (elapsed : Nat) (s : ScriptedServer) :
    Option (Nat × Except Failure Reply) × ScriptedServer :=
  let (entry, s) := s.receive h elapsed
  match entry with
  | none => (some (elapsed, .error (.unanswered h.asked)), s)
  | some entry =>
    match entry.answer? with
    | none => (none, s)
    | some answer =>
      let elapsed := elapsed + entry.delayMs
      match _e : h.resume answer with
      | .over outcome => (some (elapsed, outcome), s)
      | .ask next => s.settle next elapsed
  termination_by h.redirections
  decreasing_by exact Hop.redirections_lt _e

/-- A second in milliseconds. -/
def secondMs : Nat := 1000

/-- What becomes of a request: it is answered, or given up when its time has passed. -/
def deliver (timeoutSeconds : Option Nat) (r : Request) (s : ScriptedServer) :
    Delivery × ScriptedServer :=
  match Progress.ofRequest r with
  | .over outcome => (.after 0 (outcome.mapError Failure.toFetchError), s)
  | .ask h =>
    let (settled, s) := s.settle h 0
    match settled, timeoutSeconds with
    | none, none => (.unknown, s)
    | none, some limit => (.after (limit * secondMs) (.error (.timeout limit)), s)
    | some (ms, outcome), none => (.after ms (outcome.mapError Failure.toFetchError), s)
    | some (ms, outcome), some limit =>
      if limit * secondMs ≤ ms ∧ 0 < ms then
        (.after (limit * secondMs) (.error (.timeout limit)), s)
      else (.after ms (outcome.mapError Failure.toFetchError), s)

/-- Takes the signals that are to be given. -/
def takeSignals (s : ScriptedServer) : List (Nat × Signal) × ScriptedServer :=
  (s.signals, { s with signals := [] })

end ScriptedServer
end Http
end LiveQuery
