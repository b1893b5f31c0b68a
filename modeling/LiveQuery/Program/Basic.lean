import LiveQuery.Arguments.Parser
import LiveQuery.CommandError
import LiveQuery.Completions
import LiveQuery.Listing
import LiveQuery.LiveView.Basic
import LiveQuery.Settings.Layers

/-!
# The program

What a command line comes to. Most commands are done at once; `query` and `watch` talk to the API,
and then the plan says with which settings. How a program ends is a value: the code, what it prints,
what it complains of and the files it leaves behind.
-/

namespace LiveQuery

/-- What a program is started in. -/
structure Surroundings where
  environment : Environment
  files : FileTree
  /-- Whether what is printed goes to a terminal. -/
  terminal : Bool
  /-- Whether the process has a logger. -/
  hasLogger : Bool

/-- How a program ends. -/
structure Ending where
  /-- The code it returns; none if a signal killed it, or if it never ends. -/
  code : Option Nat
  /-- What it prints. -/
  printed : String
  /-- What it complains of. -/
  complaint : Option String
  files : FileTree
  deriving DecidableEq

/-- What a command line comes to. -/
inductive Plan where
  /-- It is done. -/
  | done (e : Ending)
  /-- An endpoint is to be asked once. -/
  | ask (s : Settings) (a : QueryArguments)
  /-- An endpoint is to be watched. -/
  | watch (s : Settings) (order : ViewOrder)

namespace Program

/-- The code of a program that has done its work. -/
def success : Nat := 0

/-- The code of a program whose command has failed. -/
def failure : Nat := 1

/-- The code of a program that cannot make sense of its arguments. -/
def misuse : Nat := 2

/-- Lines of output. -/
def asLines (lines : List String) : String := String.join (lines.map (· ++ "\n"))

/-- What is said of the error of a command. -/
def complaint (e : CommandError) : String := s!"Error: {e.message}"

/-- The end of a program that prints something and is done. -/
def finish (world : Surroundings) (printed : String) : Ending :=
  ⟨some success, printed, none, world.files⟩

/-- The end of a program that does nothing but complain. -/
def complain (world : Surroundings) (code : Nat) (complaint : String) : Ending :=
  ⟨some code, "", some complaint, world.files⟩

/-- The end of a program that is asked for help or cannot make sense of its arguments. -/
def refuse (world : Surroundings) (e : Arguments.Error) : Ending :=
  match e with
  | .help about => finish world (asLines [about.usage])
  | .version => finish world (asLines [e.message])
  | .bare about => complain world misuse about.usage
  | _ => complain world misuse e.headline

/-- The settings of a command that talks to the API, once its logger is installed. -/
def prepare (world : Surroundings) (c : Connection) : Except CommandError Settings := do
  let s ← (Settings.ofConnection world.files world.environment c).mapError CommandError.settings
  (installLogger world.hasLogger).mapError CommandError.logger
  return s

/-- Whether words are coloured. -/
def coloured (world : Surroundings) : Bool := Colour.wanted world.environment world.terminal

/-- What a view is to show, from the arguments of the command. -/
def viewOrder (a : WatchArguments) (coloured : Bool) (visibility : Option Visibility) :
    ViewOrder where
  endpoint := a.endpoint.endpoint
  flags := a.filter
  intervalMs := a.intervalMs
  limit := a.count
  style := ⟨a.json, coloured⟩
  visibility

/-- The visibility that a watching program starts from, where the settings make it matter. -/
def initialVisibility (s : Settings) : Option Visibility :=
  if s.polling.pauseWhenHidden then some .visible else none

/-- What a command comes to. -/
def planCommand (world : Surroundings) : Command → Plan
  | .endpoints json => .done (finish world (asLines [Listing.all.render json (coloured world)]))
  | .query a =>
    match prepare world a.connection with
    | .error e => .done (complain world failure (complaint e))
    | .ok s => .ask s a
  | .watch a =>
    match prepare world a.connection with
    | .error e => .done (complain world failure (complaint e))
    | .ok s => .watch s (viewOrder a (coloured world) (initialVisibility s))
  | .configInit output force =>
    match world.files.initSettings output force with
    | .error e => .done (complain world failure (complaint (.init e)))
    | .ok files => .done { finish world (asLines [createdMessage output]) with files }
  | .completions shell => .done (finish world (Completions.script shell))

/-- What a command line comes to. -/
def plan (world : Surroundings) (arguments : List Bytes) : Plan :=
  match Arguments.parse world.environment arguments with
  | .error e => .done (refuse world e)
  | .ok command => planCommand world command

/-- The end of a program whose command has talked to the API: the lines that it printed on the way,
and then those of its result. -/
def conclude (world : Surroundings) (lines : List String)
    (result : Except CommandError (List String)) : Ending :=
  match result with
  | .ok more => finish world (asLines (lines ++ more))
  | .error e => { complain world failure (complaint e) with printed := asLines lines }

/-- The end of a program that does not return by itself. -/
def breakOff (world : Surroundings) (lines : List String) : Ending :=
  ⟨none, asLines lines, none, world.files⟩

end Program
end LiveQuery
