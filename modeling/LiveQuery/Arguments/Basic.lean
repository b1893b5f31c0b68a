import LiveQuery.Endpoint
import LiveQuery.Environment
import LiveQuery.Filter.Basic
import LiveQuery.Text.Integer
import LiveQuery.Text.Plain

/-!
# What a command line can say

The commands, the options each of them takes, and what can be wrong with a command line.
-/

namespace LiveQuery

/-- A shell that completions can be written for. -/
inductive Shell where
  | bash
  | elvish
  | fish
  | powershell
  | zsh
  deriving DecidableEq, Repr

namespace Shell

/-- Every shell. -/
def all : List Shell := [bash, elvish, fish, powershell, zsh]

/-- The name of a shell. -/
def text : Shell → String
  | bash => "bash"
  | elvish => "elvish"
  | fish => "fish"
  | powershell => "powershell"
  | zsh => "zsh"

/-- The shell with a name. -/
def ofText? (s : String) : Option Shell := all.find? fun sh => sh.text = s

/-- The words for a name that is no shell's. -/
def unknownMessage (s : String) : String := s!"invalid variant: {s}"

end Shell

/-- How to reach the API, as the command line says. -/
structure Connection where
  /-- The path of the settings file. -/
  config : Bytes
  apiUrl : Option String
  logLevel : Option String
  deriving DecidableEq, Repr

/-- One fetch. -/
structure QueryArguments where
  endpoint : EndpointName
  filter : FilterFlags
  json : Bool
  connection : Connection
  deriving DecidableEq, Repr

/-- Fetches on an interval. -/
structure WatchArguments where
  endpoint : EndpointName
  filter : FilterFlags
  intervalMs : Option Nat
  count : Option Nat
  json : Bool
  connection : Connection
  deriving DecidableEq, Repr

/-- What a command line asks for. -/
inductive Command where
  | endpoints (json : Bool)
  | query (arguments : QueryArguments)
  | watch (arguments : WatchArguments)
  | configInit (output : Bytes) (force : Bool)
  | completions (shell : Shell)
  deriving DecidableEq, Repr

/-- The settings file that is used where none is named. -/
def defaultConfigPath : String := "orion.toml"

namespace Arguments

/-- Something that an argument sets. The last two have no name on the command line and are told by
their place. -/
inductive Item where
  | help
  | version
  | json
  | body
  | limit
  | offset
  | config
  | apiUrl
  | logLevel
  | intervalMs
  | count
  | output
  | force
  | endpoint
  | shell
  deriving DecidableEq, Repr

namespace Item

/-- The long name. -/
def long? : Item → Option String
  | help => some "help"
  | version => some "version"
  | json => some "json"
  | body => some "body"
  | limit => some "limit"
  | offset => some "offset"
  | config => some "config"
  | apiUrl => some "api-url"
  | logLevel => some "log-level"
  | intervalMs => some "interval-ms"
  | count => some "count"
  | output => some "output"
  | force => some "force"
  | endpoint => none
  | shell => none

/-- The short name. -/
def short? : Item → Option Char
  | help => some 'h'
  | version => some 'V'
  | body => some 'b'
  | limit => some 'l'
  | config => some 'c'
  | intervalMs => some 'i'
  | count => some 'n'
  | output => some 'o'
  | force => some 'f'
  | _ => none

/-- What stands for the value in a message; a switch takes no value. -/
def placeholder? : Item → Option String
  | help => none
  | version => none
  | json => none
  | force => none
  | body => some "BODY"
  | limit => some "LIMIT"
  | offset => some "OFFSET"
  | config => some "CONFIG"
  | apiUrl => some "API_URL"
  | logLevel => some "LOG_LEVEL"
  | intervalMs => some "INTERVAL_MS"
  | count => some "COUNT"
  | output => some "OUTPUT"
  | endpoint => some "ENDPOINT"
  | shell => some "SHELL"

/-- Whether a value follows. -/
def takesValue (i : Item) : Bool := i.placeholder?.isSome

/-- The variable of the environment that stands in for the item. -/
def standIn? : Item → Option String
  | apiUrl => some "ORION_API_URL"
  | logLevel => some "ORION_LOG_LEVEL"
  | _ => none

/-- The item in a message. -/
def shown (i : Item) : String :=
  match i.long?, i.placeholder? with
  | some name, some value => s!"--{name} <{value}>"
  | some name, none => s!"--{name}"
  | none, some value => s!"<{value}>"
  | none, none => ""

end Item

/-- The levels on which arguments are read. -/
inductive Context where
  | root
  | endpoints
  | query
  | watch
  | config
  | configInit
  | completions
  deriving DecidableEq, Repr

namespace Context

/-- The named items of a context. -/
def items : Context → List Item
  | root => [.help, .version]
  | endpoints => [.json, .help]
  | query => [.body, .limit, .offset, .json, .config, .apiUrl, .logLevel, .help]
  | watch =>
    [.body, .limit, .offset, .intervalMs, .count, .json, .config, .apiUrl, .logLevel, .help]
  | config => [.help]
  | configInit => [.output, .force, .help]
  | completions => [.help]

/-- The item that is told by its place. -/
def positional? : Context → Option Item
  | query => some .endpoint
  | watch => some .endpoint
  | completions => some .shell
  | _ => none

/-- The contexts that a word leads to. -/
def commands : Context → List (String × Context)
  | root =>
    [("endpoints", endpoints), ("query", query), ("watch", watch), ("config", config),
      ("completions", completions)]
  | config => [("init", configInit)]
  | _ => []

/-- The context that a word leads to. -/
def enter? (c : Context) (word : String) : Option Context := c.commands.lookup word

/-- The item with a long name. -/
def ofLong? (c : Context) (name : String) : Option Item :=
  c.items.find? fun i => i.long? = some name

/-- The item with a short name. -/
def ofShort? (c : Context) (name : Char) : Option Item :=
  c.items.find? fun i => i.short? = some name

end Context

/-- What is wrong with a command line; being asked for help or for the version ends the reading in
the same way. -/
inductive Error where
  | help (about : Context)
  /-- No command was given where there has to be one. -/
  | bare (about : Context)
  | version
  | unrecognized (command : String)
  | unexpected (argument : String)
  | invalidValue (value : String) (item : Item) (reason : String)
  | notAChoice (value : String) (item : Item)
  | valueRequired (item : Item)
  | repeated (item : Item)
  | needless (value : String) (item : Item)
  | missing
  | invalidText
  deriving DecidableEq, Repr

/-- The name and version of the program. -/
def versionText : String := "orion 0.1.0"

/-- The message of an error up to what is printed behind its first line. -/
def Error.message : Error → String
  | help _ => ""
  | bare _ => ""
  | version => versionText
  | unrecognized command => s!"error: unrecognized subcommand '{command}'"
  | unexpected argument => s!"error: unexpected argument '{argument}' found"
  | invalidValue value item reason =>
    s!"error: invalid value '{value}' for '{item.shown}': {reason}"
  | notAChoice value item => s!"error: invalid value '{value}' for '{item.shown}'"
  | valueRequired item => s!"error: a value is required for '{item.shown}' but none was supplied"
  | repeated item => s!"error: the argument '{item.shown}' cannot be used multiple times"
  | needless value item =>
    s!"error: unexpected value '{value}' for '{item.shown}' found; no more were expected"
  | missing => "error: the following required arguments were not provided:"
  | invalidText => "error: invalid UTF-8 was detected in one or more arguments"

/-- The first line of the message of an error, as a terminal would show it. -/
def Error.headline (e : Error) : String := Text.firstLine (Text.plain e.message)

end Arguments
end LiveQuery
