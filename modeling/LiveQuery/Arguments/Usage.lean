import LiveQuery.Arguments.Basic

/-!
# How the command line is used

What each command and each item is for, in a few words, and the help that is put together from them.
-/

namespace LiveQuery.Arguments

namespace Item

/-- What an item is for; a command may have words of its own for it. -/
def summary (c : Context) : Item → String
  | help => "Print help"
  | version => "Print version"
  | json =>
    match c with
    | .query => "Print compact JSON instead of pretty output"
    | .watch => "Print compact JSON lines"
    | _ => "Output as JSON"
  | body => "Raw JSON filter body (merged under --limit/--offset)"
  | limit => "Maximum number of results"
  | offset => "Number of results to skip"
  | config => "Path to configuration file"
  | apiUrl => "Override the API base URL"
  | logLevel => "Set log level (trace, debug, info, warn, error)"
  | intervalMs => "Poll interval in milliseconds (0 or >= 1000); defaults to config"
  | count => "Stop after this many fetches"
  | output => "Output file path"
  | force => "Overwrite existing file"
  | endpoint => "Endpoint name (see \x60orion endpoints\x60)"
  | shell => "Shell to generate completions for"

/-- The names of an item, the short one in front. -/
def names (i : Item) : List String :=
  (i.short?.map fun c => "-" ++ c.toString).toList ++ (i.long?.map ("--" ++ ·)).toList

end Item

namespace Context

/-- The words that lead to a context. -/
def path : Context → List String
  | root => []
  | endpoints => ["endpoints"]
  | query => ["query"]
  | watch => ["watch"]
  | config => ["config"]
  | configInit => ["config", "init"]
  | completions => ["completions"]

/-- Every context. -/
def all : List Context := [root, endpoints, query, watch, config, configInit, completions]

/-- What a context is for. -/
def summary : Context → String
  | root => "Query and poll the Orion orchestration API"
  | endpoints => "List known endpoints"
  | query => "Fetch an endpoint once"
  | watch => "Poll an endpoint on an interval"
  | config => "Configuration utilities"
  | configInit => "Initialize a new configuration file"
  | completions => "Generate shell completions"

end Context

/-- The name of the program. -/
def programName : String := "orion"

/-- The word that asks for help on commands. -/
def helpCommand : String := "help"

/-- What the word for help does. -/
def helpSummary : String := "Print this message or the help of the given subcommand(s)"

namespace Context

/-- The commands of a context with what they are for, the word for help included. -/
def menu (c : Context) : List (String × String) :=
  if c.commands.isEmpty then []
  else (c.commands.map fun e => (e.1, e.2.summary)) ++ [(helpCommand, helpSummary)]

/-- The items of a context with what they are for. -/
def listing (c : Context) : List (String × String) :=
  (c.positional?.toList ++ c.items).map fun i =>
    let names := (if i.names.isEmpty then [] else [", ".intercalate i.names])
    let value := (i.placeholder?.map fun p => s!"<{p}>").toList
    (" ".intercalate (names ++ value), i.summary c)

/-- Lines in two columns. -/
def columns (rows : List (String × String)) : List String :=
  let width := (rows.map fun r => r.1.length).foldl max 0
  rows.map fun r =>
    "  " ++ r.1 ++ String.ofList (List.replicate (width - r.1.length + 2) ' ') ++ r.2

/-- The help on a context. -/
def usage (c : Context) : String :=
  let command := if c.commands.isEmpty then [] else ["<COMMAND>"]
  let words := programName :: c.path ++ command ++ ["[OPTIONS]"]
  "\n".intercalate
    ([c.summary, "", "Usage: " ++ " ".intercalate words, ""] ++ columns (c.menu ++ c.listing))

end Context
end LiveQuery.Arguments
