import LiveQuery.Arguments.Basic

/-!
# Values of a command line

What the arguments have set so far. Each item can be set once, and its value is read when it is
set; what the command line leaves open is filled in from the environment.
-/

namespace LiveQuery.Arguments

/-- The values that have been set. -/
structure Given where
  json : Option Unit
  force : Option Unit
  body : Option String
  limit : Option UInt32
  offset : Option UInt32
  config : Option Bytes
  apiUrl : Option String
  logLevel : Option String
  intervalMs : Option Nat
  count : Option Nat
  output : Option Bytes
  endpoint : Option EndpointName
  shell : Option Shell
  deriving DecidableEq, Repr

namespace Given

/-- Nothing has been set. -/
def nothing : Given :=
  ⟨none, none, none, none, none, none, none, none, none, none, none, none, none⟩

/-- Whether an item has been set. -/
def has (g : Given) : Item → Bool
  | .help => false
  | .version => false
  | .json => g.json.isSome
  | .force => g.force.isSome
  | .body => g.body.isSome
  | .limit => g.limit.isSome
  | .offset => g.offset.isSome
  | .config => g.config.isSome
  | .apiUrl => g.apiUrl.isSome
  | .logLevel => g.logLevel.isSome
  | .intervalMs => g.intervalMs.isSome
  | .count => g.count.isSome
  | .output => g.output.isSome
  | .endpoint => g.endpoint.isSome
  | .shell => g.shell.isSome

/-- A value as a text. -/
def text (value : Bytes) : Except Error String :=
  match value.toString? with
  | some s => .ok s
  | none => .error .invalidText

/-- A value as a path, which may be any octets but not none. -/
def path (item : Item) (value : Bytes) : Except Error Bytes :=
  if value.isEmpty then .error (.valueRequired item) else .ok value

/-- A value as a number of 32 bits. -/
def word (item : Item) (value : Bytes) : Except Error UInt32 := do
  let s ← text value
  match Text.readI64 s with
  | .error fault => .error (.invalidValue s item fault.message)
  | .ok n =>
    if 0 ≤ n ∧ n < UInt32.size then .ok n.toNat.toUInt32
    else .error (.invalidValue s item s!"{n} is not in 0..=4294967295")

/-- A value as a number of 64 bits. -/
def number (item : Item) (value : Bytes) : Except Error Nat := do
  let s ← text value
  match Text.readU64 s with
  | .error fault => .error (.invalidValue s item fault.message)
  | .ok n => .ok n

/-- A value as the name of an endpoint. -/
def name (value : Bytes) : Except Error EndpointName := do
  let s ← text value
  match EndpointName.ofText? s with
  | some n => .ok n
  | none => .error (.invalidValue s .endpoint (EndpointName.unknownMessage s))

/-- A value as a shell. -/
def choice (value : Bytes) : Except Error Shell :=
  match value.toString?.bind Shell.ofText? with
  | some sh => .ok sh
  | none =>
    if value.isEmpty then .error (.valueRequired .shell)
    else .error (.notAChoice value.toStringLossy .shell)

/-- Sets an item that takes a value, which must not have been set before. -/
def accept (item : Item) (value : Bytes) (g : Given) : Except Error Given :=
  if g.has item then .error (.repeated item)
  else
    match item with
    | .body => return { g with body := some (← text value) }
    | .limit => return { g with limit := some (← word .limit value) }
    | .offset => return { g with offset := some (← word .offset value) }
    | .config => return { g with config := some (← path .config value) }
    | .apiUrl => return { g with apiUrl := some (← text value) }
    | .logLevel => return { g with logLevel := some (← text value) }
    | .intervalMs => return { g with intervalMs := some (← number .intervalMs value) }
    | .count => return { g with count := some (← number .count value) }
    | .output => return { g with output := some (← path .output value) }
    | .endpoint => return { g with endpoint := some (← name value) }
    | .shell => return { g with shell := some (← choice value) }
    | _ => .ok g

/-- Sets a switch of a context, or answers it: help and version end the reading. -/
def flip (c : Context) (item : Item) (g : Given) : Except Error Given :=
  if g.has item then .error (.repeated item)
  else
    match item with
    | .help => .error (.help c)
    | .version => .error .version
    | .json => .ok { g with json := some () }
    | .force => .ok { g with force := some () }
    | _ => .ok g

/-- Fills in from the environment what has not been set. -/
def fromEnvironment (env : Environment) (items : List Item) (g : Given) : Except Error Given :=
  items.foldlM
    (fun g item =>
      if g.has item then .ok g
      else
        match item.standIn?.bind (fun key => env.lookup key) with
        | some value => g.accept item value
        | none => .ok g)
    g

/-- What has been set about the connection. -/
def connection (g : Given) : Connection :=
  ⟨g.config.getD (Bytes.ofString defaultConfigPath), g.apiUrl, g.logLevel⟩

/-- What has been set about the filter. -/
def filter (g : Given) : FilterFlags := ⟨g.body, g.limit, g.offset⟩

/-- The command of a context, once all its arguments have been read. -/
def command (g : Given) : Context → Except Error Command
  | .root => .error (.bare .root)
  | .config => .error (.bare .config)
  | .endpoints => .ok (.endpoints g.json.isSome)
  | .query =>
    match g.endpoint with
    | some endpoint => .ok (.query ⟨endpoint, g.filter, g.json.isSome, g.connection⟩)
    | none => .error .missing
  | .watch =>
    match g.endpoint with
    | some endpoint =>
      .ok (.watch ⟨endpoint, g.filter, g.intervalMs, g.count, g.json.isSome, g.connection⟩)
    | none => .error .missing
  | .configInit =>
    .ok (.configInit (g.output.getD (Bytes.ofString defaultConfigPath)) g.force.isSome)
  | .completions =>
    match g.shell with
    | some shell => .ok (.completions shell)
    | none => .error .missing

end Given
end LiveQuery.Arguments
