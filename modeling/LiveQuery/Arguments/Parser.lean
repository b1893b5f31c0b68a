import LiveQuery.Arguments.Given
import LiveQuery.Arguments.Usage

/-!
# Reading a command line

Arguments are read from the left. A word may name a command, in whose context the rest is read; an
argument that starts with two hyphens names an item, one that starts with a hyphen names items by
single characters; any other one is the value of the item before it or is told by its place. After
two bare hyphens every argument is told by its place.

The value of an item is looked at only when the next item shows up or the arguments end, so an
argument that is no item's name is reported before a bad value in front of it.
-/

namespace LiveQuery.Arguments

/-- The item that the reader is busy with. -/
inductive Pending where
  | nothing
  /-- Its value has still to come. -/
  | awaiting (item : Item)
  | holding (item : Item) (value : Bytes)
  deriving DecidableEq, Repr

/-- Where the reader stands in a context. -/
structure State where
  given : Given
  pending : Pending
  /-- Two bare hyphens have been read. -/
  trailing : Bool
  /-- The item that is told by its place has come. -/
  placed : Bool
  deriving DecidableEq, Repr

namespace State

/-- Before the first argument. -/
def start : State := ⟨.nothing, .nothing, false, false⟩

/-- Is done with the item that the reader is busy with. -/
def resolve (s : State) : Except Error State :=
  match s.pending with
  | .nothing => .ok s
  | .awaiting item => .error (.valueRequired item)
  | .holding item value =>
    return { s with given := ← s.given.accept item value, pending := .nothing }

/-- Sets an item whose value is attached to its name. -/
def attach (item : Item) (value : Bytes) (s : State) : Except Error State := do
  let s ← s.resolve
  return { s with given := ← s.given.accept item value }

/-- Sets a switch. -/
def flip (c : Context) (item : Item) (s : State) : Except Error State := do
  let s ← s.resolve
  return { s with given := ← s.given.flip c item }

/-- Waits for the value of an item. -/
def await (item : Item) (s : State) : Except Error State := do
  let s ← s.resolve
  return { s with pending := .awaiting item }

end State

/-- The octets of a piece of an argument. -/
def octets (piece : List Glyph) : Bytes := piece.flatMap Glyph.bytes

/-- A piece of an argument as it is shown. -/
def shown (piece : List Glyph) : String := (octets piece).toStringLossy

/-- The text of a piece of an argument, if it is one. -/
def text? (piece : List Glyph) : Option String := (piece.mapM Glyph.char?).map String.ofList

/-- A name and the value that an equals sign attaches to it. -/
def splitValue (piece : List Glyph) : List Glyph × Option (List Glyph) :=
  match piece.dropWhile (· ≠ .char '=') with
  | [] => (piece, none)
  | _ :: value => (piece.takeWhile (· ≠ .char '='), some value)

/-- An argument with two hyphens, which have been taken off. -/
def readLong (c : Context) (piece : List Glyph) (s : State) : Except Error State :=
  let (name, value) := splitValue piece
  match (text? name).bind c.ofLong? with
  | none => .error (.unexpected ("--" ++ shown name))
  | some item =>
    if item.takesValue then
      match value with
      | some value => s.attach item (octets value)
      | none => s.await item
    else
      match value with
      | some value => .error (.needless (shown value) item)
      | none => s.flip c item

/-- The value that follows a short name in the same argument. -/
def shortValue : List Glyph → Option (List Glyph)
  | [] => none
  | .char '=' :: value => some value
  | value => some value

/-- An argument with one hyphen, which has been taken off. -/
def readShort (c : Context) : List Glyph → State → Except Error State
  | [], s => .ok s
  | .stray bs :: rest, _ => .error (.unexpected ("-" ++ shown (.stray bs :: rest)))
  | .char name :: rest, s =>
    match c.ofShort? name with
    | none => .error (.unexpected ("-" ++ name.toString))
    | some item =>
      if item.takesValue then
        match shortValue rest with
        | some value => s.attach item (octets value)
        | none => s.await item
      else do
        let s ← s.flip c item
        readShort c rest s

/-- What an argument is, by its form. -/
inductive Form where
  | escape
  | long (piece : List Glyph)
  | short (piece : List Glyph)
  | word
  deriving DecidableEq, Repr

/-- The form of an argument. A single hyphen is a word. -/
def Form.of : List Glyph → Form
  | [.char '-', .char '-'] => .escape
  | .char '-' :: .char '-' :: piece => .long piece
  | [.char '-'] => .word
  | .char '-' :: piece => .short piece
  | _ => .word

/-- The commands that a word may name in a context, the one for help included. -/
def commandNames (c : Context) : List String :=
  if c.commands.isEmpty then [] else helpCommand :: c.commands.map Prod.fst

/-- Help on the command that words name, each in the context of the one before it. -/
def readHelp : Context → List (List Glyph) → Error
  | c, [] => .help c
  | c, word :: rest =>
    match (text? word).bind c.enter? with
    | some next => readHelp next rest
    | none =>
      if !c.commands.isEmpty ∧ text? word = some helpCommand then
        match rest with
        | [] => .help c
        | more :: _ => .unrecognized (shown more)
      else .unrecognized (shown word)

/-- An argument that has no place. -/
def misplaced (c : Context) (trailing : Bool) (word : List Glyph) : Error :=
  if c.commands.isEmpty then .unexpected (shown word)
  else if trailing ∧ ((text? word).map (commandNames c).contains).getD false then
    .unexpected (shown word)
  else .unrecognized (shown word)

/-- An argument that is told by its place. -/
def readPlaced (c : Context) (word : List Glyph) (s : State) : Except Error State :=
  match c.positional?, s.placed with
  | some item, false => do
    let s ← s.resolve
    return { s with pending := .holding item (octets word), placed := true }
  | _, _ => .error (misplaced c s.trailing word)

/-- The command once the arguments have ended. -/
def finish (env : Environment) (c : Context) (s : State) : Except Error Command := do
  let s ← s.resolve
  let given ← s.given.fromEnvironment env c.items
  given.command c

/-- Reads the arguments of a context. -/
def read (env : Environment) : Context → State → List (List Glyph) → Except Error Command
  | c, s, [] => finish env c s
  | c, s, word :: rest =>
    if s.trailing then do
      let s ← readPlaced c word s
      read env c s rest
    else
      match (text? word).bind c.enter?, Form.of word, s.pending with
      | some next, _, _ => read env next .start rest
      | none, .escape, _ => read env c { s with trailing := true } rest
      | none, .long piece, _ => do
        let s ← readLong c piece s
        read env c s rest
      | none, .short piece, _ => do
        let s ← readShort c piece s
        read env c s rest
      | none, .word, .awaiting item =>
        read env c { s with pending := .holding item (octets word) } rest
      | none, .word, _ =>
        if !c.commands.isEmpty ∧ text? word = some helpCommand then .error (readHelp c rest)
        else do
          let s ← readPlaced c word s
          read env c s rest

/-- The command that a command line asks for. -/
def parse (env : Environment) (arguments : List Bytes) : Except Error Command :=
  read env .root .start (arguments.map Glyph.ofBytes)

end LiveQuery.Arguments
