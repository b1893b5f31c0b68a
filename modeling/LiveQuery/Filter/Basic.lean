import LiveQuery.Filter.Entity
import LiveQuery.Json.Printer

/-!
# Filters

The body of a filter or count request: how many results, from where on, in which order, and what is
asked of each kind of entity. Every other member of the body is kept as it was given. A field that
is not set is left out of the encoded body, so that the empty filter is the empty object.
-/

namespace LiveQuery

/-- The body of a filter or count request. -/
structure Filter where
  limit : Option UInt32
  offset : Option UInt32
  sort : Option String
  flows : Option EntityFilter
  flowRuns : Option EntityFilter
  taskRuns : Option EntityFilter
  deployments : Option EntityFilter
  /-- Every other member, by its name. -/
  extra : Json.Members

namespace Filter

/-- The members with a field of their own. -/
inductive Field where
  | limit
  | offset
  | sort
  | flows
  | flowRuns
  | taskRuns
  | deployments
  deriving DecidableEq, Repr

namespace Field

/-- Every field, in the order in which fields are encoded. -/
def all : List Field := [limit, offset, sort, flows, flowRuns, taskRuns, deployments]

/-- The name of a field. -/
def text : Field → String
  | limit => "limit"
  | offset => "offset"
  | sort => "sort"
  | flows => "flows"
  | flowRuns => "flow_runs"
  | taskRuns => "task_runs"
  | deployments => "deployments"

/-- The field with a name. -/
def ofText? (s : String) : Option Field := all.find? fun f => f.text = s

end Field

/-- The filter that asks nothing. -/
def empty : Filter := ⟨none, none, none, none, none, none, none, []⟩

/-- Whether nothing is set. -/
def isEmpty (f : Filter) : Bool :=
  f.limit.isNone && f.offset.isNone && f.sort.isNone && f.flows.isNone && f.flowRuns.isNone
    && f.taskRuns.isNone && f.deployments.isNone && f.extra.isEmpty

/-- The value of a field, where it is set. -/
def get? (make : MakeObject) (f : Filter) : Field → Option Json
  | .limit => f.limit.map fun n => .nat n.toNat
  | .offset => f.offset.map fun n => .nat n.toNat
  | .sort => f.sort.map .string
  | .flows => f.flows.map (EntityFilter.encode make)
  | .flowRuns => f.flowRuns.map (EntityFilter.encode make)
  | .taskRuns => f.taskRuns.map (EntityFilter.encode make)
  | .deployments => f.deployments.map (EntityFilter.encode make)

/-- The fields that are set, as members. -/
def declared (make : MakeObject) (f : Filter) : List (String × Json) :=
  Field.all.filterMap fun field => (f.get? make field).map (field.text, ·)

/-- The filter as a value: its fields, then everything else. -/
def encode (make : MakeObject) (f : Filter) : Json := make (f.declared make ++ f.extra)

/-- The filter as a JSON value; of two members with one key the later one counts. -/
def toJson (f : Filter) : Json := f.encode Json.obj

/-- The filter as a text in which the fields keep their order and precede everything else. -/
def text (f : Filter) : String := (f.encode Json.object).compact

/-- Takes one field out of a text; null leaves it unset. -/
def setField (depth : Nat) (f : Filter) (d : Json.Doc) : Field → Except Json.Error Filter
  | .limit => return { f with limit := ← d.optional Json.Doc.u32 }
  | .offset => return { f with offset := ← d.optional Json.Doc.u32 }
  | .sort => return { f with sort := ← d.optional Json.Doc.text }
  | .flows => return { f with flows := ← d.optional (EntityFilter.ofDoc depth) }
  | .flowRuns => return { f with flowRuns := ← d.optional (EntityFilter.ofDoc depth) }
  | .taskRuns => return { f with taskRuns := ← d.optional (EntityFilter.ofDoc depth) }
  | .deployments => return { f with deployments := ← d.optional (EntityFilter.ofDoc depth) }

/-- Keeps a member that is no field. -/
def keep (name : String) (x : Json) (f : Filter) : Filter :=
  { f with extra := Json.insert name x f.extra }

/-- How a filter is taken out of a text. -/
def openRecord : Json.OpenRecord Filter Field where
  expected := "struct FilterBody"
  field? := Field.ofText?
  empty := empty
  setField := setField
  keep := keep

/-- Takes a filter out of a text. -/
def ofDoc (depth : Nat) (d : Json.Doc) : Except Json.Error Filter := openRecord.ofDoc depth d

/-- The filter that a JSON text holds. -/
def ofGlyphs? (text : List Glyph) : Except Json.Error Filter :=
  Json.Doc.decodeAll (ofDoc Json.depthLimit) text

/-- The filter that a JSON text holds. -/
def parse (text : String) : Except Json.Error Filter := ofGlyphs? (Glyph.ofString text)

/-- The filter spelled out. -/
def inspect (f : Filter) : String :=
  let number (n : UInt32) := toString n.toNat
  Text.record "FilterBody"
    [("limit", Text.maybe number f.limit), ("offset", Text.maybe number f.offset),
      ("sort", Text.maybe Text.quoted f.sort),
      ("flows", Text.maybe EntityFilter.inspect f.flows),
      ("flow_runs", Text.maybe EntityFilter.inspect f.flowRuns),
      ("task_runs", Text.maybe EntityFilter.inspect f.taskRuns),
      ("deployments", Text.maybe EntityFilter.inspect f.deployments),
      ("extra", Text.mapped (Json.inspectMembers f.extra))]

/-! ## Building -/

/-- One call of a builder. -/
inductive Setting where
  | limit (n : UInt32)
  | offset (n : UInt32)
  | sort (key : String)
  | flows (filter : EntityFilter)
  | flowRuns (filter : EntityFilter)
  | taskRuns (filter : EntityFilter)
  | deployments (filter : EntityFilter)

/-- The filter after a builder was called. -/
def set (f : Filter) : Setting → Filter
  | .limit n => { f with limit := some n }
  | .offset n => { f with offset := some n }
  | .sort key => { f with sort := some key }
  | .flows filter => { f with flows := some filter }
  | .flowRuns filter => { f with flowRuns := some filter }
  | .taskRuns filter => { f with taskRuns := some filter }
  | .deployments filter => { f with deployments := some filter }

/-- The filter that builders make of the empty one, called in turn. -/
def build (settings : List Setting) : Filter := settings.foldl set empty

end Filter

/-- A filter as the command line gives it: a JSON text, and numbers that override what it says. -/
structure FilterFlags where
  body : Option String
  limit : Option UInt32
  offset : Option UInt32
  deriving DecidableEq, Repr, Inhabited

/-- The filter that the flags ask for. -/
def FilterFlags.filter? (flags : FilterFlags) : Except Json.Error Filter := do
  let base ← match flags.body with
    | some text => Filter.parse text
    | none => .ok .empty
  return { base with limit := flags.limit <|> base.limit, offset := flags.offset <|> base.offset }

end LiveQuery
