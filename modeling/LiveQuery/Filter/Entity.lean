import LiveQuery.Filter.Operator

/-!
# Filters of one kind of entity

What is asked of flows, of flow runs, of task runs or of deployments. The usual properties have
fields; whatever else the server understands is kept as it was given and encoded as it is.
-/

namespace LiveQuery

/-- A filter of one kind of entity. -/
structure EntityFilter where
  id : Option AnyOf
  name : Option AnyOf
  tags : Option AllOf
  state : Option StateFilter
  deploymentId : Option AnyOf
  flowVersion : Option AnyOf
  isScheduleActive : Option Equals
  /-- Every other operator, by its name. -/
  extra : Json.Members

namespace EntityFilter

/-- The properties with a field of their own. -/
inductive Field where
  | id
  | name
  | tags
  | state
  | deploymentId
  | flowVersion
  | isScheduleActive
  deriving DecidableEq, Repr

namespace Field

/-- Every field, in the order in which fields are encoded. -/
def all : List Field := [id, name, tags, state, deploymentId, flowVersion, isScheduleActive]

/-- The name of a field. -/
def text : Field → String
  | id => "id"
  | name => "name"
  | tags => "tags"
  | state => "state"
  | deploymentId => "deployment_id"
  | flowVersion => "flow_version"
  | isScheduleActive => "is_schedule_active"

/-- The field with a name. -/
def ofText? (s : String) : Option Field := all.find? fun f => f.text = s

end Field

/-- A filter that asks nothing. -/
def empty : EntityFilter := ⟨none, none, none, none, none, none, none, []⟩

/-- The value of a field, where it is set. -/
def get? (make : MakeObject) (e : EntityFilter) : Field → Option Json
  | .id => e.id.map (AnyOf.encode make)
  | .name => e.name.map (AnyOf.encode make)
  | .tags => e.tags.map (AllOf.encode make)
  | .state => e.state.map (StateFilter.encode make)
  | .deploymentId => e.deploymentId.map (AnyOf.encode make)
  | .flowVersion => e.flowVersion.map (AnyOf.encode make)
  | .isScheduleActive => e.isScheduleActive.map (Equals.encode make)

/-- The fields that are set, as members. -/
def declared (make : MakeObject) (e : EntityFilter) : List (String × Json) :=
  Field.all.filterMap fun f => (e.get? make f).map (f.text, ·)

/-- The filter as a value: its fields, then everything else. -/
def encode (make : MakeObject) (e : EntityFilter) : Json := make (e.declared make ++ e.extra)

/-- Takes one field out of a text; null leaves it unset. -/
def setField (depth : Nat) (e : EntityFilter) (d : Json.Doc) :
    Field → Except Json.Error EntityFilter
  | .id => return { e with id := ← d.optional (AnyOf.ofDoc depth) }
  | .name => return { e with name := ← d.optional (AnyOf.ofDoc depth) }
  | .tags => return { e with tags := ← d.optional (AllOf.ofDoc depth) }
  | .state => return { e with state := ← d.optional (StateFilter.ofDoc depth) }
  | .deploymentId => return { e with deploymentId := ← d.optional (AnyOf.ofDoc depth) }
  | .flowVersion => return { e with flowVersion := ← d.optional (AnyOf.ofDoc depth) }
  | .isScheduleActive => return { e with isScheduleActive := ← d.optional (Equals.ofDoc depth) }

/-- Keeps a member that is no field. -/
def keep (name : String) (x : Json) (e : EntityFilter) : EntityFilter :=
  { e with extra := Json.insert name x e.extra }

/-- How the filter is taken out of a text. -/
def openRecord : Json.OpenRecord EntityFilter Field where
  expected := "struct EntityFilter"
  field? := Field.ofText?
  empty := empty
  setField := setField
  keep := keep

/-- Takes the filter out of a text. -/
def ofDoc (depth : Nat) (d : Json.Doc) : Except Json.Error EntityFilter := openRecord.ofDoc depth d

/-- The filter spelled out. -/
def inspect (e : EntityFilter) : String :=
  Text.record "EntityFilter"
    [("id", Text.maybe AnyOf.inspect e.id), ("name", Text.maybe AnyOf.inspect e.name),
      ("tags", Text.maybe AllOf.inspect e.tags), ("state", Text.maybe StateFilter.inspect e.state),
      ("deployment_id", Text.maybe AnyOf.inspect e.deploymentId),
      ("flow_version", Text.maybe AnyOf.inspect e.flowVersion),
      ("is_schedule_active", Text.maybe Equals.inspect e.isScheduleActive),
      ("extra", Text.mapped (Json.inspectMembers e.extra))]

/-! ## Building -/

/-- Sets the identifiers. -/
def ids (values : List String) (e : EntityFilter) : EntityFilter := { e with id := some ⟨values⟩ }

/-- Sets the names. -/
def names (values : List String) (e : EntityFilter) : EntityFilter :=
  { e with name := some ⟨values⟩ }

/-- Sets the tags. -/
def withTags (values : List String) (e : EntityFilter) : EntityFilter :=
  { e with tags := some ⟨values⟩ }

/-- Sets the types of state, and leaves the names of state as they are. -/
def stateTypes (values : List String) (e : EntityFilter) : EntityFilter :=
  { e with state := some { e.state.getD .any with type := some ⟨values⟩ } }

/-- Sets the names of state, and leaves the types of state as they are. -/
def stateNames (values : List String) (e : EntityFilter) : EntityFilter :=
  { e with state := some { e.state.getD .any with name := some ⟨values⟩ } }

/-- One call of a builder. -/
inductive Setting where
  | ids (values : List String)
  | names (values : List String)
  | tags (values : List String)
  | stateTypes (values : List String)
  | stateNames (values : List String)
  deriving DecidableEq, Repr

/-- The filter after a builder was called. -/
def set (e : EntityFilter) : Setting → EntityFilter
  | .ids values => e.ids values
  | .names values => e.names values
  | .tags values => e.withTags values
  | .stateTypes values => e.stateTypes values
  | .stateNames values => e.stateNames values

/-- The filter that builders make of the empty one, called in turn. -/
def build (settings : List Setting) : EntityFilter := settings.foldl set empty

end EntityFilter
end LiveQuery
