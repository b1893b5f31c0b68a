import LiveQuery.Json.Decode
import LiveQuery.Json.Printer
import LiveQuery.Text.Inspect

/-!
# Endpoints

An endpoint is a method and a path below the base URL of the API. `EndpointName` names the ones the
client knows; a name is looked up by its exact spelling.
-/

namespace LiveQuery

/-- How an endpoint is asked. -/
inductive Method where
  | get
  | post
  deriving DecidableEq, Repr

namespace Method

/-- The name of a method on the wire. -/
def text : Method → String
  | get => "GET"
  | post => "POST"

/-- Whether requests with this method carry a body. -/
def hasBody : Method → Bool
  | get => false
  | post => true

/-- The methods by their names. -/
def variants : List (String × Method) := [("GET", get), ("POST", post)]

/-- The method that a JSON text names. -/
def ofJson? (text : List Glyph) : Except Json.Error Method :=
  Json.Doc.decodeAll (Json.Doc.variant Json.depthLimit variants) text

/-- A method spelled out. -/
def inspect : Method → String
  | get => "Get"
  | post => "Post"

end Method

/-- A method and a path below the base URL. -/
structure Endpoint where
  method : Method
  path : String
  deriving DecidableEq, Repr

namespace Endpoint

/-- The members of an endpoint as JSON, in the order in which they are written. -/
def members (e : Endpoint) : List (String × Json) :=
  [("method", .string e.method.text), ("url", .string e.path)]

/-- The JSON text of an endpoint. -/
def jsonText (e : Endpoint) : String := (Json.object e.members).compact

/-- An endpoint spelled out. -/
def inspect (e : Endpoint) : String :=
  Text.record "Endpoint" [("method", e.method.inspect), ("url", Text.quoted e.path)]

end Endpoint

/-- The endpoints that have a name. -/
inductive EndpointName where
  | flow
  | flows
  | flowsCount
  | deployment
  | deployments
  | deploymentsCount
  | flowRun
  | flowRuns
  | flowRunsCount
  | taskRun
  | taskRuns
  | taskRunsCount
  | settings
  | databaseClear
  | version
  deriving DecidableEq, Repr

namespace EndpointName

/-- Every name, in the order of the listing. -/
def all : List EndpointName :=
  [flow, flows, flowsCount, deployment, deployments, deploymentsCount, flowRun, flowRuns,
    flowRunsCount, taskRun, taskRuns, taskRunsCount, settings, databaseClear, version]

/-- The spelling of a name. -/
def text : EndpointName → String
  | flow => "flow"
  | flows => "flows"
  | flowsCount => "flows_count"
  | deployment => "deployment"
  | deployments => "deployments"
  | deploymentsCount => "deployments_count"
  | flowRun => "flow_run"
  | flowRuns => "flow_runs"
  | flowRunsCount => "flow_runs_count"
  | taskRun => "task_run"
  | taskRuns => "task_runs"
  | taskRunsCount => "task_runs_count"
  | settings => "settings"
  | databaseClear => "database_clear"
  | version => "version"

/-- What a name stands for. -/
def endpoint : EndpointName → Endpoint
  | flow => ⟨.get, "/flows/"⟩
  | flows => ⟨.post, "/flows/filter/"⟩
  | flowsCount => ⟨.post, "/flows/count/"⟩
  | deployment => ⟨.get, "/deployments/"⟩
  | deployments => ⟨.post, "/deployments/filter/"⟩
  | deploymentsCount => ⟨.post, "/deployments/count/"⟩
  | flowRun => ⟨.get, "/flow_runs/"⟩
  | flowRuns => ⟨.post, "/flow_runs/filter/"⟩
  | flowRunsCount => ⟨.post, "/flow_runs/count/"⟩
  | taskRun => ⟨.get, "/task_runs/"⟩
  | taskRuns => ⟨.post, "/task_runs/filter/"⟩
  | taskRunsCount => ⟨.post, "/task_runs/count/"⟩
  | settings => ⟨.get, "/admin/settings"⟩
  | databaseClear => ⟨.post, "/admin/database/clear"⟩
  | version => ⟨.get, "/admin/version"⟩

/-- The name with a spelling. -/
def ofText? (s : String) : Option EndpointName := all.find? fun n => n.text = s

/-- The words for a spelling that is no name. -/
def unknownMessage (s : String) : String := s!"Unknown endpoint: {s}"

/-- The name that a JSON text holds. -/
def ofJson? (text : List Glyph) : Except Json.Error EndpointName :=
  Json.Doc.decodeAll (Json.Doc.variant Json.depthLimit (all.map fun n => (n.text, n))) text

end EndpointName

/-- The endpoint with a name, if the name is known. -/
def Endpoint.lookup? (name : String) : Option Endpoint :=
  (EndpointName.ofText? name).map EndpointName.endpoint

end LiveQuery
