/-
The registry of engine nodes and the routes that read it.  The coordinator lists
the nodes, and sends a task to the first of the healthy ones.
-/
import Conductor.ControlPlane.Workflows
import Conductor.Python.Access
import Conductor.Python.Calendar
import Conductor.Python.Ranking

namespace Conductor

/-- A moment on the UTC clock before the year 10000. -/
abbrev Moment := { t : Time // t < endOfTime }

def Moment.isoformat (moment : Moment) : String := (Datetime.utc moment.1 moment.2).isoformat

/-- A `dict[str, str]` of labels. -/
abbrev Tags := List (String × String)

/-- A registered remote engine. -/
structure EngineNode where
  engineId : String
  name : String
  baseUrl : String
  tags : Tags
  capabilities : List String
  registeredAt : Moment
  lastSeen : Moment
  healthy : Bool

namespace EngineNode

/-- The node satisfies all required tag constraints. -/
def matchesTags (node : EngineNode) (required : Tags) : Bool :=
  required.all fun tag => node.tags.lookup tag.1 == some tag.2

/-- The node advertises support for the capability. -/
def hasCapability (node : EngineNode) (name : String) : Bool := node.capabilities.contains name

end EngineNode

structure EngineRegistry where
  nodes : List (String × EngineNode)

namespace EngineRegistry

def empty : EngineRegistry := ⟨[]⟩

/-- `self._nodes.values()`. -/
def registered (registry : EngineRegistry) : List EngineNode := registry.nodes.map (·.2)

def register (registry : EngineRegistry) (node : EngineNode) : EngineRegistry :=
  ⟨Assoc.insert node.engineId node registry.nodes⟩

/-- Unknown ids are ignored. -/
def deregister (registry : EngineRegistry) (engineId : String) : EngineRegistry :=
  ⟨Assoc.erase engineId registry.nodes⟩

def get (registry : EngineRegistry) (engineId : String) : Option EngineNode :=
  registry.nodes.lookup engineId

/-- Note that the node was seen, and whether it considers itself healthy. -/
def heartbeat (registry : EngineRegistry) (engineId : String) (healthy : Bool) (now : Moment) :
    EngineRegistry :=
  match registry.get engineId with
  | none => registry
  | some node =>
      ⟨Assoc.insert engineId { node with lastSeen := now, healthy := healthy } registry.nodes⟩

/-- The healthy nodes that match the tags, the one seen last first. -/
def select (registry : EngineRegistry) (tags : Option Tags) : List EngineNode :=
  let healthy := registry.registered.filter (·.healthy)
  let healthy := match tags with
    | none | some [] => healthy
    | some tags => healthy.filter (·.matchesTags tags)
  sortedDescending (·.lastSeen) healthy

end EngineRegistry

inductive ClusterOp where
  | register (node : EngineNode)
  | heartbeat (engineId : String) (healthy : Bool) (now : Moment)
  | deregister (engineId : String)

namespace EngineRegistry

def step (registry : EngineRegistry) : ClusterOp → EngineRegistry
  | .register node => registry.register node
  | .heartbeat engineId healthy now => registry.heartbeat engineId healthy now
  | .deregister engineId => registry.deregister engineId

/-- The registry after these calls. -/
def run (ops : List ClusterOp) : EngineRegistry := ops.foldl step empty

end EngineRegistry

structure EngineNodeResponse where
  engineId : String
  name : String
  baseUrl : String
  tags : Tags
  capabilities : List String
  registeredAt : String
  lastSeen : String
  healthy : Bool

def EngineNode.toResponse (node : EngineNode) : EngineNodeResponse :=
  ⟨node.engineId, node.name, node.baseUrl, node.tags, node.capabilities,
    node.registeredAt.isoformat, node.lastSeen.isoformat, node.healthy⟩

structure EngineListResponse where
  items : List EngineNodeResponse
  total : Nat

/-- `k, v = t.split("=", 1)`. -/
def splitTag (text : String) : Option (String × String) :=
  if '=' ∈ text.toList then
    let key := text.toList.takeWhile (· ≠ '=')
    some (String.ofList key, String.ofList (text.toList.drop (key.length + 1)))
  else none

/-- The dict of the given tags; a later value of a key replaces an earlier one. -/
def tagFilter : List String → Tags → Except ApiError Tags
  | [], filter => .ok filter
  | text :: texts, filter =>
      match splitTag text with
      | none =>
          .error (.http 400 "invalid_tag" ("Tag must be key=value, got: " ++ pyRepr text))
      | some tag => tagFilter texts (Assoc.insert tag.1 tag.2 filter)

/-- `GET /v1/engines`. -/
def listEngines (registry : EngineRegistry) (tag : Option (List String)) :
    Except ApiError EngineListResponse :=
  (tagFilter (tag.getD []) []).map fun filter =>
    let nodes := registry.select (if filter.isEmpty then none else some filter)
    let items := nodes.map (·.toResponse)
    ⟨items, items.length⟩

/-- The body of `POST /v1/engines/tasks/run`. -/
structure SubmitToEngineRequest where
  name : String
  capability : String
  input : Dict
  metadata : Dict
  maxRetries : Nat
  workflowId : Option String
  engineTags : Tags

/-- `body.model_dump(exclude={"engine_tags"})`. -/
def SubmitToEngineRequest.modelDump (body : SubmitToEngineRequest) : Dict :=
  [("name", .str body.name), ("capability", .str body.capability), ("input", .dict body.input),
    ("metadata", .dict body.metadata), ("max_retries", .int body.maxRetries),
    ("workflow_id", .ofStr? body.workflowId)]

/-- The HTTP client: what a post gives, once its status was checked and its body
was decoded, and which exceptions are its own. -/
structure HttpClient where
  post : String → Dict → Except PyExc Value
  isHttpError : PyExc → Bool

/-- The node that a task was sent to, and what came of the request. -/
structure RouteOutcome where
  sentTo : Option EngineNode
  reply : Except ApiError Value

/-- `{tags!r}`. -/
def Tags.repr (tags : Tags) : String :=
  "\x7b" ++ ", ".intercalate (tags.map fun tag => pyRepr tag.1 ++ ": " ++ pyRepr tag.2) ++ "\x7d"

/-- A result that is a dict is told which node it came from. -/
def annotate (node : EngineNode) : Value → Except PyExc Value
  | .dict items => do
      let metadata := (items.lookup "metadata").getD (.dict [])
      let routed ← metadata.setItem "routed_to" (.dict
        [("engine_id", .str node.engineId), ("name", .str node.name),
          ("base_url", .str node.baseUrl)])
      pure (.dict (Dict.insert "metadata" (.dict routed) items))
  | result => pure result

/-- `POST /v1/engines/tasks/run`. -/
def runTaskAutoRoute (client : HttpClient) (registry : EngineRegistry)
    (body : SubmitToEngineRequest) : RouteOutcome :=
  match registry.select (if body.engineTags.isEmpty then none else some body.engineTags) with
  | [] =>
      let described := if body.engineTags.isEmpty then ""
        else " matching tags " ++ Tags.repr body.engineTags
      ⟨none, .error (.http 400 "no_available_engines"
        ("No healthy engine nodes available" ++ described))⟩
  | node :: _ =>
      let answered := do
        let result ← client.post (node.baseUrl ++ "/v1/tasks/run") body.modelDump
        annotate node result
      ⟨some node, answered.mapError fun e =>
        if client.isHttpError e then
          .http 502 "proxy_error" ("Engine " ++ pyRepr node.engineId ++ " (" ++ node.name ++
            ") is unreachable: " ++ e.text.getD "")
        else .raised e⟩

end Conductor
