/-
The policy engine that asks an OPA server.  Whatever goes wrong between the
request and the decision ends in one `except` clause.
-/
import Conductor.Python.Access
import Conductor.Python.Pydantic
import Conductor.Python.Text
import Conductor.Runtime.Policy

namespace Conductor

/-- The part of a response that the engine reads.  `statusError` is what
`raise_for_status` raises of a response that is no success. -/
structure HttpResponse where
  statusCode : Nat
  statusError : PyExc
  json : Except PyExc Value

/-- The status is `2xx`. -/
def HttpResponse.isSuccess (response : HttpResponse) : Prop :=
  200 ≤ response.statusCode ∧ response.statusCode < 300

instance (response : HttpResponse) : Decidable response.isSuccess := instDecidableAnd

def HttpResponse.raiseForStatus (response : HttpResponse) : Except PyExc Unit :=
  if response.isSuccess then .ok () else .error response.statusError

/-- `httpx.post` of a URL, a JSON payload, headers and a timeout. -/
abbrev HttpPost := String → Dict → List (String × String) → Rat → Except PyExc HttpResponse

def CapabilityDescriptor.modelDump (capability : CapabilityDescriptor) : Dict :=
  [("name", .str capability.name), ("description", .str capability.description),
    ("risk_level", .str capability.riskLevel.value),
    ("tags", .list (capability.tags.map .str)),
    ("require_approval", .bool capability.requireApproval)]

/-- `OPAInput.from_context(task, context).model_dump()`. -/
def opaInput (task : TaskRecord) (context : PolicyContext) : Dict :=
  [("task", .dict
      [("id", .str task.taskId), ("name", .str task.name), ("capability", .str task.capability),
        ("input", .dict task.input), ("max_retries", .int task.maxRetries),
        ("workflow_id", .ofStr? task.workflowId)]),
    ("capability", .dict context.capability.modelDump), ("workdir", .str context.workdir)]

/-- Policy engine that evaluates tasks against an OPA REST API. -/
structure OPAPolicyEngine where
  url : String
  policyPath : String
  timeoutSeconds : Rat
  failOpen : Bool
  headers : List (String × String)

/-- A decision with a reason that has yet to be validated. -/
def policyDecision (p : Pydantic) (decision : PolicyDecisionType) (reason : Value)
    (metadata : Dict) : Except PyExc PolicyDecision :=
  (Pydantic.orNone p.str reason).map fun reason => ⟨decision, reason, metadata⟩

namespace OPAPolicyEngine

def new (url policyPath : String) (timeoutSeconds : Rat) (failOpen : Bool)
    (extraHeaders : List (String × String)) : OPAPolicyEngine where
  url := String.ofList (url.toList.rdropWhile (· == '/'))
  policyPath := String.ofList ((policyPath.toList.dropWhile (· == '/')).rdropWhile (· == '/'))
  timeoutSeconds := timeoutSeconds
  failOpen := failOpen
  headers := extraHeaders.foldl (fun headers header => Assoc.insert header.1 header.2 headers)
    [("Content-Type", "application/json")]

def queryUrl (engine : OPAPolicyEngine) : String :=
  engine.url ++ "/v1/data/" ++ engine.policyPath

def buildPayload (task : TaskRecord) (context : PolicyContext) : Dict :=
  [("input", .dict (opaInput task context))]

def mapResponse (p : Pydantic) (data : Value) : Except PyExc PolicyDecision := do
  let result := ((← data.getItem "result").getD .none).orElse (.dict [])
  let reason := (← result.getItem "reason").getD .none
  let requireApproval := (← result.getItem "require_approval").getD .none
  if requireApproval.truthy then
    policyDecision p .requireApproval reason [("opa_result", result)]
  else
    let allow := (← result.getItem "allow").getD (.bool false)
    if allow.truthy then policyDecision p .allow reason [("opa_result", result)]
    else
      policyDecision p .deny (reason.orElse (.str "OPA policy denied the request"))
        [("opa_result", result)]

/-- The decision where no answer was mapped. -/
def unreachable (engine : OPAPolicyEngine) (exc : PyExc) : Except PyExc PolicyDecision := do
  let text ← exc.str
  if engine.failOpen then
    return ⟨.allow, some ("OPA unreachable (fail-open): " ++ text),
      [("opa_error", .str text), ("fail_open", .bool true)]⟩
  else
    return ⟨.deny, some ("OPA unreachable (fail-closed): " ++ text),
      [("opa_error", .str text), ("fail_open", .bool false)]⟩

/-- The body of the `try` statement. -/
def ask (engine : OPAPolicyEngine) (p : Pydantic) (post : HttpPost) (task : TaskRecord)
    (context : PolicyContext) : Except PyExc PolicyDecision := do
  let response ← post engine.queryUrl (buildPayload task context) engine.headers
    engine.timeoutSeconds
  response.raiseForStatus
  mapResponse p (← response.json)

def evaluate (engine : OPAPolicyEngine) (p : Pydantic) (post : HttpPost) (task : TaskRecord)
    (context : PolicyContext) : Except PyExc PolicyDecision :=
  match engine.ask p post task context with
  | .ok decision => .ok decision
  | .error exc => if exc.isException then engine.unreachable exc else .error exc

end OPAPolicyEngine

/-- The body is an object whose result is an object that allows, and asks for no
approval. -/
def ExplicitAllow (body : Value) : Prop :=
  ∃ items result, body = .dict items ∧ items.lookup "result" = some (.dict result) ∧
    result.lookup "allow" = some (.bool true) ∧
      (result.lookup "require_approval" = none ∨
        result.lookup "require_approval" = some (.bool false) ∨
          result.lookup "require_approval" = some .none)

/-- The result of a body; a missing or falsy result is an empty one. -/
def opaResult : Value → Option Dict
  | .dict items =>
      match ((items.lookup "result").getD .none).orElse (.dict []) with
      | .dict result => some result
      | _ => none
  | _ => none

def resultField (result : Dict) (name : String) : Value := (result.lookup name).getD .none

/-- The fields of the result are truthy as those of an allowing result are. -/
def Lenient (result : Dict) : Prop :=
  (resultField result "require_approval").truthy = false ∧
    (resultField result "allow").truthy = true

/-- The reason is neither null nor a text, in a decision that takes it. -/
def Misreasoned (result : Dict) : Prop :=
  (resultField result "reason" ≠ .none ∧ ∀ text, resultField result "reason" ≠ .str text) ∧
    ((resultField result "reason").truthy = true ∨
      (resultField result "require_approval").truthy = true ∨
        (resultField result "allow").truthy = true)

/-- The body has no result that a decision can be made of. -/
def Malformed (body : Value) : Prop :=
  ∀ result, opaResult body = some result → Misreasoned result

/-- Some value of the result passes for an allow. -/
def LooselyAllows (body : Value) : Prop := ∃ result, opaResult body = some result ∧ Lenient result

/-- A field of type `str | None` takes texts and null, and refuses the rest with a
message. -/
structure Pydantic.TakesText (p : Pydantic) : Prop where
  text : ∀ s, p.str (.str s) = .ok s
  other : ∀ value, (∀ s, value ≠ .str s) →
    ∃ typeName message, p.str value = .error (.exception typeName message)

section

variable {p : Pydantic} {reason : Value} {result : Dict} {body : Value}

theorem orNone_eq (hreason : reason ≠ .none) :
    Pydantic.orNone p.str reason = (p.str reason).map some := by
  cases reason with
  | none => exact absurd rfl hreason
  | _ => rfl

theorem policyDecision_text (hp : p.TakesText) (decision : PolicyDecisionType) (metadata : Dict)
    (hreason : reason = .none ∨ ∃ s, reason = .str s) :
    ∃ reason?, policyDecision p decision reason metadata = .ok ⟨decision, reason?, metadata⟩ := by
  rcases hreason with hnone | ⟨s, htext⟩
  · rw [hnone]
    exact ⟨none, rfl⟩
  · have hne : reason ≠ .none := by simp [htext]
    rw [policyDecision, orNone_eq hne, htext, hp.text]
    exact ⟨some s, rfl⟩

theorem policyDecision_other (hp : p.TakesText) (decision : PolicyDecisionType) (metadata : Dict)
    (hreason : reason ≠ .none ∧ ∀ s, reason ≠ .str s) : ∃ typeName message,
    policyDecision p decision reason metadata = .error (.exception typeName message) := by
  obtain ⟨typeName, message, hrefused⟩ := hp.other reason hreason.2
  rw [policyDecision, orNone_eq hreason.1, hrefused]
  exact ⟨typeName, message, rfl⟩

/-- The decision that the fields of a result come to. -/
def resultDecision (result : Dict) : PolicyDecisionType :=
  if (resultField result "require_approval").truthy then .requireApproval
  else if (resultField result "allow").truthy then .allow
  else .deny

/-- The reason that the decision is given. -/
def resultReason (result : Dict) : Value :=
  match resultDecision result with
  | .deny => (resultField result "reason").orElse (.str "OPA policy denied the request")
  | _ => resultField result "reason"

theorem resultDecision_allow_iff : resultDecision result = .allow ↔ Lenient result := by
  rw [resultDecision, Lenient]
  cases (resultField result "require_approval").truthy with
  | true => simp
  | false =>
      cases (resultField result "allow").truthy with
      | true => simp
      | false => simp

/-- The reason is refused where the decision takes it as it is. -/
theorem misreasoned_iff : Misreasoned result ↔
    resultReason result ≠ .none ∧ ∀ s, resultReason result ≠ .str s := by
  rw [Misreasoned, resultReason, resultDecision]
  cases (resultField result "require_approval").truthy with
  | true => simp
  | false =>
      cases (resultField result "allow").truthy with
      | true => simp
      | false =>
          cases hreason : (resultField result "reason").truthy with
          | true => simp [Value.orElse, hreason]
          | false => simp [Value.orElse, hreason]

theorem mapResponse_eq (hbody : opaResult body = some result) :
    OPAPolicyEngine.mapResponse p body =
      policyDecision p (resultDecision result) (resultReason result)
        [("opa_result", .dict result)] := by
  cases body with
  | dict items =>
      have hresult : ((items.lookup "result").getD .none).orElse (.dict []) = .dict result := by
        rw [opaResult] at hbody
        split at hbody
        · rename_i found hfound
          rw [hfound, Option.some.inj hbody]
        · cases hbody
      rw [OPAPolicyEngine.mapResponse, Value.getItem, bind_of_ok rfl, hresult]
      have hallow : ((result.lookup "allow").getD (.bool false)).truthy =
          (resultField result "allow").truthy := by
        rw [resultField]
        cases result.lookup "allow" <;> rfl
      change (if (resultField result "require_approval").truthy then _ else
        if ((result.lookup "allow").getD (.bool false)).truthy then _ else _) = _
      rw [hallow, resultReason, resultDecision]
      cases (resultField result "require_approval").truthy with
      | true => rfl
      | false =>
          cases (resultField result "allow").truthy with
          | true => rfl
          | false => rfl
  | _ => cases hbody

theorem mapResponse_refused (hbody : opaResult body = none) : ∃ message,
    OPAPolicyEngine.mapResponse p body = .error (.exception "AttributeError" message) := by
  cases body with
  | dict items =>
      rw [opaResult] at hbody
      rw [OPAPolicyEngine.mapResponse, Value.getItem, bind_of_ok rfl]
      cases hresult : ((items.lookup "result").getD .none).orElse (.dict []) with
      | dict result =>
          rw [hresult] at hbody
          cases hbody
      | _ => exact ⟨_, rfl⟩
  | _ => exact ⟨_, rfl⟩

theorem malformed_iff : Malformed body ↔
    opaResult body = none ∨ ∃ result, opaResult body = some result ∧ Misreasoned result := by
  rw [Malformed]
  cases opaResult body with
  | none => simp
  | some result => simp

variable {engine : OPAPolicyEngine} {post : HttpPost} {task : TaskRecord} {context : PolicyContext}
variable {response : HttpResponse}

/-- The server answered with this status and this body. -/
structure Answers (engine : OPAPolicyEngine) (post : HttpPost) (task : TaskRecord)
    (context : PolicyContext) (response : HttpResponse) (body : Value) : Prop where
  answered : post engine.queryUrl (OPAPolicyEngine.buildPayload task context) engine.headers
    engine.timeoutSeconds = .ok response
  success : response.isSuccess
  json : response.json = .ok body

theorem Answers.ask_eq (hanswers : Answers engine post task context response body) :
    engine.ask p post task context = OPAPolicyEngine.mapResponse p body := by
  rw [OPAPolicyEngine.ask, bind_of_ok hanswers.answered, HttpResponse.raiseForStatus,
    if_pos hanswers.success, hanswers.json]
  rfl

/-- A response that cannot be mapped is taken for a server that was not reached. -/
theorem Answers.evaluate_malformed (hp : p.TakesText)
    (hanswers : Answers engine post task context response body) (hbody : Malformed body) :
    ∃ reason metadata, engine.evaluate p post task context =
      .ok ⟨if engine.failOpen then .allow else .deny, reason, metadata⟩ := by
  have hfails : ∃ typeName message,
      OPAPolicyEngine.mapResponse p body = .error (.exception typeName message) := by
    rcases malformed_iff.mp hbody with hnone | ⟨result, hresult, hreason⟩
    · obtain ⟨message, hrefused⟩ := mapResponse_refused hnone
      exact ⟨_, message, hrefused⟩
    · obtain ⟨typeName, message, hrefused⟩ := policyDecision_other hp (resultDecision result)
        [("opa_result", .dict result)] (misreasoned_iff.mp hreason)
      exact ⟨typeName, message, (mapResponse_eq hresult).trans hrefused⟩
  obtain ⟨typeName, message, hfails⟩ := hfails
  rw [OPAPolicyEngine.evaluate, hanswers.ask_eq, hfails]
  change ∃ reason metadata, engine.unreachable (.exception typeName message) = _
  rw [OPAPolicyEngine.unreachable]
  cases engine.failOpen with
  | true => exact ⟨_, _, rfl⟩
  | false => exact ⟨_, _, rfl⟩

/-- A response that can be mapped decides by the truth of its fields. -/
theorem Answers.evaluate_mapped (hp : p.TakesText)
    (hanswers : Answers engine post task context response body) (hbody : ¬ Malformed body) :
    ∃ result reason, opaResult body = some result ∧ engine.evaluate p post task context =
      .ok ⟨resultDecision result, reason, [("opa_result", .dict result)]⟩ := by
  rw [Malformed] at hbody
  push Not at hbody
  obtain ⟨result, hresult, hreason⟩ := hbody
  have htext : resultReason result = .none ∨ ∃ s, resultReason result = .str s := by
    rw [misreasoned_iff] at hreason
    by_cases hnone : resultReason result = .none
    · exact .inl hnone
    · right
      by_contra hother
      exact hreason ⟨hnone, fun s hs => hother ⟨s, hs⟩⟩
  obtain ⟨reason?, hdecision⟩ := policyDecision_text hp (resultDecision result)
    [("opa_result", .dict result)] htext
  refine ⟨result, reason?, hresult, ?_⟩
  rw [OPAPolicyEngine.evaluate, hanswers.ask_eq, mapResponse_eq hresult, hdecision]

/-- The engine decides, and allows on an explicit allow only, just where the body is
one, or cannot be mapped while errors deny, or can be and none of its values passes
for an allow. -/
theorem allows_explicitly_iff (hp : p.TakesText)
    (hanswers : Answers engine post task context response body) :
    (∃ decision, engine.evaluate p post task context = .ok decision ∧
      (decision.decision = .allow → ExplicitAllow body)) ↔
    ExplicitAllow body ∨ (Malformed body ∧ engine.failOpen = false) ∨
      (¬ Malformed body ∧ ¬ LooselyAllows body) := by
  by_cases hbody : Malformed body
  · obtain ⟨reason, metadata, hdecided⟩ := hanswers.evaluate_malformed hp hbody
    rw [hdecided]
    constructor
    · intro hproperty
      obtain ⟨decision, heq, hallow⟩ := hproperty
      cases heq
      cases hopen : engine.failOpen with
      | true => exact .inl (hallow (if_pos hopen))
      | false => exact .inr (.inl ⟨hbody, rfl⟩)
    · intro hcondition
      refine ⟨_, rfl, fun hallow => ?_⟩
      rcases hcondition with hexplicit | ⟨-, hclosed⟩ | ⟨hmapped, -⟩
      · exact hexplicit
      · rw [hclosed] at hallow
        cases hallow
      · exact absurd hbody hmapped
  · obtain ⟨result, reason, hresult, hdecided⟩ := hanswers.evaluate_mapped hp hbody
    have hloosely : LooselyAllows body ↔ resultDecision result = .allow := by
      rw [resultDecision_allow_iff, LooselyAllows, hresult]
      simp
    rw [hdecided]
    constructor
    · intro hproperty
      obtain ⟨decision, heq, hallow⟩ := hproperty
      cases heq
      by_cases hlenient : LooselyAllows body
      · exact .inl (hallow (hloosely.mp hlenient))
      · exact .inr (.inr ⟨hbody, hlenient⟩)
    · intro hcondition
      refine ⟨_, rfl, fun hallow => ?_⟩
      rcases hcondition with hexplicit | ⟨hmalformed, -⟩ | ⟨-, hstrict⟩
      · exact hexplicit
      · exact absurd hmalformed hbody
      · exact absurd (hloosely.mpr hallow) hstrict

end

theorem strict_takesText : Pydantic.strict.TakesText where
  text _ := rfl
  other value hvalue := by
    cases value with
    | str s => exact absurd rfl (hvalue s)
    | _ => exact ⟨_, _, rfl⟩

def opaEngine (failOpen : Bool) : OPAPolicyEngine :=
  .new "http://localhost:8181/" "conductor/authz" 5 failOpen []

/-- A server with one answer. -/
def opaServer (result : Value) : HttpPost :=
  fun _ _ _ _ => .ok ⟨200, .exception "HTTPStatusError" "", .ok (.dict [("result", result)])⟩

def gatedContext : PolicyContext := ⟨⟨"echo", "", .low, [], false⟩, "/"⟩

theorem opaServer_answers (failOpen : Bool) (result : Value) (task : TaskRecord) :
    Answers (opaEngine failOpen) (opaServer result) task gatedContext
      ⟨200, .exception "HTTPStatusError" "", .ok (.dict [("result", result)])⟩
      (.dict [("result", result)]) where
  answered := rfl
  success := show 200 ≤ 200 ∧ 200 < 300 by decide
  json := rfl

def deployTask : TaskRecord :=
  ⟨"t", "deploy", "echo", [], [], .pending, none, 0, 0, none, none, [], 0, 0⟩

/-- A plain allow. -/
theorem allows_explicitly_iff_plain : ∃ decision, (opaEngine false).evaluate .strict
      (opaServer (.dict [("allow", .bool true)])) deployTask gatedContext = .ok decision ∧
    (decision.decision = .allow →
      ExplicitAllow (.dict [("result", .dict [("allow", .bool true)])])) :=
  (allows_explicitly_iff strict_takesText (opaServer_answers false _ deployTask)).mpr
    (.inl ⟨_, _, rfl, rfl, rfl, .inl rfl⟩)

/-- The text `"false"` passes for an allow. -/
theorem text_allows : ¬ ∀ (p : Pydantic) (engine : OPAPolicyEngine) (post : HttpPost)
    (task : TaskRecord) (context : PolicyContext) (response : HttpResponse) (body : Value),
    p.TakesText → Answers engine post task context response body →
    ∃ decision, engine.evaluate p post task context = .ok decision ∧
      (decision.decision = .allow → ExplicitAllow body) := by
  intro hall
  obtain ⟨decision, hdecided, hallow⟩ := hall .strict (opaEngine false)
    (opaServer (.dict [("allow", .str "false")])) deployTask gatedContext _ _ strict_takesText
    (opaServer_answers false _ deployTask)
  have hallows : (opaEngine false).evaluate .strict
      (opaServer (.dict [("allow", .str "false")])) deployTask gatedContext =
        .ok ⟨.allow, none, [("opa_result", .dict [("allow", .str "false")])]⟩ := rfl
  rw [hallows] at hdecided
  cases hdecided
  obtain ⟨items, result, hbody, hresult, hexplicit, -⟩ := hallow rfl
  cases hbody
  cases hresult
  cases hexplicit

end Conductor
