/-
Approvals and cancellations over HTTP.  The name of the caller passes from the
key file through the middleware and the request model to the audit trail.
-/
import Conductor.Api.KeyRights
import Conductor.ControlPlane.Workflows
import Conductor.Python.Pydantic
import Conductor.Supervisor.Decisions

namespace Conductor

open Effects Block ApiKeyStore

/-- Approve a task that is awaiting human or policy approval. -/
structure ApproveTaskRequest where
  actor : String
  run : Bool
  metadata : Dict

def ApproveTaskRequest.modelValidate (p : Pydantic) (body : Dict) :
    Except PyExc ApproveTaskRequest := do
  let actor ← Pydantic.defaulted body "actor" "api" p.str
  let run ← Pydantic.defaulted body "run" true p.bool
  let metadata ← Pydantic.defaulted body "metadata" [] p.dict
  return ⟨actor, run, metadata⟩

/-- Cancel a task that is awaiting approval. -/
structure CancelTaskRequest where
  actor : String
  reason : Option String
  metadata : Dict

def CancelTaskRequest.modelValidate (p : Pydantic) (body : Dict) :
    Except PyExc CancelTaskRequest := do
  let actor ← Pydantic.defaulted body "actor" "api" p.str
  let reason ← Pydantic.defaulted body "reason" none (Pydantic.orNone p.str)
  let metadata ← Pydantic.defaulted body "metadata" [] p.dict
  return ⟨actor, reason, metadata⟩

/-- A `POST` to one of the two routes, by the task that its path names. -/
inductive Decision where
  | approve (taskId : TaskId)
  | cancel (taskId : TaskId)

namespace Decision

def taskId : Decision → TaskId
  | .approve taskId => taskId
  | .cancel taskId => taskId

def path : Decision → String
  | .approve taskId => "/v1/tasks/" ++ taskId ++ "/approve"
  | .cancel taskId => "/v1/tasks/" ++ taskId ++ "/cancel"

/-- The action under which the supervisor records the decision. -/
def action : Decision → String
  | .approve _ => "approved"
  | .cancel _ => "cancelled"

/-- The code of the error response. -/
def failure : Decision → String
  | .approve _ => "approve_failed"
  | .cancel _ => "cancel_failed"

/-- `body.actor or auth.actor`, or an error with what that is if it is not a text. -/
def actorOf (name : String) (auth : AuthContext) : Except Value String :=
  match (Value.str name).orElse auth.actor with
  | .str actor => .ok actor
  | actor => .error actor

/-- What the supervisor is called with. -/
def operation (p : Pydantic) (body : Dict) (auth : AuthContext) :
    Decision → Except PyExc (Except Value Operation)
  | .approve taskId => do
      let body ← ApproveTaskRequest.modelValidate p body
      return (actorOf body.actor auth).map fun actor =>
        .approveTask taskId actor (some body.metadata) body.run
  | .cancel taskId => do
      let body ← CancelTaskRequest.modelValidate p body
      return (actorOf body.actor auth).map fun actor =>
        .cancelTask taskId actor body.reason (some body.metadata)

end Decision

/-- What the routes are built on.  `isValueError` says which exceptions are a
`ValueError`. -/
structure TaskApi where
  supervisor : Supervisor
  env : Env
  fuel : Nat
  pydantic : Pydantic
  isValueError : PyExc → Bool

/-- How a request for a decision ends.  An actor that is not a text comes from a
key file that was edited by hand; what the audit entry makes of it is left open. -/
inductive DecisionEnds where
  | unauthorized (message : String)
  | invalid (e : PyExc)
  | raised (e : PyExc)
  | nameless (actor : Value)
  | answered (reply : Except ApiError TaskRecord)
  | unfinished

namespace TaskApi

variable (api : TaskApi)

/-- Status 404 if the message says that something was not found, else 400.  No
letter of the text that is searched for is the lower case of a foreign one. -/
def decisionError (code : String) (e : PyExc) : ApiError :=
  if api.isValueError e then
    match e.str with
    | .ok message =>
        if occursIn "not found".toList message.toLower.toList then .http 404 code message
        else .http 400 code message
    | .error e => .raised e
  else .raised e

/-- `approve_task` and `cancel_task` of the routes, after the middleware. -/
def handle (decision : Decision) (body : Dict) (auth : AuthContext) (k : State) :
    DecisionEnds × State :=
  match decision.operation api.pydantic body auth with
  | .error e => (.invalid e, k)
  | .ok (.error actor) => (.nameless actor, k)
  | .ok (.ok op) =>
      match api.supervisor.serve api.env api.fuel op k with
      | (none, k') => (.unfinished, k')
      | (some outcome, k') =>
          (.answered (outcome.mapError (api.decisionError decision.failure)), k')

/-- The whole way of a request, from the middleware on. -/
def post (keyEnv : KeyEnv) (sha256Hex : String → String) (server : Server) (request : Request)
    (decision : Decision) (body : Dict) (k : State) : DecisionEnds × State :=
  match (server.answer keyEnv sha256Hex request).1 with
  | some (.ok (.forwarded auth)) => api.handle decision body auth k
  | some (.ok (.unauthorized message)) => (.unauthorized message, k)
  | some (.error e) => (.raised e, k)
  | none => (.unfinished, k)

/-- The tasks after a finite run from an empty store. -/
def tasksAfter (queue : TaskQueue) (ops : List Operation) : State :=
  api.supervisor.run api.env api.fuel ops (.initial queue)

end TaskApi

theorem Decision.path_protected (decision : Decision) :
    pathIsPublic decision.path = false := by
  have htasks (rest : String) : pathIsPublic ("/v1/tasks/" ++ rest) = false := by
    simp only [pathIsPublic, publicPaths, List.contains_cons, beq_eq_false_iff_ne, ne_eq,
      Bool.or_eq_false_iff, ← String.toList_inj, String.toList_append]
    exact ⟨by simp, rfl⟩
  cases decision with
  | approve taskId =>
      rw [path, String.append_assoc]
      exact htasks _
  | cancel taskId =>
      rw [path, String.append_assoc]
      exact htasks _

section

variable {keyEnv : KeyEnv} {sha256Hex : String → String}

/-- An entry that a lookup gives is in the store that it leaves. -/
theorem wp_lookup_entry (rawKey : String) (store : ApiKeyStore) (k : KeyConfig) :
    (lookup sha256Hex rawKey).wp (keyEnv.machine.logic fun _ => True) (fun outcome store' _ =>
      ∀ entry, outcome = .ok (some entry) →
        store'.entries.lookup (sha256Hex rawKey) = some entry) store k := by
  unfold lookup
  rw [wp_bind]
  apply wp_mono (keyEnv.machine.logic_monotone _) _ (wp_history reloadIfChanged store k)
  intro outcome store₁ k₁ _
  cases outcome with
  | error e => exact fun entry hentry => nomatch hentry
  | ok reloaded =>
      dsimp only
      rw [wp_bind, wp_object]
      dsimp only
      cases hentry : store₁.entries.lookup (sha256Hex rawKey) with
      | none => exact fun entry hentry => nomatch hentry
      | some entry =>
          dsimp only
          split
          · intro found hfound
            let now := keyEnv.nowIso k₁.history
            have hsome : (Entries.modify (sha256Hex rawKey) (·.usedAt now) store₁.entries).lookup
                (sha256Hex rawKey) = some (entry.usedAt now) := by
              rw [Entries.lookup_modify, hentry, if_pos rfl]
              rfl
            exact hsome.trans (Except.ok.inj hfound)
          · exact fun entry hentry => nomatch hentry

/-- The server looked up the key of the request and found an entry of this actor. -/
structure Server.Identifies (keyEnv : KeyEnv) (sha256Hex : String → String) (server : Server)
    (request : Request) (actor : String) : Prop where
  enabled : server.store.enabled = true
  key : ∃ rawKey entry, request.bearerKey = some rawKey ∧
    (server.answer keyEnv sha256Hex request).2.store.entries.lookup (sha256Hex rawKey) =
      some entry ∧ entry.actor = .str actor

/-- The middleware passes on the actor of the key. -/
theorem Server.Identifies.context {server : Server} {request : Request} {actor : String}
    (hkey : server.Identifies keyEnv sha256Hex request actor)
    (hprotected : pathIsPublic request.path = false) {auth : AuthContext}
    (hanswer : (server.answer keyEnv sha256Hex request).1 = some (.ok (.forwarded auth))) :
    auth.actor = .str actor := by
  obtain ⟨rawKey, entry, hraw, hentry, hactor⟩ := hkey.key
  have hwp : (dispatch sha256Hex request).wp (keyEnv.machine.logic fun _ => True)
      (fun outcome store' _ => ∀ auth, outcome = .ok (.forwarded auth) →
        ∃ entry, store'.entries.lookup (sha256Hex rawKey) = some entry ∧
          auth.actor = entry.actor) server.store server.world := by
    unfold dispatch
    rw [wp_bind, wp_object]
    dsimp only
    rw [hkey.enabled, hprotected, Bool.not_true, Bool.false_or, if_neg Bool.false_ne_true, hraw]
    dsimp only
    rw [wp_bind]
    apply wp_mono (keyEnv.machine.logic_monotone _) _ (wp_lookup_entry rawKey _ _)
    intro outcome store' k' hlooked
    cases outcome with
    | error e => exact fun auth hforwarded => nomatch hforwarded
    | ok found? =>
        cases found? with
        | none => exact fun auth hforwarded => nomatch hforwarded
        | some found =>
            intro auth' hforwarded
            have hcontext : AuthContext.new found.actor found.scopes = auth' := by
              cases hforwarded
              rfl
            exact ⟨found, hlooked found rfl, hcontext ▸ rfl⟩
  have hends := ((keyEnv.machine.wp_iff_exec _ _ _ _).mp hwp).1
  rw [Server.answer_eq, Server.call] at hanswer hentry
  cases hexec : ((dispatch sha256Hex request).run server.store).exec keyEnv.machine
      server.world with
  | mk ended k' =>
      rw [hexec] at hanswer hentry
      cases ended with
      | none => cases hanswer
      | some ended =>
          obtain ⟨outcome, store'⟩ := ended
          obtain ⟨found, hfound, hsame⟩ := hends _ _ hexec auth (Option.some.inj hanswer)
          have hentries : some found = some entry := hfound.symm.trans hentry
          rw [hsame, Option.some.inj hentries, hactor]

/-- A key that memory and file have under an actor identifies its holder. -/
theorem Server.Stocked.identifies (hcalm : keyEnv.Calm) {server : Server} {request : Request}
    {rawKey actor : String}
    (hstocked : server.Stocked (Entries.Has (sha256Hex rawKey) (·.actor = .str actor)))
    (henabled : server.store.enabled = true) (hprotected : pathIsPublic request.path = false)
    (hkey : request.bearerKey = some rawKey) :
    server.Identifies keyEnv sha256Hex request actor := by
  obtain ⟨saved, hreads, hsaved⟩ := hstocked.saved
  have hlasting : Entries.Lasting (Entries.Has (sha256Hex rawKey) (·.actor = .str actor)) :=
    ⟨fun _ _ _ hhas => hhas.modify fun _ hactor => hactor,
      fun _ _ hhas => hhas.modify fun _ hactor => hactor⟩
  obtain ⟨outcome, store', k', hcall, found?, -, hlooked⟩ := call_of_wp
    (wp_dispatch_reads hcalm hsaved.1 hreads henabled hprotected hkey)
  obtain ⟨-, -, entry, hentry, hactor⟩ := hlooked.kept hlasting hstocked.hasPath
    ⟨hstocked.settled, hstocked.cached⟩ hsaved
  refine ⟨henabled, rawKey, entry, hkey, ?_, hactor⟩
  rw [Server.answer_eq, hcall]
  exact hentry

end

section

variable {p : Pydantic} {body : Dict} {auth : AuthContext}

theorem ApproveTaskRequest.actor_eq {request : ApproveTaskRequest}
    (hvalid : modelValidate p body = .ok request) :
    Pydantic.defaulted body "actor" "api" p.str = .ok request.actor := by
  obtain ⟨name, hname, hrest⟩ := Except.ok_of_bind hvalid
  obtain ⟨run, -, hrest⟩ := Except.ok_of_bind hrest
  obtain ⟨metadata, -, hrequest⟩ := Except.ok_of_bind hrest
  cases hrequest
  exact hname

theorem CancelTaskRequest.actor_eq {request : CancelTaskRequest}
    (hvalid : modelValidate p body = .ok request) :
    Pydantic.defaulted body "actor" "api" p.str = .ok request.actor := by
  obtain ⟨name, hname, hrest⟩ := Except.ok_of_bind hvalid
  obtain ⟨reason, -, hrest⟩ := Except.ok_of_bind hrest
  obtain ⟨metadata, -, hrequest⟩ := Except.ok_of_bind hrest
  cases hrequest
  exact hname

/-- The supervisor is called with the actor that is chosen. -/
theorem Decision.operation_actor {decision : Decision} {op : Operation}
    (hop : decision.operation p body auth = .ok (.ok op)) :
    ∃ name actor, Pydantic.defaulted body "actor" "api" p.str = .ok name ∧
      actorOf name auth = .ok actor ∧
        op.decision = some (decision.taskId, actor, decision.action) := by
  cases decision with
  | approve taskId =>
      obtain ⟨request, hvalid, hreturn⟩ := Except.ok_of_bind hop
      refine ⟨request.actor, ?_⟩
      cases hactor : actorOf request.actor auth with
      | error value =>
          rw [hactor] at hreturn
          cases hreturn
      | ok actor =>
          rw [hactor] at hreturn
          cases hreturn
          exact ⟨actor, ApproveTaskRequest.actor_eq hvalid, rfl, rfl⟩
  | cancel taskId =>
      obtain ⟨request, hvalid, hreturn⟩ := Except.ok_of_bind hop
      refine ⟨request.actor, ?_⟩
      cases hactor : actorOf request.actor auth with
      | error value =>
          rw [hactor] at hreturn
          cases hreturn
      | ok actor =>
          rw [hactor] at hreturn
          cases hreturn
          exact ⟨actor, CancelTaskRequest.actor_eq hvalid, rfl, rfl⟩

/-- The body names no actor: there is no such field, or it is null or empty. -/
def Unnamed (body : Dict) : Prop :=
  body.lookup "actor" = none ∨ body.lookup "actor" = some .none ∨
    body.lookup "actor" = some (.str "")

/-- Of the bodies that name no actor only one with an empty name gives way to the
caller. -/
theorem actorOf_unnamed (hlawful : p.Lawful) (hnull : ∀ name, p.str .none ≠ .ok name)
    (hbody : Unnamed body) {caller name actor : String} (hcaller : auth.actor = .str caller)
    (hname : Pydantic.defaulted body "actor" "api" p.str = .ok name)
    (hactor : Decision.actorOf name auth = .ok actor) :
    body.lookup "actor" = some (.str "") ∧ actor = caller ∨
      body.lookup "actor" ≠ some (.str "") ∧ actor = "api" := by
  rcases hbody with hbody | hbody | hbody
  · rw [Pydantic.defaulted, hbody] at hname
    cases hname
    exact .inr ⟨by simp [hbody], (Except.ok.inj hactor).symm⟩
  · rw [Pydantic.defaulted, hbody] at hname
    exact absurd hname (hnull name)
  · rw [Pydantic.defaulted, hbody] at hname
    have hempty : name = "" := Except.ok.inj (hname.symm.trans (hlawful.str ""))
    rw [hempty, Decision.actorOf, Value.orElse, hcaller] at hactor
    exact .inl ⟨hbody, (Except.ok.inj hactor).symm⟩

end

section

variable {api : TaskApi} {keyEnv : KeyEnv} {sha256Hex : String → String} {server : Server}
variable {request : Request} {decision : Decision} {body : Dict} {queue : TaskQueue}
variable {ops : List Operation} {task : TaskRecord} {k k' : State} {caller : String}

theorem TaskApi.handle_answered {auth : AuthContext}
    (hok : api.handle decision body auth k = (.answered (.ok task), k')) :
    ∃ op, decision.operation api.pydantic body auth = .ok (.ok op) ∧
      api.supervisor.serve api.env api.fuel op k = (some (.ok task), k') := by
  rw [handle] at hok
  cases hop : decision.operation api.pydantic body auth with
  | error e =>
      rw [hop] at hok
      cases hok
  | ok chosen =>
      rw [hop] at hok
      cases chosen with
      | error actor => cases hok
      | ok op =>
          refine ⟨op, rfl, ?_⟩
          dsimp only at hok
          cases hserved : api.supervisor.serve api.env api.fuel op k with
          | mk outcome? k₁ =>
              rw [hserved] at hok
              rcases outcome? with _ | e | saved
              · cases hok
              · cases hok
              · cases hok
                rfl

/-- A request that succeeds was let in, and the operation that it asks for returned. -/
theorem TaskApi.post_answered
    (hok : api.post keyEnv sha256Hex server request decision body k = (.answered (.ok task), k')) :
    ∃ auth op, (server.answer keyEnv sha256Hex request).1 = some (.ok (.forwarded auth)) ∧
      decision.operation api.pydantic body auth = .ok (.ok op) ∧
        api.supervisor.serve api.env api.fuel op k = (some (.ok task), k') := by
  rw [post] at hok
  generalize (server.answer keyEnv sha256Hex request).1 = answer at hok ⊢
  rcases answer with _ | e | auth | message
  · cases hok
  · cases hok
  · obtain ⟨op, hop, hserved⟩ := handle_answered hok
    exact ⟨auth, op, rfl, hop, hserved⟩
  · cases hok

/-- A decision whose body names no actor is recorded under the actor of the key just
where that is the default of the request model, or the body overrides the default
with an empty name. -/
theorem decision_attributed_iff (hlawful : api.pydantic.Lawful)
    (hnull : ∀ name, api.pydantic.str .none ≠ .ok name) (hunique : UniqueIds api.env)
    (hpath : request.path = decision.path)
    (hkey : server.Identifies keyEnv sha256Hex request caller) (hbody : Unnamed body)
    (hok : api.post keyEnv sha256Hex server request decision body (api.tasksAfter queue ops) =
      (.answered (.ok task), k')) :
    Attributed (api.tasksAfter queue ops) k' decision.taskId caller decision.action ↔
      caller = "api" ∨ body.lookup "actor" = some (.str "") := by
  obtain ⟨auth, op, hanswer, hop, hserved⟩ := TaskApi.post_answered hok
  have hcaller := hkey.context (hpath ▸ decision.path_protected) hanswer
  obtain ⟨name, actor, hname, hactor, hdecision⟩ := Decision.operation_actor hop
  have hattributed := serve_attributed hunique ops hdecision hserved
  rcases actorOf_unnamed hlawful hnull hbody hcaller hname hactor with h | h
  · rw [h.2] at hattributed
    exact ⟨fun _ => .inr h.1, fun _ => hattributed⟩
  · rw [h.2] at hattributed
    constructor
    · exact fun hown => .inl (hown.actor_unique hattributed)
    · rintro (hdefault | hempty)
      · rwa [hdefault]
      · exact absurd hempty h.1

end

/-- Every capability asks for an approval. -/
def gatedApi : TaskApi where
  supervisor := .unconfigured ["echo"]
  env := { Env.returning with descriptor := fun _ name => .ok ⟨name, "", .low, [], true⟩ }
  fuel := 1
  pydantic := .strict
  isValueError e := e.typeName == "ValueError"

theorem gatedApi_refuses_null : ∀ name, gatedApi.pydantic.str .none ≠ .ok name := by
  intro name hname
  cases hname

def parkedOps : List Operation := [.submit ⟨"deploy", "echo", [], [], 0, none⟩, .runNext]

/-- The task waits for its approval. -/
def parked : State := gatedApi.tasksAfter (.inMemory []) parkedOps

def cancelRequest : Request := ⟨"/v1/tasks/x/cancel", some "Bearer cond_secret"⟩

/-- A server that identifies the holder of a key as the deployment. -/
theorem identifies_deployment : ∃ (server : Server) (auth : AuthContext),
    server.Identifies keyDesk id cancelRequest "deploy-bot" ∧ auth.actor = .str "deploy-bot" ∧
      (server.answer keyDesk id cancelRequest).1 = some (.ok (.forwarded auth)) := by
  have hkey : cancelRequest.bearerKey = some (nextKey keyDesk Server.fresh.world) := by
    decide +kernel
  obtain ⟨entry, server, auth, hgenerated, henabled, hanswer⟩ :=
    Server.admits_new keyDesk_alone id "deploy-bot" none cancelRequest (by decide) hkey
  obtain ⟨⟨createdAt, hentry⟩, hhas⟩ := Server.fresh_stocked.generate keyDesk_alone hgenerated
  have hidentifies : server.Identifies keyDesk id cancelRequest "deploy-bot" := by
    apply Server.Stocked.identifies keyDesk_alone.calm _ henabled (by decide) hkey
    apply hhas.imp
    intro entries hhas
    obtain ⟨entry', hlookup, hsame⟩ := hhas
    rw [hsame, hentry] at hlookup
    exact ⟨_, hlookup, rfl⟩
  exact ⟨server, auth, hidentifies, hidentifies.context (by decide) hanswer, hanswer⟩

/-- The cancellation of the task succeeds. -/
theorem post_cancels {server : Server} {auth : AuthContext} {body : Dict} {actor : String}
    (hanswer : (server.answer keyDesk id cancelRequest).1 = some (.ok (.forwarded auth)))
    (hop : (Decision.cancel "x").operation .strict body auth =
      .ok (.ok (.cancelTask "x" actor none (some []))))
    (hserved : ((gatedApi.supervisor.serve gatedApi.env 1 (.cancelTask "x" actor none (some []))
      parked).1.any (·.isOk)) = true) :
    ∃ task k', gatedApi.post keyDesk id server cancelRequest (.cancel "x") body parked =
      (.answered (.ok task), k') := by
  rw [TaskApi.post, hanswer]
  dsimp only
  rw [TaskApi.handle]
  have hvalid : (Decision.cancel "x").operation gatedApi.pydantic body auth = _ := hop
  rw [hvalid]
  dsimp only
  cases hserve : gatedApi.supervisor.serve gatedApi.env gatedApi.fuel
      (.cancelTask "x" actor none (some [])) parked with
  | mk outcome? k' =>
      have hserved' : outcome?.any (·.isOk) = true := by
        have hsame := congrArg (·.1.any (·.isOk)) hserve
        exact hsame.symm.trans hserved
      rcases outcome? with _ | e | task
      · cases hserved'
      · cases hserved'
      · exact ⟨task, k', rfl⟩

/-- An empty name leaves the decision to the caller. -/
theorem decision_attributed_iff_deployment : ∃ k', Attributed parked k' "x" "deploy-bot"
    "cancelled" := by
  obtain ⟨server, auth, hidentifies, hcaller, hanswer⟩ := identifies_deployment
  have hop : (Decision.cancel "x").operation .strict [("actor", .str "")] auth =
      .ok (.ok (.cancelTask "x" "deploy-bot" none (some []))) := by
    change Except.ok (Except.map _ (Decision.actorOf "" auth)) = _
    rw [Decision.actorOf, hcaller]
    rfl
  obtain ⟨task, k', hok⟩ := post_cancels hanswer hop (by decide +kernel)
  exact ⟨k', (decision_attributed_iff Pydantic.strict_lawful gatedApi_refuses_null
    (uniqueIds_of_freshId rfl) rfl hidentifies (.inr (.inr rfl)) hok).mpr (.inr rfl)⟩

/-- A cancellation with an empty body is recorded under no caller's name. -/
theorem deployment_unnamed : ¬ ∀ (api : TaskApi) (_ : api.pydantic.Lawful)
    (_ : ∀ name, api.pydantic.str .none ≠ .ok name) (_ : UniqueIds api.env) (queue : TaskQueue)
    (ops : List Operation) (keyEnv : KeyEnv) (sha256Hex : String → String) (server : Server)
    (request : Request) (decision : Decision) (caller : String) (body : Dict) (task : TaskRecord)
    (k' : State), request.path = decision.path →
    server.Identifies keyEnv sha256Hex request caller → Unnamed body →
    api.post keyEnv sha256Hex server request decision body (api.tasksAfter queue ops) =
      (.answered (.ok task), k') →
    Attributed (api.tasksAfter queue ops) k' decision.taskId caller decision.action := by
  intro hall
  obtain ⟨server, auth, hidentifies, hcaller, hanswer⟩ := identifies_deployment
  have hop : (Decision.cancel "x").operation .strict [] auth =
      .ok (.ok (.cancelTask "x" "api" none (some []))) := rfl
  obtain ⟨task, k', hok⟩ := post_cancels hanswer hop (by decide +kernel)
  have hown := hall gatedApi Pydantic.strict_lawful gatedApi_refuses_null (uniqueIds_of_freshId rfl)
    (.inMemory []) parkedOps keyDesk id server cancelRequest (.cancel "x") "deploy-bot" [] task k'
    rfl hidentifies (.inl rfl) hok
  obtain ⟨auth', op, hanswer', hop', hserved⟩ := TaskApi.post_answered hok
  rw [hanswer] at hanswer'
  cases hanswer'
  have hsame : op = .cancelTask "x" "api" none (some []) :=
    Except.ok.inj (Except.ok.inj (hop'.symm.trans hop))
  subst hsame
  have hdefault := serve_attributed (uniqueIds_of_freshId rfl) parkedOps rfl hserved
  exact absurd (hown.actor_unique hdefault) (by decide)

end Conductor
