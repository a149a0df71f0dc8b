/-
What stands behind an execution, whatever the policy engine: an allow of the
engine in the same `run_task` call, or an approval of a task that one of the two
gates had parked.  For the engines of the runtime this says which capabilities
are executed.
-/
import Conductor.Runtime.Opa
import Conductor.Runtime.RiskPolicy
import Conductor.Supervisor.Authorisation

namespace Conductor

open Effects

variable {sup : Supervisor} {env : Env} {queue : TaskQueue} {h : Trace}

/-- The engine came to this decision about the task and its capability. -/
structure JudgedIn (during : Trace) (task : TaskRecord) (context : PolicyContext)
    (decision : PolicyDecision) : Prop where
  evaluated : (⟨.evaluate task context, .ok decision⟩ : Event Call Answer) ∈ during
  described : (⟨.descriptor task.capability, .ok context.capability⟩ : Event Call Answer) ∈ during

/-- A `run_task` call parked the task: the descriptor of its capability asked for
an approval, or the engine did. -/
def ParkedByGate (h : Trace) (taskId : TaskId) (capability : String) : Prop :=
  ∃ later earlier t answer during before,
    h = later ++ ⟨.storeSave t, answer⟩ :: earlier ∧ t.taskId = taskId ∧
      t.status = .awaitingApproval ∧ InRunTask earlier taskId during before ∧
      ((∃ descriptor, (⟨.descriptor capability, .ok descriptor⟩ : Event Call Answer) ∈ during ∧
          descriptor.requireApproval = true) ∨
        ∃ task context decision, JudgedIn during task context decision ∧
          task.taskId = taskId ∧ task.capability = capability ∧
            decision.decision = .requireApproval)

theorem ParkedByGate.cons {taskId : TaskId} {capability : String}
    (hparked : ParkedByGate h taskId capability) (e : Event Call Answer) :
    ParkedByGate (e :: h) taskId capability := by
  obtain ⟨later, earlier, t, answer, during, before, rfl, hrest⟩ := hparked
  exact ⟨e :: later, earlier, t, answer, during, before, rfl, hrest⟩

theorem ParkedByGate.append {taskId : TaskId} {capability : String}
    (hparked : ParkedByGate h taskId capability) (later : Trace) :
    ParkedByGate (later ++ h) taskId capability := by
  induction later with
  | nil => exact hparked
  | cons e later ih => exact ih.cons e

/-- The descriptors on the desk of a `run_task` call were looked up in it. -/
theorem desk_descriptors_during {taskId : TaskId} {answer : Answer (.runTaskEntered taskId)}
    {before : Trace} {during : Trace} (hsame : ∀ e ∈ during, e.call.isMark = false) :
    ∀ item ∈ (desk (during ++ ⟨.runTaskEntered taskId, answer⟩ :: before)).descriptors,
      (⟨.descriptor item.1, .ok item.2⟩ : Event Call Answer) ∈ during := by
  induction during with
  | nil => rintro item ⟨⟩
  | cons e during ih =>
      rw [List.forall_mem_cons] at hsame
      have ih := ih hsame.2
      obtain ⟨c, answer⟩ := e
      cases c with
      | entered | left | runTaskEntered => cases hsame.1
      | storeGet taskId =>
          rcases answer with e | _ | task <;>
            exact fun item hitem => List.mem_cons_of_mem _ (ih item hitem)
      | descriptor capability =>
          cases answer with
          | error e => exact fun item hitem => List.mem_cons_of_mem _ (ih item hitem)
          | ok descriptor =>
              intro item hitem
              rcases List.mem_cons.mp hitem with rfl | hitem
              · exact List.mem_cons_self
              · exact List.mem_cons_of_mem _ (ih item hitem)
      | _ =>
          cases answer <;> exact fun item hitem => List.mem_cons_of_mem _ (ih item hitem)

namespace Sequential

/-- The engine judges what the call has looked up, and answers for itself. -/
theorem judged (hseq : Sequential sup env queue h) {taskId : TaskId} {during before : Trace}
    (hin : InRunTask h taskId during before) {task : TaskRecord} {context : PolicyContext}
    {decision : PolicyDecision}
    (hmem : (⟨.evaluate task context, .ok decision⟩ : Event Call Answer) ∈ during) :
    JudgedIn during task context decision ∧
      ∃ after past, h = after ++ ⟨.evaluate task context, .ok decision⟩ :: past ∧
        env.evaluate past task context = .ok decision := by
  obtain ⟨⟨answer, rfl⟩, hsame⟩ := hin
  obtain ⟨later, earlier, rfl⟩ := List.append_of_mem hmem
  rw [List.append_assoc, List.cons_append] at hseq
  have hhere := hseq.of_append
  refine ⟨⟨hmem, ?_⟩, later, _, List.append_assoc _ _ _, hhere.genuine.1.symm⟩
  have hearlier : ∀ e ∈ earlier, e.call.isMark = false := fun e he =>
    hsame e (List.mem_append_right _ (List.mem_cons_of_mem _ he))
  have hdescribed := desk_descriptors_during hearlier _ hhere.permitted.2
  exact List.mem_append_right _ (List.mem_cons_of_mem _ hdescribed)

/-- Only a gate parks a task, and only a parked task is approved. -/
theorem parked_by_gate (hseq : Sequential sup env queue h) {taskId : TaskId} {r : TaskRecord}
    (hstored : stored h taskId = some r)
    (hstatus : r.status = .awaitingApproval ∨ r.status = .approved) :
    ParkedByGate h taskId r.capability := by
  have hid := stored_keyed hstored
  subst hid
  have hall : r.status = .awaitingApproval ∨ r.status = .approved →
      ParkedByGate h r.taskId r.capability := by
    refine stored_induction (P := fun h r => r.status = .awaitingApproval ∨
      r.status = .approved → ParkedByGate h r.taskId r.capability) ?_ ?_ ?_ hseq hstored
    · rintro h t answer _ ⟨_, _, _, _, _, hpending, _⟩ hstatus
      rw [hpending] at hstatus
      rcases hstatus with hstatus | hstatus <;> cases hstatus
    · intro h r t answer hsaved hold ih _ hmove hstatus
      rw [hmove.taskId_eq, hmove.capability_eq]
      rcases hstatus with hawaiting | happroved
      · rcases hmove.of_awaiting hawaiting with hbefore | ⟨hrunning, hgate⟩
        · exact (ih (.inl hbefore)).cons _
        · obtain ⟨during, before, hin, hseen⟩ := hsaved.tail.run_task_call hrunning
          refine ⟨[], h, t, answer, during, before, rfl, hmove.taskId_eq, hawaiting, hin, ?_⟩
          rcases hgate with ⟨descriptor, hdescriptor, hflag⟩ |
            ⟨verdict, hverdict, hsame, happroval⟩
          · exact .inl ⟨descriptor, hseen.descriptors _ hdescriptor, hflag⟩
          · have hjudged := (hsaved.tail.judged hin (hseen.verdicts verdict hverdict)).1
            exact .inr ⟨_, _, _, hjudged, congrArg TaskRecord.taskId hsame,
              congrArg TaskRecord.capability hsame, happroval⟩
      · rcases hmove.of_approved happroved with hbefore | ⟨hbefore, -⟩
        · exact (ih (.inr hbefore)).cons _
        · exact (ih (.inl hbefore)).cons _
    · intro h r e _ _ _ ih hstatus
      exact (ih hstatus).cons e
  exact hall hstatus

/-- The engine allowed the task in this very call, or the task was parked by a gate
and then approved. -/
theorem execution_gated {capability : String} {task : TaskRecord} {payload : Value}
    {context : CapabilityContext} {timeout : Option Rat}
    {answer : Answer (.execute capability task payload context timeout)}
    (hseq : Sequential sup env queue
      (⟨.execute capability task payload context timeout, answer⟩ :: h)) :
    (∃ during before judged context decision, InRunTask h task.taskId during before ∧
        JudgedIn during judged context decision ∧ judged.taskId = task.taskId ∧
        judged.capability = capability ∧ decision.decision = .allow) ∨
      ParkedByGate h task.taskId capability ∧ ApprovalRecorded h task.taskId := by
  obtain ⟨-, -, hadmitted, rfl, -, -⟩ := hseq.permitted
  obtain ⟨hrunning, entry, hentry, hid, hcapability, hgates⟩ := hadmitted
  obtain ⟨during, before, hin, hseen⟩ := hseq.tail.run_task_call hrunning
  rcases hgates with happroved | ⟨-, -, verdict, hverdict, hjudgedId, hsame, hallowed⟩
  · have hstored := hseen.entry entry hentry
    right
    rw [← hid, ← hcapability]
    obtain ⟨⟨entered, rfl⟩, -⟩ := hin
    have hbefore := hseq.tail.of_append.tail
    refine ⟨?_, ?_⟩
    · exact ((hbefore.parked_by_gate hstored (.inr happroved)).cons _).append _
    · exact ((hbefore.approval_recorded hstored happroved).cons _).append _
  · obtain ⟨hjudged, -⟩ := hseq.tail.judged hin (hseen.verdicts verdict hverdict)
    exact .inl ⟨during, before, verdict.task, verdict.context, verdict.decision, hin, hjudged,
      hjudgedId, hsame, hallowed⟩

end Sequential

section RiskLevels

/-- The collaborators with the engine of risk levels. -/
def Env.withRiskLevels (env : Env) (engine : RiskLevelPolicyEngine) : Env :=
  { env with evaluate := fun _ _ context => .ok (engine.evaluate context) }

variable {engine : RiskLevelPolicyEngine}

/-- What the engine says of a task holds of the descriptor that the call has
looked up. -/
theorem Sequential.judged_by_risk (hseq : Sequential sup (env.withRiskLevels engine) queue h)
    {taskId : TaskId} {during before : Trace} (hin : InRunTask h taskId during before)
    {task : TaskRecord} {context : PolicyContext} {decision : PolicyDecision}
    (hjudged : JudgedIn during task context decision) :
    (decision.decision = .allow → engine.Permits context.capability) ∧
      (decision.decision = .requireApproval → engine.Refers context.capability) := by
  obtain ⟨-, after, past, -, hanswer⟩ := hseq.judged hin hjudged.evaluated
  obtain rfl : engine.evaluate context = decision := Except.ok.inj hanswer
  constructor
  · exact RiskLevelPolicyEngine.evaluate_allow
  · exact RiskLevelPolicyEngine.evaluate_requireApproval

/-- The capability was looked up in the `run_task` call that executes it, and the
engine permits it. -/
def RiskPermitted (engine : RiskLevelPolicyEngine) (h : Trace) (taskId : TaskId)
    (capability : String) : Prop :=
  ∃ during before descriptor, InRunTask h taskId during before ∧
    (⟨.descriptor capability, .ok descriptor⟩ : Event Call Answer) ∈ during ∧
      engine.Permits descriptor

/-- The capability was looked up in a `run_task` call that parked the task, and asks
for approval itself or is referred to a human by the engine. -/
def RiskReferred (engine : RiskLevelPolicyEngine) (h : Trace) (taskId : TaskId)
    (capability : String) : Prop :=
  ∃ later earlier t answer during before descriptor,
    h = later ++ ⟨.storeSave t, answer⟩ :: earlier ∧ t.taskId = taskId ∧
      t.status = .awaitingApproval ∧ InRunTask earlier taskId during before ∧
      (⟨.descriptor capability, .ok descriptor⟩ : Event Call Answer) ∈ during ∧
      (descriptor.requireApproval = true ∨ engine.Refers descriptor)

theorem Sequential.risk_referred (hseq : Sequential sup (env.withRiskLevels engine) queue h)
    {taskId : TaskId} {capability : String} (hparked : ParkedByGate h taskId capability) :
    RiskReferred engine h taskId capability := by
  obtain ⟨later, earlier, t, answer, during, before, rfl, hid, hstatus, hin, hgate⟩ := hparked
  refine ⟨later, earlier, t, answer, during, before, ?_⟩
  rcases hgate with ⟨descriptor, hdescriptor, hflag⟩ |
    ⟨task, context, decision, hjudged, -, rfl, happroval⟩
  · exact ⟨descriptor, rfl, hid, hstatus, hin, hdescriptor, .inl hflag⟩
  · have hrefers := (hseq.of_append.tail.judged_by_risk hin hjudged).2 happroval
    exact ⟨context.capability, rfl, hid, hstatus, hin, hjudged.described, .inr hrefers⟩

/-- Nothing is executed above the ceiling.  Under the engine of risk levels, in
every sequential run from an empty store, a capability is executed only where the
engine permits the descriptor that this very `run_task` call has looked up, or after
a human has approved a task that was parked because the descriptor asked for it or
stood on the list at the level of approvals. -/
theorem risk_ceiling (sup : Supervisor) (env : Env) (engine : RiskLevelPolicyEngine)
    (queue : TaskQueue) (fuel : Nat) (ops : List Operation)
    {later earlier : Trace} {capability : String} {task : TaskRecord}
    {payload : Value} {context : CapabilityContext} {timeout : Option Rat}
    {answer : Answer (.execute capability task payload context timeout)}
    (hsplit : (sup.run (env.withRiskLevels engine) fuel ops (.initial queue)).history =
      later ++ ⟨.execute capability task payload context timeout, answer⟩ :: earlier) :
    RiskPermitted engine earlier task.taskId capability ∨
      RiskReferred engine earlier task.taskId capability ∧
        ApprovalRecorded earlier task.taskId := by
  have hrun := run_sequential sup (env.withRiskLevels engine) fuel ops queue
  rw [hsplit] at hrun
  have hhere := hrun.of_append
  rcases hhere.execution_gated with
    ⟨during, before, judged, policyContext, decision, hin, hjudged, -, rfl, hallow⟩ |
    ⟨hparked, happroval⟩
  · have hpermits := (hhere.tail.judged_by_risk hin hjudged).1 hallow
    exact .inl ⟨during, before, policyContext.capability, hin, hjudged.described, hpermits⟩
  · exact .inr ⟨hhere.tail.risk_referred hparked, happroval⟩

/-- The operations of a guarded capability under an engine that denies all above
`LOW`. -/
def riskRun : State :=
  (Supervisor.unconfigured ["echo"]).run (Env.guarded.withRiskLevels { denyAbove := .low }) 1
    guardedOps (.initial (.inMemory []))

theorem risk_ceiling_guarded :
    ∃ earlier taskId capability, RiskPermitted { denyAbove := .low } earlier taskId capability ∨
      RiskReferred { denyAbove := .low } earlier taskId capability ∧
        ApprovalRecorded earlier taskId := by
  have hexecuted : (executions riskRun.history).map (·.capability) = ["echo"] := by
    decide +kernel
  have hmem : "echo" ∈ (executions riskRun.history).map (·.capability) := by simp [hexecuted]
  obtain ⟨task, htask, -⟩ := List.mem_map.mp hmem
  obtain ⟨later, earlier, capability, payload, context, timeout, answer, hsplit⟩ :=
    exists_split_of_mem_executions htask
  exact ⟨earlier, task.taskId, capability,
    risk_ceiling (.unconfigured ["echo"]) .guarded { denyAbove := .low } (.inMemory []) 1
      guardedOps hsplit⟩

end RiskLevels

section Opa

/-- The collaborators with the engine that asks an OPA server, which may answer each
request as it likes. -/
def Env.withOpa (env : Env) (p : Pydantic) (engine : OPAPolicyEngine) (post : Trace → HttpPost) :
    Env :=
  { env with evaluate := fun h task context => engine.evaluate p (post h) task context }

variable {p : Pydantic} {engine : OPAPolicyEngine} {post : Trace → HttpPost}

/-- The server allowed the task: the result of its body passes for an allow that asks
for no approval; or it gave no answer that can be used, and the engine fails open. -/
def OpaAllowed (engine : OPAPolicyEngine) (p : Pydantic) (post : HttpPost) (task : TaskRecord)
    (context : PolicyContext) : Prop :=
  (∃ response body, Answers engine post task context response body ∧ LooselyAllows body) ∨
    engine.failOpen = true ∧ ∃ e, engine.ask p post task context = .error e

/-- The server asked for an approval. -/
def OpaReferred (engine : OPAPolicyEngine) (post : HttpPost) (task : TaskRecord)
    (context : PolicyContext) : Prop :=
  ∃ response body result, Answers engine post task context response body ∧
    opaResult body = some result ∧ (resultField result "require_approval").truthy = true

theorem policyDecision_decision {decision : PolicyDecisionType} {reason : Value} {metadata : Dict}
    {made : PolicyDecision} (hmade : policyDecision p decision reason metadata = .ok made) :
    made.decision = decision := by
  rw [policyDecision] at hmade
  cases hreason : Pydantic.orNone p.str reason with
  | error e =>
      rw [hreason] at hmade
      cases hmade
  | ok reason =>
      rw [hreason] at hmade
      cases hmade
      rfl

/-- A decision of the engine that is none of its own is made of an answer. -/
theorem ask_ok {post : HttpPost} {task : TaskRecord} {context : PolicyContext}
    {decision : PolicyDecision} (hask : engine.ask p post task context = .ok decision) :
    ∃ response body result, Answers engine post task context response body ∧
      opaResult body = some result ∧ decision.decision = resultDecision result := by
  rw [OPAPolicyEngine.ask] at hask
  obtain ⟨response, hresponse, hask⟩ := Except.ok_of_bind hask
  obtain ⟨done, hsuccess, hask⟩ := Except.ok_of_bind hask
  obtain ⟨body, hbody, hask⟩ := Except.ok_of_bind hask
  have hstatus : response.isSuccess := by
    rw [HttpResponse.raiseForStatus] at hsuccess
    by_contra hfailed
    rw [if_neg hfailed] at hsuccess
    cases hsuccess
  cases hresult : opaResult body with
  | none =>
      obtain ⟨message, hrefused⟩ := mapResponse_refused (p := p) hresult
      rw [hrefused] at hask
      cases hask
  | some result =>
      rw [mapResponse_eq hresult] at hask
      exact ⟨response, body, result, ⟨hresponse, hstatus, hbody⟩, hresult,
        policyDecision_decision hask⟩

theorem opaAllowed_of_evaluate {post : HttpPost} {task : TaskRecord} {context : PolicyContext}
    {decision : PolicyDecision} (hdecided : engine.evaluate p post task context = .ok decision)
    (hallow : decision.decision = .allow) : OpaAllowed engine p post task context := by
  rw [OPAPolicyEngine.evaluate] at hdecided
  cases hask : engine.ask p post task context with
  | ok made =>
      rw [hask] at hdecided
      cases hdecided
      obtain ⟨response, body, result, hanswers, hresult, hdecision⟩ := ask_ok hask
      rw [hdecision, resultDecision_allow_iff] at hallow
      exact .inl ⟨response, body, hanswers, result, hresult, hallow⟩
  | error e =>
      rw [hask] at hdecided
      dsimp only at hdecided
      split at hdecided
      · rw [OPAPolicyEngine.unreachable] at hdecided
        obtain ⟨text, -, hdecided⟩ := Except.ok_of_bind hdecided
        cases hopen : engine.failOpen with
        | true => exact .inr ⟨hopen, e, hask⟩
        | false =>
            rw [hopen] at hdecided
            cases hdecided
            cases hallow
      · cases hdecided

theorem opaReferred_of_evaluate {post : HttpPost} {task : TaskRecord} {context : PolicyContext}
    {decision : PolicyDecision} (hdecided : engine.evaluate p post task context = .ok decision)
    (happroval : decision.decision = .requireApproval) :
    OpaReferred engine post task context := by
  rw [OPAPolicyEngine.evaluate] at hdecided
  cases hask : engine.ask p post task context with
  | ok made =>
      rw [hask] at hdecided
      cases hdecided
      obtain ⟨response, body, result, hanswers, hresult, hdecision⟩ := ask_ok hask
      refine ⟨response, body, result, hanswers, hresult, ?_⟩
      rw [hdecision, resultDecision] at happroval
      cases hfield : (resultField result "require_approval").truthy with
      | true => rfl
      | false =>
          rw [hfield] at happroval
          split at happroval
          · rename_i hfalse
            cases hfalse
          · split at happroval <;> cases happroval
  | error e =>
      rw [hask] at hdecided
      dsimp only at hdecided
      split at hdecided
      · rw [OPAPolicyEngine.unreachable] at hdecided
        obtain ⟨text, -, hdecided⟩ := Except.ok_of_bind hdecided
        split at hdecided
        · cases hdecided
          cases happroval
        · cases hdecided
          cases happroval
      · cases hdecided

/-- The server was asked about the task in the `run_task` call that executes it, and
allowed it. -/
def OpaPermitted (p : Pydantic) (engine : OPAPolicyEngine) (post : Trace → HttpPost) (h : Trace)
    (taskId : TaskId) (capability : String) : Prop :=
  ∃ during before judged context decision after past, InRunTask h taskId during before ∧
    JudgedIn during judged context decision ∧ judged.taskId = taskId ∧
      judged.capability = capability ∧
      h = after ++ ⟨.evaluate judged context, .ok decision⟩ :: past ∧
      OpaAllowed engine p (post past) judged context

/-- The task was parked by a `run_task` call: the descriptor asked for an approval, or
the server did. -/
def ParkedByOpa (engine : OPAPolicyEngine) (post : Trace → HttpPost) (h : Trace)
    (taskId : TaskId) (capability : String) : Prop :=
  ∃ later earlier t answer during before,
    h = later ++ ⟨.storeSave t, answer⟩ :: earlier ∧ t.taskId = taskId ∧
      t.status = .awaitingApproval ∧ InRunTask earlier taskId during before ∧
      ((∃ descriptor, (⟨.descriptor capability, .ok descriptor⟩ : Event Call Answer) ∈ during ∧
          descriptor.requireApproval = true) ∨
        ∃ judged context decision after past, JudgedIn during judged context decision ∧
          judged.taskId = taskId ∧ judged.capability = capability ∧
          earlier = after ++ ⟨.evaluate judged context, .ok decision⟩ :: past ∧
          OpaReferred engine (post past) judged context)

/-- Nothing is executed that the server has not allowed.  Under the engine that asks an
OPA server, in every sequential run from an empty store and whatever the server and the
connection do, a capability is executed only where the server, asked in this very
`run_task` call, allowed the task, or gave no usable answer to an engine that fails
open; or after a human has approved a task that was parked because the descriptor or
the server asked for it. -/
theorem opa_backed (sup : Supervisor) (env : Env) (p : Pydantic) (engine : OPAPolicyEngine)
    (post : Trace → HttpPost) (queue : TaskQueue) (fuel : Nat) (ops : List Operation)
    {later earlier : Trace} {capability : String} {task : TaskRecord}
    {payload : Value} {context : CapabilityContext} {timeout : Option Rat}
    {answer : Answer (.execute capability task payload context timeout)}
    (hsplit : (sup.run (env.withOpa p engine post) fuel ops (.initial queue)).history =
      later ++ ⟨.execute capability task payload context timeout, answer⟩ :: earlier) :
    OpaPermitted p engine post earlier task.taskId capability ∨
      ParkedByOpa engine post earlier task.taskId capability ∧
        ApprovalRecorded earlier task.taskId := by
  have hrun := run_sequential sup (env.withOpa p engine post) fuel ops queue
  rw [hsplit] at hrun
  have hhere := hrun.of_append
  rcases hhere.execution_gated with
    ⟨during, before, judged, policyContext, decision, hin, hjudged, hjudgedId, hsame, hallow⟩ |
    ⟨hparked, happroval⟩
  · obtain ⟨-, after, past, hpast, hanswer⟩ := hhere.tail.judged hin hjudged.evaluated
    exact .inl ⟨during, before, judged, policyContext, decision, after, past, hin, hjudged,
      hjudgedId, hsame, hpast, opaAllowed_of_evaluate hanswer hallow⟩
  · obtain ⟨later', before', t, saved, during, entered, rfl, hid, hstatus, hin, hgate⟩ := hparked
    refine .inr ⟨⟨later', before', t, saved, during, entered, rfl, hid, hstatus, hin, ?_⟩,
      happroval⟩
    rcases hgate with hdescriptor |
      ⟨judged, policyContext, decision, hjudged, hjudgedId, hsame, hreferred⟩
    · exact .inl hdescriptor
    · obtain ⟨-, after, past, hpast, hanswer⟩ :=
        hhere.tail.of_append.tail.judged hin hjudged.evaluated
      exact .inr ⟨judged, policyContext, decision, after, past, hjudged, hjudgedId, hsame,
        hpast, opaReferred_of_evaluate hanswer hreferred⟩

/-- A task under a server that allows everything. -/
def opaRun : State :=
  (Supervisor.unconfigured ["echo"]).run
    (Env.returning.withOpa .strict (opaEngine false)
      fun _ => opaServer (.dict [("allow", .bool true)])) 1
    [.runSubmission ⟨"say", "echo", [], [], 0, none⟩] (.initial (.inMemory []))

theorem opa_backed_allowed :
    ∃ earlier taskId capability,
      OpaPermitted .strict (opaEngine false) (fun _ => opaServer (.dict [("allow", .bool true)]))
          earlier taskId capability ∨
        ParkedByOpa (opaEngine false) (fun _ => opaServer (.dict [("allow", .bool true)]))
            earlier taskId capability ∧
          ApprovalRecorded earlier taskId := by
  have hexecuted : (executions opaRun.history).map (·.capability) = ["echo"] := by
    decide +kernel
  have hmem : "echo" ∈ (executions opaRun.history).map (·.capability) := by simp [hexecuted]
  obtain ⟨task, htask, -⟩ := List.mem_map.mp hmem
  obtain ⟨later, earlier, capability, payload, context, timeout, answer, hsplit⟩ :=
    exists_split_of_mem_executions htask
  exact ⟨earlier, task.taskId, capability,
    opa_backed (.unconfigured ["echo"]) .returning .strict (opaEngine false)
      (fun _ => opaServer (.dict [("allow", .bool true)])) (.inMemory []) 1
      [.runSubmission ⟨"say", "echo", [], [], 0, none⟩] hsplit⟩

end Opa

end Conductor
