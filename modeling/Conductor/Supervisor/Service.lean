/-
The task supervisor: Task -> Capability -> Result.  Each definition follows the
method of the same name, statement by statement; the local variable `task` of
the source is the object of a `TaskBlock`.
-/
import Conductor.Supervisor.Calls

namespace Conductor

open Effects Block

/-- The registered capability names, and the controls configured for them. -/
structure CapabilityRegistry where
  capabilities : List String
  controls : List (String × CapabilityExecutionControls)

namespace CapabilityRegistry

def notRegistered (name : String) : String :=
  "Capability '" ++ name ++ "' is not registered"

/-- A capability object is known by the name it is registered under. -/
def get (registry : CapabilityRegistry) (name : String) : Except PyExc String :=
  if name ∈ registry.capabilities then .ok name
  else .error ⟨"KeyError", some (pyRepr (notRegistered name)), true⟩

def executionControls (registry : CapabilityRegistry) (name : String) :
    Except PyExc CapabilityExecutionControls :=
  if name ∈ registry.capabilities then
    .ok ((registry.controls.lookup name).getD ⟨none, none⟩)
  else .error ⟨"KeyError", some (pyRepr (notRegistered name)), true⟩

end CapabilityRegistry

/-- A configured supervisor.  The three flags say which optional collaborators
are configured (and, for the guild, enabled); `policyName` is the class name of
the policy engine and `sha256Hex` the digest of the standard library. -/
structure Supervisor where
  registry : CapabilityRegistry
  workdir : String
  policyName : String
  escalationPolicy : Bool
  guildKnowledge : Bool
  peerSuggestions : Bool
  sha256Hex : String → String

variable {σ : Type}

/-- Resolve the target capability of a request that passes the guardrails. -/
def validateTaskSubmission (sup : Supervisor) (submission : TaskSubmission) :
    Block Call Response PyExc σ String :=
  if isBlank submission.name then
    raise (.valueError "Task name must not be empty")
  else if isBlank submission.capability then
    raise (.valueError "Task capability must not be empty")
  else
    match sup.registry.get submission.capability with
    | .error e => raise (.valueError (e.text.getD ""))
    | .ok capability => do
        let _ ← ask (.validateInput capability submission.input)
        pure capability

/-- The guardrails leave the submission to the validation of its capability. -/
def Supervisor.Admits (sup : Supervisor) (submission : TaskSubmission) : Prop :=
  isBlank submission.name = false ∧ isBlank submission.capability = false ∧
    submission.capability ∈ sup.registry.capabilities

/-- The guardrails raise, or ask the capability that the submission names. -/
theorem wp_validateTaskSubmission {S : Type*} {L : Logic S Call Answer} {sup : Supervisor}
    {submission : TaskSubmission} {post : Except PyExc String → σ → S → Prop} {x : σ} {s : S}
    (hrejected : ¬ sup.Admits submission → ∀ e, post (.error e) x s)
    (hadmitted : sup.Admits submission →
      L.call s (.validateInput submission.capability submission.input) fun answer s' =>
        post (answer.map fun _ => submission.capability) x s') :
    (validateTaskSubmission sup submission).wp L post x s := by
  unfold validateTaskSubmission CapabilityRegistry.get
  split
  · rename_i hname
    exact hrejected (fun h => Bool.false_ne_true (h.1.symm.trans hname)) _
  split
  · rename_i hcapability
    exact hrejected (fun h => Bool.false_ne_true (h.2.1.symm.trans hcapability)) _
  rename_i hname hcapability
  by_cases hregistered : submission.capability ∈ sup.registry.capabilities
  · rw [if_pos hregistered]
    have hadmits : sup.Admits submission :=
      ⟨Bool.eq_false_of_not_eq_true hname, Bool.eq_false_of_not_eq_true hcapability, hregistered⟩
    dsimp only
    rw [wp_bind, wp_ask]
    refine (congrArg (L.call s _) ?_).mp (hadmitted hadmits)
    funext answer s'
    cases answer <;> rfl
  · rw [if_neg hregistered]
    exact hrejected (fun h => hregistered h.2.2) _

/-- `datetime.now(tz=UTC)`. -/
def now : Block Call Response PyExc σ Time := ask .now

/-- `timestamp or _now()`. -/
def timestampOrNow : Option Time → Block Call Response PyExc σ Time
  | some timestamp => pure timestamp
  | none => now

def appendAudit (actor action : String) (fromStatus toStatus : Option TaskStatus)
    (metadata : Dict) (timestamp : Option Time) : TaskBlock Unit := do
  let timestamp ← timestampOrNow timestamp
  mutate fun task => { task with
    auditTrail := task.auditTrail ++
      [⟨timestamp, actor, action, fromStatus, toStatus, metadata⟩] }

def saveTask (timestamp : Option Time) : TaskBlock Unit := do
  let timestamp ← timestampOrNow timestamp
  mutate fun task => { task with updatedAt := timestamp }
  let task ← object
  ask (.storeSave task)

/-- The event that describes a task record. -/
def taskEvent (task : TaskRecord) (eventType : EventType) (timestamp : Time)
    (error : Option String) (metadata : Dict) : TaskEvent where
  eventType := eventType
  taskId := task.taskId
  taskName := task.name
  capability := task.capability
  status := task.status
  attempt := task.attempt
  timestamp := timestamp
  workflowId := task.workflowId
  error := error
  metadata := metadata

/-- Exceptions of the bus stop here, as far as `except Exception` catches them. -/
def emitEvent (eventType : EventType) (error : Option String) (metadata : Dict) :
    TaskBlock Unit :=
  tryExcept PyExc.isException
    (do
      let timestamp ← now
      let task ← object
      ask (.emit task (taskEvent task eventType timestamp error metadata)))
    fun _ => pure ()

def transitionStatus (toStatus : TaskStatus) (actor action : String)
    (eventType : EventType) (metadata : Dict) (error : Option String)
    (timestamp : Option Time) : TaskBlock Unit := do
  let transitionTime ← timestampOrNow timestamp
  let task ← object
  mutate fun task => { task with status := toStatus }
  appendAudit actor action (some task.status) (some toStatus) metadata (some transitionTime)
  saveTask (some transitionTime)
  emitEvent eventType error metadata

def buildSubmission (task : TaskRecord) : TaskSubmission where
  name := task.name
  capability := task.capability
  input := task.input
  metadata := task.metadata
  maxRetries := task.maxRetries
  workflowId := task.workflowId

/-- Keep the configured distance between two starts of a capability. -/
def waitForExecutionWindow (sup : Supervisor) (capability : String) :
    Block Call Response PyExc σ Unit := do
  let controls ← ofExcept (sup.registry.executionControls capability)
  match controls.minIntervalSeconds with
  | none => pure ()
  | some minInterval => do
      let now ← ask .monotonic
      let previousStart ← ask (.lastStart capability)
      match previousStart with
      | none => ask (.setLastStart capability now)
      | some previousStart =>
          let sleepFor := minInterval - (now - previousStart)
          if 0 < sleepFor then do
            ask (.sleep sleepFor)
            let now ← ask .monotonic
            ask (.setLastStart capability now)
          else
            ask (.setLastStart capability now)

/-- The record a submission becomes, before its first audit entry. -/
def newTaskRecord (submission : TaskSubmission) (taskId : TaskId)
    (createdAt updatedAt : Time) : TaskRecord where
  taskId := taskId
  name := submission.name
  capability := submission.capability
  input := submission.input
  metadata := submission.metadata
  status := .pending
  result := none
  attempt := 0
  maxRetries := submission.maxRetries
  workflowId := submission.workflowId
  archivedAt := none
  auditTrail := []
  createdAt := createdAt
  updatedAt := updatedAt

def createTaskRecord (sup : Supervisor) (submission : TaskSubmission)
    (enqueue : Bool) : OpBlock TaskRecord := do
  let _ ← validateTaskSubmission sup submission
  let taskId ← ask .uuid4
  let createdAt ← now
  let updatedAt ← now
  let created ← on (newTaskRecord submission taskId createdAt updatedAt) do
    appendAudit "supervisor" "submitted" none (some .pending)
      [("max_retries", .int submission.maxRetries)] (some createdAt)
    let task ← object
    ask (.storeSave task)
  if enqueue then do
    ask (.enqueue created.2.taskId)
    pure created.2
  else
    pure created.2

/-- The metadata under which a policy decision is recorded. -/
def policyMetadata (sup : Supervisor) (decision : PolicyDecision) : Dict :=
  let metadata := match decision.reason with
    | some reason => Dict.setdefault decision.metadata "reason" (.str reason)
    | none => decision.metadata
  Dict.insert "decision_type" (.str decision.decision.value)
    (Dict.insert "policy_engine" (.str sup.policyName) metadata)

def applyPolicy (sup : Supervisor) (decision : PolicyDecision) : TaskBlock Unit :=
  let metadata := policyMetadata sup decision
  match decision.decision with
  | .deny => do
      let deniedAt ← now
      let error := orText decision.reason "Task denied by policy"
      mutate fun task => { task with
        result := some ⟨false, .none, some error, metadata, none, some deniedAt⟩ }
      transitionStatus .policyDenied "policy" "denied" .taskPolicyDenied metadata
        (some error) (some deniedAt)
  | .requireApproval =>
      transitionStatus .awaitingApproval "policy" "awaiting_approval"
        .taskAwaitingApproval metadata none none
  | .allow => do
      appendAudit "policy" "allowed" (some .pending) (some .pending) metadata none
      saveTask none

/-- The metadata of an escalated result. -/
def escalationMetadata (record : Option EscalationRecord) (reason : Option String) : Dict :=
  match record, reason with
  | some record, _ => [("escalation_record", .dict record.modelDump)]
  | none, some reason => [("escalation_reason", .str reason)]
  | none, none => []

def buildEscalationRecord (sup : Supervisor) (failureHistory : List FailureContext) :
    TaskBlock (Option EscalationRecord) :=
  if sup.escalationPolicy then do
    let task ← object
    let record ← ask (.buildRecord task failureHistory)
    pure (some record)
  else pure none

/-- Publish failure contexts to the guild knowledge base, where there is one. -/
def publishFailures (sup : Supervisor) (failureHistory : List FailureContext)
    (resolutionHint : String) : TaskBlock Unit :=
  if sup.guildKnowledge then do
    let task ← object
    ask (.publish task.capability failureHistory resolutionHint)
  else pure ()

def doEscalate (sup : Supervisor) (failureHistory : List FailureContext)
    (startedAt : Time) (exc : PyExc) (reason : Option String) : TaskBlock Unit := do
  let escalatedAt ← now
  let record ← buildEscalationRecord sup failureHistory
  let error ← ofExcept exc.str
  mutate fun task => { task with
    result := some ⟨false, .none, some error, escalationMetadata record reason,
      some startedAt, some escalatedAt⟩ }
  let task ← object
  transitionStatus .escalated "supervisor" "escalated" .taskEscalated
    [("attempt", .int task.attempt), ("total_failures", .int failureHistory.length)]
    (some error) (some escalatedAt)
  publishFailures sup failureHistory "Escalated — no further retries attempted"

/-- The statements after the attempt loop when its last exception stands. -/
def failTask (sup : Supervisor) (failureHistory : List FailureContext)
    (startedAt : Time) (lastExc : PyExc) : TaskBlock Unit := do
  publishFailures sup failureHistory "All retries exhausted — task failed"
  let failedAt ← now
  let error ← ofExcept lastExc.str
  mutate fun task => { task with
    result := some ⟨false, .none, some error, [], some startedAt, some failedAt⟩ }
  let task ← object
  transitionStatus .failed "supervisor" "failed" .taskFailed
    [("attempt", .int task.attempt)] (some error) (some failedAt)

def getTask (taskId : TaskId) : OpBlock TaskRecord := do
  let task ← ask (.storeGet taskId)
  match task with
  | some task => pure task
  | none => raise (.valueError ("Task '" ++ taskId ++ "' was not found"))

/-- Apply the best guild suggestion to the input before execution. -/
def applyPeerSuggestion (sup : Supervisor) : TaskBlock Unit :=
  if sup.peerSuggestions then do
    let task ← object
    let suggestions ← ask (.suggest task.capability task.input)
    match suggestions with
    | [] => pure ()
    | best :: _ => do
        mutate fun task => { task with input := Dict.update task.input best.approachAdjustment }
        appendAudit "guild" "peer_suggestion_applied" none none
          [("fingerprint", .str best.fingerprint.toKey),
            ("confidence", .float best.confidence),
            ("resolution_hint", .ofStr? best.resolutionHint),
            ("source_role", .ofStr? best.sourceRole),
            ("source_project", .ofStr? best.sourceProject)] none
        saveTask none
  else pure ()

/-- The `try` block of one attempt. -/
def attempt (sup : Supervisor) (capability : String)
    (controls : CapabilityExecutionControls) (startedAt : Time) : TaskBlock Unit := do
  let task ← object
  let payload ← ask (.validateInput capability task.input)
  let result ← ask (.execute capability task payload
    ⟨task.taskId, task.name, sup.workdir⟩ controls.timeoutSeconds)
  let completedAt ← now
  mutate fun task => { task with
    result := some ⟨true, result.output, none, result.metadata,
      some startedAt, some completedAt⟩ }
  transitionStatus .completed "supervisor" "completed" .taskCompleted
    [("attempt", .int task.attempt)] none (some completedAt)
  if sup.guildKnowledge then do
    let task ← object
    ask (.publishSuccess task.capability task.input)
  else pure ()

/-- How the loop goes on after a failed attempt: it ends, with the exception
that stands as `last_exc`, or it goes round again. -/
inductive Flow where
  | stop (lastExc : Option PyExc) (failureHistory : List FailureContext)
  | again (failureHistory : List FailureContext)

/-- The escalation policy's verdict; without a policy there is none. -/
def policyEscalates (sup : Supervisor) (failureHistory : List FailureContext) :
    TaskBlock Bool :=
  if sup.escalationPolicy then do
    let task ← object
    ask (.shouldEscalate task failureHistory)
  else pure false

/-- Describe the failure of the current attempt and persist it in the audit
trail. -/
def recordFailure (sup : Supervisor) (exc : PyExc) : TaskBlock FailureContext := do
  let task ← object
  let fingerprint ← ofExcept (inputFingerprint sup.sha256Hex task.input)
  let message ← ofExcept exc.str
  let failure : FailureContext := {
    taskId := task.taskId
    capability := task.capability
    attempt := task.attempt
    maxRetries := task.maxRetries
    errorType := exc.typeName
    errorMessage := message
    inputFingerprint := some fingerprint
    metadata := [] }
  appendAudit "supervisor" "failure_recorded" none none failure.modelDump none
  saveTask none
  pure failure

/-- The metadata of a retry entry. -/
def retryMetadata (task : TaskRecord) (error : String) (decision : RetryDecision) : Dict :=
  [("attempt", .int task.attempt), ("previous_attempt", .int (task.attempt - 1)),
    ("max_retries", .int task.maxRetries), ("error", .str error),
    ("retry_reason", .ofStr? decision.reason)] ++
    if decision.adjustedInput.isSome then [("input_adjusted", .bool true)] else []

/-- `if decision.delay_seconds is not None and decision.delay_seconds > 0`. -/
def retryDelay (decision : RetryDecision) : TaskBlock Unit :=
  match decision.delaySeconds with
  | some delay => if 0 < delay then ask (.sleep delay) else pure ()
  | none => pure ()

/-- `decision.escalate or (policy and policy.should_escalate(...))`. -/
def escalates (sup : Supervisor) (decision : RetryDecision)
    (failureHistory : List FailureContext) : TaskBlock Bool :=
  if decision.escalate then pure true else policyEscalates sup failureHistory

/-- The branch of a failed attempt that is not retried. -/
def giveUp (sup : Supervisor) (startedAt : Time) (exc : PyExc)
    (failureHistory : List FailureContext) (decision : RetryDecision) :
    TaskBlock Flow := do
  let escalate ← escalates sup decision failureHistory
  if escalate then do
    doEscalate sup failureHistory startedAt exc
      (if decision.escalate then decision.reason else none)
    pure (.stop none failureHistory)
  else pure (.stop (some exc) failureHistory)

/-- The branch of a failed attempt that would be retried: the attempt counter
goes up before the escalation policy is asked. -/
def retry (sup : Supervisor) (startedAt : Time) (exc : PyExc)
    (failureHistory : List FailureContext) (decision : RetryDecision) :
    TaskBlock Flow := do
  mutate fun task => { task with
    attempt := task.attempt + 1
    input := decision.adjustedInput.getD task.input }
  let escalate ← policyEscalates sup failureHistory
  if escalate then do
    doEscalate sup failureHistory startedAt exc none
    pure (.stop none failureHistory)
  else do
    let task ← object
    let error ← ofExcept exc.str
    let metadata := retryMetadata task error decision
    appendAudit "supervisor" "retry" (some .running) (some .running) metadata none
    saveTask none
    emitEvent .taskRetry (some error) metadata
    retryDelay decision
    pure (.again failureHistory)

/-- The `except Exception` clause of the attempt loop. -/
def handleFailure (sup : Supervisor) (startedAt : Time)
    (failureHistory : List FailureContext) (exc : PyExc) : TaskBlock Flow := do
  let failure ← recordFailure sup exc
  let task ← object
  let decision ← ask (.decide task failure)
  if decision.shouldRetry then
    retry sup startedAt exc (failureHistory ++ [failure]) decision
  else
    giveUp sup startedAt exc (failureHistory ++ [failure]) decision

/-- One round of `while True`: a completed attempt ends the loop. -/
def attemptRound (sup : Supervisor) (capability : String)
    (controls : CapabilityExecutionControls) (startedAt : Time)
    (failureHistory : List FailureContext) : TaskBlock Flow :=
  tryExcept PyExc.isException
    (do
      attempt sup capability controls startedAt
      pure (.stop none failureHistory))
    (handleFailure sup startedAt failureHistory)

/-- The `while True` loop of `run_task`, unrolled `fuel` times. -/
def attemptLoop (sup : Supervisor) (capability : String)
    (controls : CapabilityExecutionControls) (startedAt : Time) :
    Nat → List FailureContext → TaskBlock (Option PyExc × List FailureContext)
  | 0, _ => outOfFuel
  | fuel + 1, failureHistory => do
      let flow ← attemptRound sup capability controls startedAt failureHistory
      match flow with
      | .stop lastExc failureHistory => pure (lastExc, failureHistory)
      | .again failureHistory => attemptLoop sup capability controls startedAt fuel failureHistory

/-- Start an admitted task, up to the first attempt. -/
def startTask (sup : Supervisor) : TaskBlock (CapabilityExecutionControls × Time) := do
  let task ← object
  let controls ← ofExcept (sup.registry.executionControls task.capability)
  waitForExecutionWindow sup task.capability
  let startedAt ← now
  mutate fun task => { task with attempt := task.attempt + 1 }
  let task ← object
  transitionStatus .running "supervisor" "started" .taskStarted
    [("attempt", .int task.attempt), ("max_retries", .int task.maxRetries)] none
    (some startedAt)
  pure (controls, startedAt)

/-- The attempts of a started task and what follows from their outcome. -/
def runAttempts (sup : Supervisor) (fuel : Nat) (capability : String)
    (controls : CapabilityExecutionControls) (startedAt : Time) : TaskBlock Unit := do
  let ended ← attemptLoop sup capability controls startedAt fuel []
  match ended.1 with
  | none => pure ()
  | some lastExc => failTask sup ended.2 startedAt lastExc

/-- `run_task` from the guild suggestions on. -/
def executeTask (sup : Supervisor) (fuel : Nat) (capability : String) : TaskBlock Unit := do
  applyPeerSuggestion sup
  let started ← startTask sup
  runAttempts sup fuel capability started.1 started.2

/-- The two gates a pending task passes: the descriptor's approval flag, then
the policy engine. -/
def gatePending (sup : Supervisor) (capability : String) : TaskBlock Unit := do
  let descriptor ← ask (.descriptor capability)
  if descriptor.requireApproval then do
    let task ← object
    transitionStatus .awaitingApproval "supervisor" "awaiting_approval"
      .taskAwaitingApproval
      [("reason", .str "capability requires approval"), ("capability", .str task.capability)]
      none none
  else do
    let descriptor ← ask (.descriptor capability)
    let task ← object
    let decision ← ask (.evaluate task ⟨descriptor, sup.workdir⟩)
    applyPolicy sup decision

/-- `run_task` on the record read from the store. -/
def runLoadedTask (sup : Supervisor) (fuel : Nat) : TaskBlock Unit := do
  let task ← object
  if task.status = .pending then do
    let capability ← validateTaskSubmission sup (buildSubmission task)
    gatePending sup capability
    let task ← object
    if task.status = .pending then executeTask sup fuel capability else pure ()
  else if task.status = .approved then do
    let capability ← validateTaskSubmission sup (buildSubmission task)
    executeTask sup fuel capability
  else pure ()

def runTask (sup : Supervisor) (fuel : Nat) (taskId : TaskId) : OpBlock TaskRecord := do
  ask (.runTaskEntered taskId)
  let task ← getTask taskId
  let ran ← on task (runLoadedTask sup fuel)
  pure ran.2

def submit (sup : Supervisor) (submission : TaskSubmission) : OpBlock TaskRecord :=
  createTaskRecord sup submission true

def runSubmission (sup : Supervisor) (fuel : Nat) (submission : TaskSubmission) :
    OpBlock TaskRecord := do
  let task ← createTaskRecord sup submission false
  runTask sup fuel task.taskId

def runNext (sup : Supervisor) (fuel : Nat) : OpBlock TaskRecord := do
  let taskId ← ask .dequeue
  match taskId with
  | none => raise (.valueError "No queued tasks are available")
  | some taskId => runTask sup fuel taskId

def approveTask (sup : Supervisor) (fuel : Nat) (taskId : TaskId) (actor : String)
    (metadata : Option Dict) (run : Bool) : OpBlock TaskRecord := do
  let task ← getTask taskId
  if task.status = .awaitingApproval then do
    let approved ← on task
      (transitionStatus .approved actor "approved" .taskApproved (metadata.getD []) none none)
    if run then runTask sup fuel taskId
    else do
      ask (.enqueue taskId)
      pure approved.2
  else raise (.valueError ("Task '" ++ taskId ++ "' is not awaiting approval"))

/-- The metadata under which a cancellation is recorded. -/
def cancellationMetadata (reason : Option String) (metadata : Option Dict) : Dict :=
  match reason with
  | some reason => Dict.setdefault (metadata.getD []) "reason" (.str reason)
  | none => metadata.getD []

def cancelTask (taskId : TaskId) (actor : String) (reason : Option String)
    (metadata : Option Dict) : OpBlock TaskRecord := do
  let task ← getTask taskId
  if task.status = .awaitingApproval then do
    let metadata := cancellationMetadata reason metadata
    let cancelledAt ← now
    let error := orText reason "Task cancelled"
    let cancelled ← on
      { task with result := some ⟨false, .none, some error, metadata, none, some cancelledAt⟩ }
      (transitionStatus .cancelled actor "cancelled" .taskCancelled metadata (some error)
        (some cancelledAt))
    pure cancelled.2
  else raise (.valueError ("Task '" ++ taskId ++ "' cannot be cancelled from status '" ++
    task.status.value ++ "'"))

/-- One operation of a client. -/
def runOperation (sup : Supervisor) (fuel : Nat) : Operation → OpBlock TaskRecord
  | .submit submission => submit sup submission
  | .runSubmission submission => runSubmission sup fuel submission
  | .runNext => runNext sup fuel
  | .runTask taskId => runTask sup fuel taskId
  | .approveTask taskId actor metadata run => approveTask sup fuel taskId actor metadata run
  | .cancelTask taskId actor reason metadata => cancelTask taskId actor reason metadata

/-- A client that calls operations one after another; an operation that raises
ends, and the client goes on with the next one. -/
def client (sup : Supervisor) (fuel : Nat) : List Operation → Prog Call Answer Unit
  | [] => .done ()
  | op :: ops =>
      .call (.entered op) fun _ =>
        ((runOperation sup fuel op).run ()).bind fun ended =>
          .call (.left op ended.1) fun _ => client sup fuel ops

/-- A finite sequential run of the supervisor. -/
def Supervisor.run (sup : Supervisor) (env : Env) (fuel : Nat) (ops : List Operation)
    (s : State) : State :=
  ((client sup fuel ops).exec env.machine s).2

/-- A supervisor with these capabilities and no optional collaborator. -/
def Supervisor.unconfigured (capabilities : List String) : Supervisor where
  registry := ⟨capabilities, []⟩
  workdir := "/"
  policyName := "NullPolicyEngine"
  escalationPolicy := false
  guildKnowledge := false
  peerSuggestions := false
  sha256Hex := id

/-- Collaborators under which every capability returns nothing. -/
def Env.returning : Env := .unconfigured fun _ _ _ _ _ => .ok ⟨.none, []⟩

/-- One task, submitted and taken from the queue. -/
def echoRun : State :=
  (Supervisor.unconfigured ["echo"]).run .returning 1
    [.submit ⟨"say", "echo", [], [], 0, none⟩, .runNext] (.initial (.inMemory []))

/-- A task as it was found in the store. -/
def foundTask (status : TaskStatus) : TaskRecord :=
  ⟨"t", "say", "echo", [], [], status, none, 0, 0, none, none, [], 0, 0⟩

def worldWith (task : TaskRecord) : World :=
  { World.initial (.inMemory []) with store := .save .empty task }

theorem worldWith_keyed (task : TaskRecord) : (worldWith task).store.Keyed :=
  MemoryTaskStore.keyed_empty.save task

end Conductor
