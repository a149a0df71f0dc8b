/-
The calls a task supervisor makes, and the machine that answers them.  The
task store, the queue and the supervisor's own table of capability starts are
state; every other collaborator answers as it likes, from the whole history of
calls so far.  `entered`, `left` and `runTaskEntered` call nobody: they mark in
the history where a method was entered and how an operation ended.
-/
import Conductor.Effects.Block
import Conductor.Runtime.Store
import Conductor.Runtime.Retry
import Conductor.Runtime.Policy

namespace Conductor

open Effects

/-- The public operations of the supervisor that change tasks. -/
inductive Operation where
  | submit (submission : TaskSubmission)
  | runSubmission (submission : TaskSubmission)
  | runNext
  | runTask (taskId : TaskId)
  | approveTask (taskId : TaskId) (actor : String) (metadata : Option Dict) (run : Bool)
  | cancelTask (taskId : TaskId) (actor : String) (reason : Option String)
      (metadata : Option Dict)

/-- One call.  Where a call concerns the task that is being worked on, it
carries the caller's in-memory record. -/
inductive Call where
  | entered (op : Operation)
  | left (op : Operation) (outcome : Except PyExc TaskRecord)
  | runTaskEntered (taskId : TaskId)
  | now
  | localNow
  | uuid4
  | monotonic
  | sleep (seconds : Rat)
  | storeGet (taskId : TaskId)
  | storeSave (task : TaskRecord)
  | enqueue (taskId : TaskId)
  | dequeue
  | lastStart (capability : String)
  | setLastStart (capability : String) (start : Rat)
  | emit (task : TaskRecord) (event : TaskEvent)
  | descriptor (capability : String)
  | validateInput (capability : String) (input : Dict)
  | execute (capability : String) (task : TaskRecord) (payload : Value)
      (context : CapabilityContext) (timeoutSeconds : Option Rat)
  | evaluate (task : TaskRecord) (context : PolicyContext)
  | decide (task : TaskRecord) (failure : FailureContext)
  | shouldEscalate (task : TaskRecord) (history : List FailureContext)
  | buildRecord (task : TaskRecord) (history : List FailureContext)
  | suggest (capability : String) (input : Dict)
  | publish (capability : String) (failures : List FailureContext) (resolutionHint : String)
  | publishSuccess (capability : String) (input : Dict)

/-- What a call gives back when it does not raise. -/
abbrev Response : Call → Type
  | .now | .localNow => Time
  | .uuid4 => TaskId
  | .monotonic => Rat
  | .storeGet _ => Option TaskRecord
  | .dequeue => Option TaskId
  | .lastStart _ => Option Rat
  | .descriptor _ => CapabilityDescriptor
  | .validateInput _ _ => Value
  | .execute _ _ _ _ _ => CapabilityResult
  | .evaluate _ _ => PolicyDecision
  | .decide _ _ => RetryDecision
  | .shouldEscalate _ _ => Bool
  | .buildRecord _ _ => EscalationRecord
  | .suggest _ _ => List GuildSuggestion
  | .entered _ | .left _ _ | .runTaskEntered _ | .sleep _ | .storeSave _ | .enqueue _
  | .setLastStart _ _ | .emit _ _ | .publish _ _ _ | .publishSuccess _ _ => Unit

abbrev Answer := Reply Response PyExc

/-- The calls of a run, the newest first. -/
abbrev Trace := History Call Answer

/-- The records that `capability.execute` was called for, the newest first. -/
def executions : Trace → List TaskRecord
  | [] => []
  | ⟨.execute _ task _ _ _, _⟩ :: h => task :: executions h
  | _ :: h => executions h

theorem exists_split_of_mem_executions {h : Trace} {task : TaskRecord}
    (hmem : task ∈ executions h) :
    ∃ later earlier capability payload context timeout,
      ∃ answer : Answer (.execute capability task payload context timeout),
        h = later ++ ⟨.execute capability task payload context timeout, answer⟩ :: earlier := by
  induction h with
  | nil => cases hmem
  | cons e h ih =>
      have hlater (hmem : task ∈ executions h) : ∃ later earlier capability payload context timeout,
          ∃ answer : Answer (.execute capability task payload context timeout),
            e :: h = later ++
              ⟨.execute capability task payload context timeout, answer⟩ :: earlier := by
        obtain ⟨later, earlier, capability, payload, context, timeout, answer, hsplit⟩ := ih hmem
        exact ⟨e :: later, earlier, capability, payload, context, timeout, answer,
          congrArg (e :: ·) hsplit⟩
      obtain ⟨c, answer⟩ := e
      cases c with
      | execute capability executed payload context timeout =>
          rcases List.mem_cons.mp hmem with rfl | hmem
          · exact ⟨[], h, capability, payload, context, timeout, answer, rfl⟩
          · exact hlater hmem
      | _ => exact hlater hmem

/-- Statements of an operation, without a task in hand. -/
abbrev OpBlock := Block Call Response PyExc Unit

/-- Statements that work on the local variable `task`. -/
abbrev TaskBlock := Block Call Response PyExc TaskRecord

/-- Make one of the supervisor's calls. -/
def ask {σ : Type} (c : Call) : Block Call Response PyExc σ (Response c) := Block.perform c

-- The reply type is kept out of the simp index: at a concrete call it has
-- already been computed.
@[simp] theorem wp_ask {S : Type*} {σ : Type} {L : Logic S Call Answer} {x : σ} {s : S}
    (c : Call) (post : Except PyExc (Response c) → σ → S → Prop) :
    @Block.wp Call Response PyExc σ (no_index (Response c)) S L (ask c) post x s =
      L.call s c fun reply s' => post reply x s' := rfl

/-- The collaborators.  Each answer may depend on every call made before. -/
structure Env where
  now : Trace → Time
  localNow : Trace → Time
  uuid4 : Trace → TaskId
  monotonic : Trace → Rat
  sleep : Trace → Rat → Except PyExc Unit
  emit : Trace → TaskEvent → Except PyExc Unit
  descriptor : Trace → String → Except PyExc CapabilityDescriptor
  validateInput : Trace → String → Dict → Except PyExc Value
  execute : Trace → String → Value → CapabilityContext → Option Rat →
    Except PyExc CapabilityResult
  evaluate : Trace → TaskRecord → PolicyContext → Except PyExc PolicyDecision
  decide : Trace → TaskRecord → FailureContext → Except PyExc RetryDecision
  shouldEscalate : Trace → TaskRecord → List FailureContext → Except PyExc Bool
  buildRecord : Trace → TaskRecord → List FailureContext → Except PyExc EscalationRecord
  suggest : Trace → String → Dict → Except PyExc (List GuildSuggestion)
  publish : Trace → String → List FailureContext → String → Except PyExc Unit
  publishSuccess : Trace → String → Dict → Except PyExc Unit

/-- The state behind the calls that the runtime answers itself. -/
structure World where
  store : MemoryTaskStore
  queue : TaskQueue
  lastCapabilityStart : List (String × Rat)

/-- Nothing stored, nothing queued. -/
def World.initial (queue : TaskQueue) : World := ⟨.empty, queue, []⟩

/-- The answer to a call and the state after it. -/
def Env.respond (env : Env) (h : Trace) (w : World) : (c : Call) → Answer c × World
  | .entered _ => (.ok (), w)
  | .left _ _ => (.ok (), w)
  | .runTaskEntered _ => (.ok (), w)
  | .now => (.ok (env.now h), w)
  | .localNow => (.ok (env.localNow h), w)
  | .uuid4 => (.ok (env.uuid4 h), w)
  | .monotonic => (.ok (env.monotonic h), w)
  | .sleep seconds => (env.sleep h seconds, w)
  | .storeGet taskId => (.ok (w.store.get taskId), w)
  | .storeSave task => (.ok (), { w with store := w.store.save task })
  | .enqueue taskId =>
      match w.queue.enqueue taskId with
      | .ok queue => (.ok (), { w with queue := queue })
      | .error e => (.error e, w)
  | .dequeue => (.ok w.queue.dequeue.1, { w with queue := w.queue.dequeue.2 })
  | .lastStart capability => (.ok (w.lastCapabilityStart.lookup capability), w)
  | .setLastStart capability start =>
      (.ok (), { w with lastCapabilityStart := (capability, start) :: w.lastCapabilityStart })
  | .emit _ event => (env.emit h event, w)
  | .descriptor capability => (env.descriptor h capability, w)
  | .validateInput capability input => (env.validateInput h capability input, w)
  | .execute capability _ payload context timeout =>
      (env.execute h capability payload context timeout, w)
  | .evaluate task context => (env.evaluate h task context, w)
  | .decide task failure => (env.decide h task failure, w)
  | .shouldEscalate task history => (env.shouldEscalate h task history, w)
  | .buildRecord task history => (env.buildRecord h task history, w)
  | .suggest capability input => (env.suggest h capability input, w)
  | .publish capability failures hint => (env.publish h capability failures hint, w)
  | .publishSuccess capability input => (env.publishSuccess h capability input, w)

def Env.machine (env : Env) : Machine World Call Answer := ⟨env.respond⟩

/-- History and state of a supervisor in use. -/
abbrev State := Config World Call Answer

def State.initial (queue : TaskQueue) : State := ⟨[], World.initial queue⟩

/-- The ids of the records saved so far. -/
def savedIds : Trace → List TaskId
  | [] => []
  | ⟨.storeSave task, _⟩ :: h => task.taskId :: savedIds h
  | _ :: h => savedIds h

/-- An id longer than all the ids in use together. -/
def freshId (h : Trace) : TaskId :=
  String.ofList (List.replicate (((savedIds h).map String.length).sum + 1) 'x')

/-- The collaborators of a supervisor for which none is configured: no events,
every task allowed, the default retry strategy, no escalation and no guild.
The clocks count the calls, and only `execute` is left open. -/
def Env.unconfigured (execute : Trace → String → Value → CapabilityContext → Option Rat →
    Except PyExc CapabilityResult) : Env where
  now h := h.length
  localNow h := h.length
  uuid4 := freshId
  monotonic h := h.length
  sleep _ _ := .ok ()
  emit _ _ := .ok ()
  descriptor _ name := .ok ⟨name, "", .low, [], false⟩
  validateInput _ _ input := .ok (.dict input)
  execute := execute
  evaluate _ _ _ := .ok nullPolicyDecision
  decide h _ failure := RetryStrategy.decide h failure (.default ⟨false, none⟩)
  shouldEscalate _ _ _ := .ok false
  buildRecord h task failures :=
    .ok ⟨task.taskId, task.capability, task.attempt, failures, h.length, none⟩
  suggest _ _ _ := .ok []
  publish _ _ _ _ := .ok ()
  publishSuccess _ _ _ := .ok ()

/-- The collaborators with the default-deny policy engine. -/
def Env.withPolicy (env : Env) (policy : DenyByDefaultPolicy) : Env :=
  { env with evaluate := fun _ _ context => .ok (policy.evaluate context) }

/-- The collaborators with one of the shipped retry strategies. -/
def Env.withRetryStrategy (env : Env) (strategy : RetryStrategy Trace) : Env :=
  { env with decide := fun h _ failure => strategy.decide h failure }

/-- The collaborators with a threshold escalation policy. -/
def Env.withEscalationPolicy (env : Env) (policy : ThresholdEscalationPolicy) : Env :=
  { env with
    shouldEscalate := fun _ _ history => .ok (policy.shouldEscalate history)
    buildRecord := fun h task history => .ok (policy.buildRecord task history (env.localNow h)) }

end Conductor
