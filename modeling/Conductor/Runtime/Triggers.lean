/-
The trigger service: it polls its adapters and hands what they emit to a sink.
Webhook adapters queue the payloads that come in and map them when they are
polled.  Adapters are told apart by their identity `ι`.
-/
import Conductor.Effects.Coupling
import Conductor.Interfaces
import Conductor.Runtime.CronSchedule

namespace Conductor

open Effects Block

inductive TriggerSource where
  | cron
  | webhook
deriving DecidableEq, Repr

def TriggerSource.value : TriggerSource → String
  | .cron => "cron"
  | .webhook => "webhook"

/-- A single task submission emitted by an external trigger adapter. -/
structure TriggerDispatch where
  dispatchId : String
  source : TriggerSource
  triggerName : String
  scheduledFor : Datetime
  emittedAt : Datetime
  submission : TaskSubmission

/-- What the scheduler calls: the clock, the identifiers, the mappers, the sink,
adapters of other kinds, and the text of an exception. -/
inductive TriggerCall (ι : Type) where
  | uuid4
  | now
  | mapper (adapter : ι) (payload : Dict)
  | submit (submission : TaskSubmission)
  | poll (adapter : ι) (now : Option Datetime)
  | healthCheck (adapter : ι)
  | str (exc : PyExc)

abbrev TriggerResponse {ι : Type} : TriggerCall ι → Type
  | .uuid4 => String
  | .now => Datetime
  | .mapper _ _ => TaskSubmission
  | .submit _ => TaskRecord
  | .poll _ _ => List TriggerDispatch
  | .healthCheck _ => List String
  | .str _ => String

abbrev TriggerAnswer {ι : Type} : TriggerCall ι → Type := Reply TriggerResponse PyExc

/-- The calls of the scheduler, the newest first. -/
abbrev TriggerTrace (ι : Type) := History (TriggerCall ι) TriggerAnswer

/-- The mutable fields: the issues of the service, and the queue of each webhook
adapter. -/
structure TriggerObjects (ι : Type) where
  runtimeIssues : List String
  pendingPayloads : ι → List (Datetime × Dict)

abbrev TriggerBlock (ι : Type) := Block (TriggerCall ι) TriggerResponse PyExc (TriggerObjects ι)

/-- Make one of the scheduler's calls. -/
def consult {ι : Type} (c : TriggerCall ι) : TriggerBlock ι (TriggerResponse c) := perform c

theorem normalizeNow_lt {clock t : Time} {now : Option Datetime} (hclock : clock < endOfTime)
    (hnow : normalizeNow clock now = .ok t) : t < endOfTime := by
  unfold normalizeNow at hnow
  split at hnow
  · cases hnow
    exact hclock
  · next now =>
      split at hnow
      · cases hnow
        exact now.clock_lt
      · unfold Datetime.astimezoneUtc at hnow
        dsimp only at hnow
        split at hnow
        · next hrange =>
            cases hnow
            exact (Int.toNat_lt hrange.1).mpr hrange.2
        · cases hnow

/-- `_normalize_now` as a datetime. -/
def normalizedNow (clock : Datetime) (now : Option Datetime) : Except PyExc Datetime :=
  match hnow : normalizeNow clock.clock now with
  | .ok t => .ok (.utc t (normalizeNow_lt clock.clock_lt hnow))
  | .error e => .error e

namespace TriggerObjects

variable {ι : Type}

def setIssues (issues : List String) (x : TriggerObjects ι) : TriggerObjects ι :=
  { x with runtimeIssues := issues }

def appendIssue (issue : String) (x : TriggerObjects ι) : TriggerObjects ι :=
  x.setIssues (x.runtimeIssues ++ [issue])

@[simp] theorem runtimeIssues_setIssues (issues : List String) (x : TriggerObjects ι) :
    (x.setIssues issues).runtimeIssues = issues := rfl

@[simp] theorem pendingPayloads_setIssues (issues : List String) (x : TriggerObjects ι) :
    (x.setIssues issues).pendingPayloads = x.pendingPayloads := rfl

variable [DecidableEq ι]

def setPending (i : ι) (entries : List (Datetime × Dict)) (x : TriggerObjects ι) :
    TriggerObjects ι :=
  { x with pendingPayloads := Function.update x.pendingPayloads i entries }

@[simp] theorem runtimeIssues_setPending (i : ι) (entries : List (Datetime × Dict))
    (x : TriggerObjects ι) : (x.setPending i entries).runtimeIssues = x.runtimeIssues := rfl

@[simp] theorem pendingPayloads_setPending (i : ι) (entries : List (Datetime × Dict))
    (x : TriggerObjects ι) :
    (x.setPending i entries).pendingPayloads = Function.update x.pendingPayloads i entries := rfl

end TriggerObjects

namespace WebhookTriggerAdapter

variable {ι : Type} [DecidableEq ι]

/-- `enqueue_payload`. -/
def enqueuePayload (i : ι) (payload : Dict) (receivedAt : Option Datetime) :
    TriggerBlock ι Unit := do
  let clock : Datetime ← match receivedAt with
    | none => consult .now
    | some received => pure received
  let received ← ofExcept (normalizedNow clock receivedAt)
  let x ← object
  mutate (·.setPending i (x.pendingPayloads i ++ [(received, payload)]))

/-- The loop of `poll` over the queue `pending`. -/
def drain (names : ι → String) (i : ι) (pending : List (Datetime × Dict))
    (dispatches : List TriggerDispatch) : TriggerBlock ι (List TriggerDispatch) :=
  match pending with
  | [] => pure dispatches
  | (scheduledFor, payload) :: rest => do
      mutate (·.setPending i rest)
      let submission : TaskSubmission ← consult (.mapper i payload)
      let dispatchId : String ← consult .uuid4
      let emittedAt : Datetime ← consult .now
      drain names i rest (dispatches ++ [{
        dispatchId := dispatchId
        source := .webhook
        triggerName := names i
        scheduledFor := scheduledFor
        emittedAt := emittedAt
        submission := submission }])

def poll (names : ι → String) (i : ι) (_now : Option Datetime) :
    TriggerBlock ι (List TriggerDispatch) := do
  let x ← object
  drain names i (x.pendingPayloads i) []

end WebhookTriggerAdapter

namespace WebhookIngressService

variable {ι : Type} [DecidableEq ι]

/-- `_adapters_by_name.get(name)`: the last adapter of a name is the one in the
dictionary. -/
def adapterNamed (names : ι → String) (adapters : List ι) (name : String) : Option ι :=
  adapters.reverse.find? fun i => names i = name

def ingest (names : ι → String) (adapters : List ι) (triggerName : String) (payload : Dict)
    (receivedAt : Option Datetime) : TriggerBlock ι Unit :=
  match adapterNamed names adapters triggerName with
  | none => raise (.valueError ("Unknown webhook trigger " ++ pyRepr triggerName))
  | some i => WebhookTriggerAdapter.enqueuePayload i payload receivedAt

end WebhookIngressService

namespace ExternalTriggerAdapter

variable {ι : Type}

def poll (i : ι) (now : Option Datetime) : TriggerBlock ι (List TriggerDispatch) :=
  consult (.poll i now)

def healthCheck (i : ι) : TriggerBlock ι (List String) :=
  consult (.healthCheck i)

end ExternalTriggerAdapter

namespace TriggerSchedulerService

variable {ι : Type}

/-- `_with_trigger_metadata`. -/
def withTriggerMetadata (dispatch : TriggerDispatch) : TaskSubmission :=
  { dispatch.submission with
    metadata := Dict.insert "trigger"
      (.dict [("dispatch_id", .str dispatch.dispatchId),
        ("source", .str dispatch.source.value),
        ("trigger_name", .str dispatch.triggerName),
        ("scheduled_for", .str dispatch.scheduledFor.isoformat),
        ("emitted_at", .str dispatch.emittedAt.isoformat)])
      dispatch.submission.metadata }

/-- The loop of `run_once` over the dispatches of one adapter. -/
def submitAll : List TriggerDispatch → List TaskRecord → TriggerBlock ι (List TaskRecord)
  | [], submitted => pure submitted
  | dispatch :: dispatches, submitted => do
      let record : TaskRecord ← consult (.submit (withTriggerMetadata dispatch))
      submitAll dispatches (submitted ++ [record])

/-- The `except` clause of `run_once`; `none` stands for `continue`. -/
def pollFailed (exc : PyExc) : TriggerBlock ι (Option (List TriggerDispatch)) := do
  let text : String ← consult (.str exc)
  mutate (·.appendIssue ("scheduler: adapter poll failed: " ++ text))
  pure none

/-- The loop of `run_once` over the adapters. -/
def cycle (poll : ι → Option Datetime → TriggerBlock ι (List TriggerDispatch))
    (now : Option Datetime) : List ι → List TaskRecord → TriggerBlock ι (List TaskRecord)
  | [], submitted => pure submitted
  | adapter :: adapters, submitted => do
      let polled ← tryExcept (·.isException)
        (do
          let dispatches ← poll adapter now
          pure (some dispatches))
        pollFailed
      match polled with
      | none => cycle poll now adapters submitted
      | some dispatches => do
          let submitted ← submitAll dispatches submitted
          cycle poll now adapters submitted

def runOnce (poll : ι → Option Datetime → TriggerBlock ι (List TriggerDispatch))
    (adapters : List ι) (now : Option Datetime) : TriggerBlock ι (List TaskRecord) := do
  mutate (·.setIssues [])
  cycle poll now adapters []

/-- The loop of `health_check` over the adapters. -/
def checkAdapters (healthCheck : ι → TriggerBlock ι (List String)) :
    List ι → List String → TriggerBlock ι (List String)
  | [], issues => pure issues
  | adapter :: adapters, issues => do
      let found ← tryExcept (·.isException) (healthCheck adapter)
        (fun exc => do
          let text : String ← consult (.str exc)
          pure ["scheduler: adapter health check failed: " ++ text])
      checkAdapters healthCheck adapters (issues ++ found)

def healthCheck (check : ι → TriggerBlock ι (List String)) (adapters : List ι) :
    TriggerBlock ι (List String) := do
  let x ← object
  checkAdapters check adapters x.runtimeIssues

end TriggerSchedulerService

namespace TriggerTrace

variable {ι : Type}

/-- The calls of the mappers so far. -/
def mapperCalls : TriggerTrace ι → Nat
  | [] => 0
  | ⟨.mapper _ _, _⟩ :: h => mapperCalls h + 1
  | _ :: h => mapperCalls h

/-- The submissions that the sink was handed, taken or not, the first one
first. -/
def handed : TriggerTrace ι → List TaskSubmission
  | [] => []
  | ⟨.submit submission, _⟩ :: h => handed h ++ [submission]
  | _ :: h => handed h

/-- The polls of adapters of other kinds. -/
def polled : TriggerTrace ι → List (ι × Option Datetime)
  | [] => []
  | ⟨.poll i now, _⟩ :: h => polled h ++ [(i, now)]
  | _ :: h => polled h

end TriggerTrace

/-- What the calls are answered.  The mappers, the sink and the adapters may
answer differently each time: the number counts such calls before this one. -/
structure TriggerEnv (ι : Type) where
  uuid4 : TriggerTrace ι → String
  now : TriggerTrace ι → Datetime
  mapper : Nat → ι → Dict → Except PyExc TaskSubmission
  submit : Nat → TaskSubmission → Except PyExc TaskRecord
  poll : Nat → ι → Option Datetime → Except PyExc (List TriggerDispatch)
  healthCheck : TriggerTrace ι → ι → Except PyExc (List String)
  str : PyExc → Except PyExc String

namespace TriggerEnv

variable {ι : Type}

def respond (env : TriggerEnv ι) (h : TriggerTrace ι) : (c : TriggerCall ι) → TriggerAnswer c
  | .uuid4 => .ok (env.uuid4 h)
  | .now => .ok (env.now h)
  | .mapper i payload => env.mapper h.mapperCalls i payload
  | .submit submission => env.submit h.handed.length submission
  | .poll i now => env.poll h.polled.length i now
  | .healthCheck i => env.healthCheck h i
  | .str exc => env.str exc

def machine (env : TriggerEnv ι) : Machine Unit (TriggerCall ι) TriggerAnswer :=
  ⟨fun h _ c => (env.respond h c, ())⟩

end TriggerEnv

end Conductor
