/-
The accounts of webhook payloads: what came in, what is still queued, what the
mappers were given and what the sink was handed.  A batch that is aborted leaves
mapped payloads that nobody hands on.
-/
import Conductor.Effects.Invariant
import Conductor.Runtime.Triggers

namespace Conductor

open Effects Block

variable {ι : Type}

namespace TriggerTrace

/-- What the mappers made of their payloads, where they did not raise. -/
def mapped : TriggerTrace ι → List (ι × TaskSubmission)
  | [] => []
  | ⟨.mapper i _, .ok submission⟩ :: h => mapped h ++ [(i, submission)]
  | _ :: h => mapped h

/-- A mapper raises only while no mapped payload waits to be handed on, and the
sink only at the last one that waits. -/
def Contained : TriggerTrace ι → Prop
  | [] => True
  | ⟨.mapper _ _, .error _⟩ :: h => (mapped h).length = (handed h).length ∧ Contained h
  | ⟨.submit _, .error _⟩ :: h => (mapped h).length = (handed h).length + 1 ∧ Contained h
  | _ :: h => Contained h

end TriggerTrace

open TriggerTrace TriggerSchedulerService

/-- The submission is the mapped one, dispatched by its webhook adapter. -/
def Hands (names : ι → String) (made : ι × TaskSubmission) (submission : TaskSubmission) : Prop :=
  ∃ dispatch : TriggerDispatch, dispatch.source = .webhook ∧
    dispatch.triggerName = names made.1 ∧ dispatch.submission = made.2 ∧
    submission = withTriggerMetadata dispatch

/-- Where `waiting` waits to be handed to the sink: the accounts are in order, or
something is lost. -/
def Balanced (names : ι → String) (waiting : List TaskSubmission) (h : TriggerTrace ι) : Prop :=
  Contained h ∧ List.Forall₂ (Hands names) (mapped h) (handed h ++ waiting) ∨
    ¬ Contained h ∧ (handed h).length + waiting.length < (mapped h).length

section Calls

variable {names : ι → String} {waiting : List TaskSubmission} {h : TriggerTrace ι}

theorem balanced_nil : Balanced names [] ([] : TriggerTrace ι) :=
  .inl ⟨trivial, .nil⟩

theorem Balanced.mapped {i : ι} {payload : Dict} {submission made : TaskSubmission}
    (hbalanced : Balanced names waiting h) (hmade : Hands names (i, submission) made) :
    Balanced names (waiting ++ [made]) (⟨.mapper i payload, .ok submission⟩ :: h) := by
  rcases hbalanced with ⟨hcontained, haccounts⟩ | ⟨hlost, hless⟩
  · left
    refine ⟨hcontained, ?_⟩
    rw [TriggerTrace.mapped, ← List.append_assoc]
    exact List.rel_append haccounts (.cons hmade .nil)
  · right
    refine ⟨hlost, ?_⟩
    simp only [TriggerTrace.mapped, TriggerTrace.handed, List.length_append, List.length_singleton]
    omega

theorem Balanced.refused {i : ι} {payload : Dict} {e : PyExc}
    (hbalanced : Balanced names waiting h) :
    Balanced names [] (⟨.mapper i payload, .error e⟩ :: h) := by
  unfold Balanced
  simp only [TriggerTrace.mapped, TriggerTrace.handed, Contained, List.append_nil, List.length_nil,
    Nat.add_zero]
  rcases hbalanced with ⟨hcontained, haccounts⟩ | ⟨hlost, hless⟩
  · have hlength := haccounts.length_eq
    rw [List.length_append] at hlength
    cases waiting with
    | nil =>
        left
        rw [List.append_nil] at haccounts
        exact ⟨⟨haccounts.length_eq, hcontained⟩, haccounts⟩
    | cons submission rest =>
        right
        rw [List.length_cons] at hlength
        constructor
        · intro hcontained'
          omega
        · omega
  · right
    exact ⟨fun hcontained => hlost hcontained.2, by omega⟩

theorem Balanced.handed {submission : TaskSubmission}
    (hbalanced : Balanced names (submission :: waiting) h) (answer : Except PyExc TaskRecord) :
    Balanced names (if answer.isOk then waiting else []) (⟨.submit submission, answer⟩ :: h) := by
  unfold Balanced
  cases answer with
  | ok record =>
      simp only [TriggerTrace.mapped, TriggerTrace.handed, Contained, Except.isOk, Except.toBool,
        if_true, List.append_assoc, List.singleton_append, List.length_append,
        List.length_singleton]
      rcases hbalanced with ⟨hcontained, haccounts⟩ | ⟨hlost, hless⟩
      · exact .inl ⟨hcontained, haccounts⟩
      · rw [List.length_cons] at hless
        exact .inr ⟨hlost, by omega⟩
  | error e =>
      simp only [TriggerTrace.mapped, TriggerTrace.handed, Contained, Except.isOk, Except.toBool,
        Bool.false_eq_true, if_false, List.append_nil, List.length_append, List.length_singleton,
        List.length_nil, Nat.add_zero]
      rcases hbalanced with ⟨hcontained, haccounts⟩ | ⟨hlost, hless⟩
      · have hlength := haccounts.length_eq
        rw [List.length_append, List.length_cons] at hlength
        cases waiting with
        | nil =>
            left
            exact ⟨⟨hlength, hcontained⟩, haccounts⟩
        | cons next rest =>
            right
            rw [List.length_cons] at hlength
            constructor
            · intro hcontained'
              omega
            · omega
      · right
        rw [List.length_cons] at hless
        exact ⟨fun hcontained => hlost hcontained.2, by omega⟩

/-- With nothing waiting, the accounts tell whether anything was lost. -/
theorem Balanced.handed_iff_contained (hbalanced : Balanced names [] h) :
    List.Forall₂ (Hands names) (TriggerTrace.mapped h) (TriggerTrace.handed h) ↔ Contained h := by
  rcases hbalanced with ⟨hcontained, haccounts⟩ | ⟨hlost, hless⟩
  · rw [List.append_nil] at haccounts
    exact ⟨fun _ => hcontained, fun _ => haccounts⟩
  · constructor
    · intro haccounts
      rw [List.length_nil, Nat.add_zero] at hless
      exact absurd haccounts.length_eq hless.ne'
    · intro hcontained
      exact absurd hcontained hlost

end Calls

/-- The identifiers and the clock answer. -/
def Furnished : (c : TriggerCall ι) → TriggerAnswer c → Prop
  | .uuid4, answer => ∃ text, answer = .ok text
  | .now, answer => ∃ time, answer = .ok time
  | _, _ => True

/-- The logic of runs that are told by their calls. -/
def accounting : Logic (TriggerTrace ι) (TriggerCall ι) TriggerAnswer :=
  (Monitor.recording Furnished).totalLogic

theorem accounting_monotone : (accounting : Logic (TriggerTrace ι) _ _).Monotone :=
  Monitor.totalLogic_monotone _

theorem wp_consult {α : Type} {c : TriggerCall ι} {f : TriggerResponse c → TriggerBlock ι α}
    {post : Except PyExc α → TriggerObjects ι → TriggerTrace ι → Prop} {x : TriggerObjects ι}
    {h : TriggerTrace ι}
    (hok : ∀ value, Furnished c (.ok value) → (f value).wp accounting post x (⟨c, .ok value⟩ :: h))
    (herror : ∀ e, Furnished c (.error e) → post (.error e) x (⟨c, .error e⟩ :: h)) :
    (consult c >>= f).wp accounting post x h := by
  rw [wp_bind]
  refine ⟨trivial, ?_⟩
  intro answer hready
  cases answer with
  | ok value => exact hok value hready
  | error e => exact herror e hready

theorem furnished {env : TriggerEnv ι} (k : Config Unit (TriggerCall ι) TriggerAnswer)
    (c : TriggerCall ι) :
    Furnished c (env.machine.step k c).1 := by
  cases c with
  | uuid4 => exact ⟨_, rfl⟩
  | now => exact ⟨_, rfl⟩
  | _ => trivial

variable [DecidableEq ι]

/-- The payloads that the mapper of an adapter was given, the first one first. -/
def TriggerTrace.given (i : ι) : TriggerTrace ι → List Dict
  | [] => []
  | ⟨.mapper j payload, _⟩ :: h => if j = i then given i h ++ [payload] else given i h
  | _ :: h => given i h

/-- Each payload that came in is still queued, or its mapper was given it once;
and what the mappers made of their payloads was handed to the sink, each once and
in order. -/
structure NoPayloadLost (names : ι → String) (ingested : ι → List Dict) (x : TriggerObjects ι)
    (h : TriggerTrace ι) : Prop where
  queued : ∀ i, given i h ++ (x.pendingPayloads i).map Prod.snd = ingested i
  handed : List.Forall₂ (Hands names) (mapped h) (handed h)

/-- What is done with the ingress and the service. -/
inductive TriggerOp where
  | ingest (triggerName : String) (payload : Dict) (receivedAt : Option Datetime)
  | runOnce (now : Option Datetime)

/-- The webhook adapters of a deployment: their names, those of the ingress and
those of the service. -/
structure WebhookDeployment (ι : Type) where
  names : ι → String
  ingress : List ι
  adapters : List ι

/-- A run of operations, with the payloads that each adapter took in. -/
structure WebhookState (ι : Type) where
  objects : TriggerObjects ι
  history : TriggerTrace ι
  ingested : ι → List Dict

namespace WebhookDeployment

variable (deployment : WebhookDeployment ι) (env : TriggerEnv ι)

def operation : TriggerOp → TriggerBlock ι Unit
  | .ingest triggerName payload receivedAt =>
      WebhookIngressService.ingest deployment.names deployment.ingress triggerName payload
        receivedAt
  | .runOnce now => do
      let _submitted ← runOnce (WebhookTriggerAdapter.poll deployment.names) deployment.adapters now
      pure ()

/-- The adapter that an operation brought a payload to. -/
def broughtTo : TriggerOp → Except PyExc Unit → Option (ι × Dict)
  | .ingest triggerName payload _, .ok _ =>
      (WebhookIngressService.adapterNamed deployment.names deployment.ingress triggerName).map
        fun i => (i, payload)
  | _, _ => none

def takeIn (ingested : ι → List Dict) : Option (ι × Dict) → ι → List Dict
  | some (i, payload) => Function.update ingested i (ingested i ++ [payload])
  | none => ingested

/-- One operation, returning or raising. -/
def step (s : WebhookState ι) (op : TriggerOp) : WebhookState ι :=
  match (deployment.operation op).exec env.machine s.objects ⟨s.history, ()⟩ with
  | (some (outcome, x), k) =>
      ⟨x, k.history, takeIn s.ingested (deployment.broughtTo op outcome)⟩
  | (none, k) => ⟨s.objects, k.history, s.ingested⟩

def init : WebhookState ι := ⟨⟨[], fun _ => []⟩, [], fun _ => []⟩

def run (ops : List TriggerOp) : WebhookState ι :=
  ops.foldl (deployment.step env) init

end WebhookDeployment

section Statements

variable {names : ι → String} {ingested : ι → List Dict} {x : TriggerObjects ι}
  {h : TriggerTrace ι} {i : ι}

/-- The payloads that came in are queued or were given to their mapper. -/
def Queued (ingested : ι → List Dict) (x : TriggerObjects ι) (h : TriggerTrace ι) : Prop :=
  ∀ i, given i h ++ (x.pendingPayloads i).map Prod.snd = ingested i

theorem Queued.given {receivedAt : Datetime} {payload : Dict} {rest : List (Datetime × Dict)}
    (hqueued : Queued ingested x h) (hpending : x.pendingPayloads i = (receivedAt, payload) :: rest)
    (answer : Except PyExc TaskSubmission) :
    Queued ingested (x.setPending i rest) (⟨.mapper i payload, answer⟩ :: h) := by
  intro j
  rw [← hqueued j, TriggerTrace.given, TriggerObjects.pendingPayloads_setPending]
  by_cases hj : i = j
  · subst hj
    rw [if_pos rfl, Function.update_self, hpending, List.append_assoc]
    rfl
  · rw [if_neg hj, Function.update_of_ne (Ne.symm hj)]

/-- What waits for the sink when a poll has ended. -/
def waitingAfter : Except PyExc (List TriggerDispatch) → List TaskSubmission
  | .ok dispatches => dispatches.map withTriggerMetadata
  | .error _ => []

/-- The accounts are in order, with this waiting for the sink. -/
def InOrder (names : ι → String) (ingested : ι → List Dict) (waiting : List TaskSubmission)
    (x : TriggerObjects ι) (h : TriggerTrace ι) : Prop :=
  Queued ingested x h ∧ Balanced names waiting h

theorem drain_spec {pending : List (Datetime × Dict)} {dispatches : List TriggerDispatch}
    (hqueued : Queued ingested x h) (hpending : x.pendingPayloads i = pending)
    (hbalanced : Balanced names (dispatches.map withTriggerMetadata) h) :
    (WebhookTriggerAdapter.drain names i pending dispatches).wp accounting
      (fun outcome x' h' => InOrder names ingested (waitingAfter outcome) x' h') x h := by
  induction pending generalizing dispatches x h with
  | nil => exact ⟨hqueued, hbalanced⟩
  | cons entry rest ih =>
      obtain ⟨scheduledFor, payload⟩ := entry
      rw [WebhookTriggerAdapter.drain, wp_bind, wp_mutate]
      apply wp_consult
      · intro submission _
        apply wp_consult
        · intro dispatchId _
          apply wp_consult
          · intro emittedAt _
            apply ih
            · exact hqueued.given hpending (.ok submission)
            · exact Function.update_self i rest x.pendingPayloads
            · rw [List.map_append]
              apply Balanced.mapped hbalanced
              exact ⟨_, rfl, rfl, rfl, rfl⟩
          · nofun
        · nofun
      · intro e _
        exact ⟨hqueued.given hpending (.error e), hbalanced.refused⟩

theorem submitAll_spec {dispatches : List TriggerDispatch} {submitted : List TaskRecord}
    (horder : InOrder names ingested (dispatches.map withTriggerMetadata) x h) :
    (submitAll dispatches submitted).wp accounting
      (fun _ x' h' => InOrder names ingested [] x' h') x h := by
  induction dispatches generalizing submitted h with
  | nil => exact horder
  | cons dispatch dispatches ih =>
      apply wp_consult
      · intro record _
        exact ih ⟨horder.1, horder.2.handed (.ok record)⟩
      · intro e _
        exact ⟨horder.1, horder.2.handed (.error e)⟩

theorem pollFailed_spec {exc : PyExc} (horder : InOrder names ingested [] x h) :
    (pollFailed exc).wp accounting
      (fun outcome x' h' => (∀ polled, outcome = .ok polled → polled = none) ∧
        InOrder names ingested [] x' h') x h := by
  apply wp_consult
  · intro text _
    refine ⟨?_, horder⟩
    intro polled hpolled
    cases hpolled
    rfl
  · intro e _
    exact ⟨nofun, horder⟩

theorem cycle_spec {adapters : List ι} {now : Option Datetime} {submitted : List TaskRecord}
    (horder : InOrder names ingested [] x h) :
    (cycle (WebhookTriggerAdapter.poll names) now adapters submitted).wp accounting
      (fun _ x' h' => InOrder names ingested [] x' h') x h := by
  induction adapters generalizing submitted x h with
  | nil => exact horder
  | cons adapter adapters ih =>
      rw [cycle, wp_bind, wp_tryExcept, wp_bind, WebhookTriggerAdapter.poll, wp_bind, wp_object]
      refine wp_mono accounting_monotone ?_ (drain_spec horder.1 rfl horder.2)
      intro outcome x' h' hpolled
      cases outcome with
      | ok dispatches =>
          simp only [wp_pure]
          rw [wp_bind]
          refine wp_mono accounting_monotone ?_ (submitAll_spec hpolled)
          intro outcome x'' h'' hafter
          cases outcome with
          | ok submitted => exact ih hafter
          | error e => exact hafter
      | error e =>
          dsimp only
          split
          · refine wp_mono accounting_monotone ?_ (pollFailed_spec hpolled)
            rintro outcome x'' h'' ⟨hnone, hafter⟩
            cases outcome with
            | error e => exact hafter
            | ok polled =>
                cases hnone polled rfl
                exact ih hafter
          · exact hpolled

theorem enqueuePayload_spec {payload : Dict} {receivedAt : Option Datetime}
    (horder : InOrder names ingested [] x h) :
    (WebhookTriggerAdapter.enqueuePayload i payload receivedAt).wp accounting
      (fun outcome x' h' => InOrder names
        (WebhookDeployment.takeIn ingested (outcome.toOption.map fun _ => (i, payload))) [] x' h')
      x h := by
  have hstamp (h' : TriggerTrace ι) (hsame : InOrder names ingested [] x h') (clock : Datetime) :
      (ofExcept (normalizedNow clock receivedAt) >>= fun received => object >>= fun x =>
        mutate (·.setPending i (x.pendingPayloads i ++ [(received, payload)]))).wp accounting
        (fun outcome x' h' => InOrder names
          (WebhookDeployment.takeIn ingested (outcome.toOption.map fun _ => (i, payload))) [] x' h')
        x h' := by
    rw [wp_bind, wp_ofExcept]
    cases normalizedNow clock receivedAt with
    | error e => exact hsame
    | ok received =>
        refine ⟨?_, hsame.2⟩
        intro j
        have hqueued := hsame.1 j
        simp only [TriggerObjects.pendingPayloads_setPending, Except.toOption, Option.map_some,
          WebhookDeployment.takeIn]
        by_cases hj : j = i
        · subst hj
          rw [Function.update_self, Function.update_self, List.map_append, ← hqueued,
            List.append_assoc]
          rfl
        · rw [Function.update_of_ne hj, Function.update_of_ne hj]
          exact hqueued
  cases receivedAt with
  | some received => exact hstamp h horder received
  | none =>
      apply wp_consult
      · intro clock _
        exact hstamp _ horder clock
      · intro e hfurnished
        obtain ⟨w, hanswer⟩ := hfurnished
        cases hanswer

end Statements

section Runs

variable {deployment : WebhookDeployment ι} {env : TriggerEnv ι} {s : WebhookState ι}
  {names : ι → String}

open WebhookDeployment

theorem operation_spec {ingested : ι → List Dict} {x : TriggerObjects ι} {h : TriggerTrace ι}
    (op : TriggerOp) (horder : InOrder deployment.names ingested [] x h) :
    (deployment.operation op).wp accounting
      (fun outcome x' h' => InOrder deployment.names
        (takeIn ingested (deployment.broughtTo op outcome)) [] x' h') x h := by
  cases op with
  | runOnce now =>
      rw [operation, wp_bind, runOnce, wp_bind, wp_mutate]
      refine wp_mono accounting_monotone ?_ (cycle_spec (x := x.setIssues []) horder)
      intro outcome x' h' hafter
      cases outcome with
      | ok submitted => exact hafter
      | error e => exact hafter
  | ingest triggerName payload receivedAt =>
      rw [operation, WebhookIngressService.ingest]
      cases hnamed :
          WebhookIngressService.adapterNamed deployment.names deployment.ingress triggerName with
      | none => exact horder
      | some i =>
          refine wp_mono accounting_monotone ?_ (enqueuePayload_spec horder)
          intro outcome x' h' hafter
          cases outcome with
          | ok _ =>
              rw [broughtTo, hnamed]
              exact hafter
          | error e => exact hafter

/-- The state of a run whose accounts are in order. -/
def WebhookState.InOrder (names : ι → String) (s : WebhookState ι) : Prop :=
  Conductor.InOrder names s.ingested [] s.objects s.history

theorem step_inOrder (op : TriggerOp) (horder : s.InOrder deployment.names) :
    (deployment.step env s op).InOrder deployment.names := by
  obtain ⟨outcome, x', k', hexec, hafter⟩ :=
    exec_of_recording furnished (k := ⟨s.history, ()⟩) (operation_spec op horder)
  rw [step, hexec]
  exact hafter

theorem run_inOrder (ops : List TriggerOp) :
    (deployment.run env ops).InOrder deployment.names := by
  have hfold (s : WebhookState ι) (horder : s.InOrder deployment.names) :
      (ops.foldl (deployment.step env) s).InOrder deployment.names := by
    induction ops generalizing s with
    | nil => exact horder
    | cons op ops ih => exact ih _ (step_inOrder op horder)
  exact hfold init ⟨fun _ => rfl, balanced_nil⟩

/-- In every run no payload is lost just if each exception was contained. -/
theorem no_payload_lost_iff (deployment : WebhookDeployment ι) (env : TriggerEnv ι)
    (ops : List TriggerOp) :
    NoPayloadLost deployment.names (deployment.run env ops).ingested
        (deployment.run env ops).objects (deployment.run env ops).history ↔
      Contained (deployment.run env ops).history := by
  have hinOrder : (deployment.run env ops).InOrder deployment.names := run_inOrder ops
  obtain ⟨hqueued, hbalanced⟩ := hinOrder
  rw [← hbalanced.handed_iff_contained]
  constructor
  · intro haccounts
    exact haccounts.handed
  · intro hhanded
    exact ⟨hqueued, hhanded⟩

/-- One adapter, behind the ingress and in the service. -/
def oneHook : WebhookDeployment Unit := ⟨fun _ => "hook", [()], [()]⟩

/-- A mapper that raises on the second payload it is given. -/
def secondRefused : TriggerEnv Unit where
  uuid4 _ := "dispatch"
  now _ := .firstMoment
  mapper n _ payload :=
    if n = 1 then .error (.exception "KeyError" "'event'")
    else .ok ⟨"webhook", "echo", payload, [], 0, none⟩
  submit _ submission :=
    .ok ⟨"task", submission.name, submission.capability, submission.input, submission.metadata,
      .pending, none, 0, submission.maxRetries, submission.workflowId, none, [], 0, 0⟩
  poll _ _ _ := .ok []
  healthCheck _ _ := .ok []
  str exc := exc.str

/-- The payload before the one that the mapper raises on is lost with it. -/
theorem mapped_payload_lost :
    ¬ ∀ (deployment : WebhookDeployment Unit) (env : TriggerEnv Unit) (ops : List TriggerOp),
      NoPayloadLost deployment.names (deployment.run env ops).ingested
        (deployment.run env ops).objects (deployment.run env ops).history := by
  intro hclaim
  have hlength := (hclaim oneHook secondRefused
    [.ingest "hook" [] none, .ingest "hook" [] none, .runOnce none]).handed.length_eq
  revert hlength
  decide +kernel

end Runs

end Conductor
