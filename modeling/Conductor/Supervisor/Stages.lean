/-
One walk over the text of the supervisor.  What an assertion must survive is
said call by call and save by save; that every method then keeps it is shown
here once, for any logic and any assertion.
-/
import Conductor.Effects.Invariant
import Conductor.Supervisor.Lifecycle
import Conductor.Supervisor.Service

namespace Conductor

open Effects Block

/-- The event that follows an audit entry with this action. -/
def EventType.ofAction : String → Option EventType
  | "started" => some .taskStarted
  | "retry" => some .taskRetry
  | "completed" => some .taskCompleted
  | "failed" => some .taskFailed
  | "escalated" => some .taskEscalated
  | "denied" => some .taskPolicyDenied
  | "awaiting_approval" => some .taskAwaitingApproval
  | "approved" => some .taskApproved
  | "cancelled" => some .taskCancelled
  | _ => none

/-- The actions of the transitions that working on an authorised task makes. -/
def workActions : List String := ["started", "completed", "failed", "escalated"]

/-- How far `run_task` has come: the record is loaded, its capability asks for
no approval, it may be executed. -/
inductive Stage where
  | loaded
  | ungated
  | authorised
deriving DecidableEq

/-- Calls that `run_task` makes beside the record it works on. -/
def Call.beside : Call → Bool
  | .now | .localNow | .monotonic | .sleep _ | .lastStart _ | .setLastStart _ _
  | .validateInput _ _ | .shouldEscalate _ _ | .buildRecord _ _ | .publish _ _ _
  | .publishSuccess _ _ => true
  | _ => false

variable {S : Type*} {L : Logic S Call Answer} {σ : Type}

/-- Assertions about the task in hand, one for each stage, that everything
`run_task` does to a loaded record keeps. -/
structure TaskInvariant (L : Logic S Call Answer) (I : Stage → TaskRecord → S → Prop) :
    Prop where
  monotone : L.Monotone
  outOfFuel : ∀ ⦃task s⦄, I .authorised task s → L.outOfFuel s
  loaded : ∀ ⦃stage task s⦄, I stage task s → I .loaded task s
  approved : ∀ ⦃task s⦄, I .loaded task s → task.status = .approved → I .authorised task s
  result : ∀ ⦃stage task s⦄ (result : TaskResult), I stage task s →
    I stage { task with result := some result } s
  attempt : ∀ ⦃task s⦄ (attempt : Int), I .authorised task s →
    I .authorised { task with attempt := attempt } s
  beside : ∀ ⦃stage task s c⦄, c.beside = true → I stage task s →
    L.call s c fun _ s' => I stage task s'
  described : ∀ ⦃stage task s⦄, stage ≠ .authorised → I stage task s →
    L.call s (.descriptor task.capability) fun answer s' => I stage task s' ∧
      ∀ descriptor, answer = .ok descriptor → descriptor.requireApproval = false →
        I .ungated task s'
  evaluated : ∀ ⦃task s⦄ (context : PolicyContext), I .ungated task s →
    L.call s (.evaluate task context) fun answer s' => I .ungated task s' ∧
      ∀ decision, answer = .ok decision → decision.decision = .allow → I .authorised task s'
  parked : ∀ ⦃task s⦄ (actor : String) (metadata : Dict), I .loaded task s →
    (transitionStatus .awaitingApproval actor "awaiting_approval" .taskAwaitingApproval
      metadata none none).wp L (fun outcome t s' => I .loaded t s' ∧
        (outcome = .ok () → t.status = .awaitingApproval)) task s
  denied : ∀ ⦃task s⦄ (metadata : Dict) (error : Option String) (ts : Time), I .ungated task s →
    (transitionStatus .policyDenied "policy" "denied" .taskPolicyDenied metadata error
      (some ts)).wp L (fun outcome t s' => I .loaded t s' ∧
        (outcome = .ok () → t.status = .policyDenied)) task s
  suggested : ∀ ⦃task s⦄, I .authorised task s →
    L.call s (.suggest task.capability task.input) fun answer s' => I .authorised task s' ∧
      ∀ best rest, answer = .ok (best :: rest) →
        I .authorised { task with input := Dict.update task.input best.approachAdjustment } s'
  attempted : ∀ ⦃task s⦄ (capability : String) (context : CapabilityContext)
    (timeout : Option Rat), I .authorised task s →
      L.call s (.validateInput capability task.input) fun answer s' => I .authorised task s' ∧
        ∀ payload, answer = .ok payload →
          L.call s' (.execute capability task payload context timeout) fun _ s'' =>
            I .authorised task s''
  decided : ∀ ⦃task s⦄ (failure : FailureContext), I .authorised task s →
    L.call s (.decide task failure) fun answer s' => I .authorised task s' ∧
      ∀ decision, answer = .ok decision → I .authorised { task with
        attempt := task.attempt + 1, input := decision.adjustedInput.getD task.input } s'
  noted : ∀ (actor action : String) (fromStatus toStatus : Option TaskStatus) (metadata : Dict),
    EventType.ofAction action = none → Keeps L (I .authorised) do
      appendAudit actor action fromStatus toStatus metadata none
      saveTask none
  retried : ∀ (metadata : Dict) (error : Option String), Keeps L (I .authorised) do
      appendAudit "supervisor" "retry" (some .running) (some .running) metadata none
      saveTask none
      emitEvent .taskRetry error metadata
  worked : ∀ (toStatus : TaskStatus) (action : String) (eventType : EventType) (metadata : Dict)
    (error : Option String) (ts : Time), action ∈ workActions → toStatus ≠ .pending →
      EventType.ofAction action = some eventType →
        Keeps L (I .authorised)
          (transitionStatus toStatus "supervisor" action eventType metadata error (some ts))

/-- Calls that are made about a task under way, beside its attempts. -/
def Call.aside : Call → Bool
  | .now | .localNow | .sleep _ | .shouldEscalate _ _ | .buildRecord _ _ | .publish _ _ _
  | .publishSuccess _ _ => true
  | _ => false

theorem Call.beside_of_aside {c : Call} (hc : c.aside = true) : c.beside = true := by
  cases c <;> first | rfl | cases hc

/-- Assertions about the task in hand that the statements around its attempts
keep. -/
structure WorkInvariant (L : Logic S Call Answer) (I : TaskRecord → S → Prop) : Prop where
  monotone : L.Monotone
  result : ∀ ⦃task s⦄ (result : TaskResult), I task s → I { task with result := some result } s
  aside : ∀ ⦃task s c⦄, c.aside = true → I task s → L.call s c fun _ s' => I task s'
  noted : ∀ (actor action : String) (fromStatus toStatus : Option TaskStatus) (metadata : Dict),
    EventType.ofAction action = none → Keeps L I do
      appendAudit actor action fromStatus toStatus metadata none
      saveTask none
  retried : ∀ (metadata : Dict) (error : Option String), Keeps L I do
      appendAudit "supervisor" "retry" (some .running) (some .running) metadata none
      saveTask none
      emitEvent .taskRetry error metadata
  worked : ∀ (toStatus : TaskStatus) (action : String) (eventType : EventType) (metadata : Dict)
    (error : Option String) (ts : Time), action ∈ workActions → toStatus ≠ .pending →
      EventType.ofAction action = some eventType → Keeps L I
        (transitionStatus toStatus "supervisor" action eventType metadata error (some ts))

theorem TaskInvariant.work {I : Stage → TaskRecord → S → Prop} (hI : TaskInvariant L I) :
    WorkInvariant L (I .authorised) where
  monotone := hI.monotone
  result _ _ result h := hI.result result h
  aside _ _ _ hc h := hI.beside (Call.beside_of_aside hc) h
  noted := hI.noted
  retried := hI.retried
  worked := hI.worked

namespace WorkInvariant

variable {I : TaskRecord → S → Prop} {sup : Supervisor}

theorem ask_aside (hI : WorkInvariant L I) {c : Call} (hc : c.aside = true) : Keeps L I (ask c) :=
  .perform fun _ _ h => hI.aside hc h

theorem mutate_result (hI : WorkInvariant L I) (result : TaskResult) :
    Keeps L I (mutate fun task => { task with result := some result }) :=
  .mutate fun _ _ h => hI.result result h

theorem publishFailures (hI : WorkInvariant L I) (history : List FailureContext)
    (hint : String) : Keeps L I (publishFailures sup history hint) := by
  unfold Conductor.publishFailures
  split
  · exact .bind hI.monotone .object fun _ => hI.ask_aside rfl
  · exact .pure ()

theorem buildEscalationRecord (hI : WorkInvariant L I) (history : List FailureContext) :
    Keeps L I (buildEscalationRecord sup history) := by
  unfold Conductor.buildEscalationRecord
  split
  · refine .bind hI.monotone .object fun _ => ?_
    exact .bind hI.monotone (hI.ask_aside rfl) fun _ => .pure _
  · exact .pure none

theorem policyEscalates (hI : WorkInvariant L I) (history : List FailureContext) :
    Keeps L I (policyEscalates sup history) := by
  unfold Conductor.policyEscalates
  split
  · exact .bind hI.monotone .object fun _ => hI.ask_aside rfl
  · exact .pure false

theorem escalates (hI : WorkInvariant L I) (decision : RetryDecision)
    (history : List FailureContext) :
    Keeps L I (escalates sup decision history) := by
  unfold Conductor.escalates
  split
  · exact .pure true
  · exact hI.policyEscalates history

theorem retryDelay (hI : WorkInvariant L I) (decision : RetryDecision) :
    Keeps L I (retryDelay decision) := by
  unfold Conductor.retryDelay
  split
  · split
    · exact hI.ask_aside rfl
    · exact .pure ()
  · exact .pure ()

theorem doEscalate (hI : WorkInvariant L I) (history : List FailureContext) (startedAt : Time)
    (exc : PyExc) (reason : Option String) :
    Keeps L I (doEscalate sup history startedAt exc reason) := by
  unfold Conductor.doEscalate
  refine .bind hI.monotone (hI.ask_aside rfl) fun escalatedAt => ?_
  refine .bind hI.monotone (hI.buildEscalationRecord history) fun record => ?_
  refine .bind hI.monotone (.ofExcept _) fun error => ?_
  refine .bind hI.monotone (hI.mutate_result _) fun _ => ?_
  refine .bind hI.monotone .object fun task => ?_
  refine .bind hI.monotone (hI.worked _ _ _ _ _ _ (by decide) nofun rfl) fun _ => ?_
  exact hI.publishFailures history _

theorem failTask (hI : WorkInvariant L I) (history : List FailureContext) (startedAt : Time)
    (lastExc : PyExc) : Keeps L I (failTask sup history startedAt lastExc) := by
  unfold Conductor.failTask
  refine .bind hI.monotone (hI.publishFailures history _) fun _ => ?_
  refine .bind hI.monotone (hI.ask_aside rfl) fun failedAt => ?_
  refine .bind hI.monotone (.ofExcept _) fun error => ?_
  refine .bind hI.monotone (hI.mutate_result _) fun _ => ?_
  refine .bind hI.monotone .object fun task => ?_
  exact hI.worked _ _ _ _ _ _ (by decide) nofun rfl

/-- An attempt keeps what its two calls of the capability keep. -/
theorem attempt (hI : WorkInvariant L I) (capability : String)
    (controls : CapabilityExecutionControls) (startedAt : Time) {task : TaskRecord} {s : S}
    (hcalls : L.call s (.validateInput capability task.input) fun answer s' => I task s' ∧
      ∀ payload, answer = .ok payload →
        L.call s' (.execute capability task payload ⟨task.taskId, task.name, sup.workdir⟩
          controls.timeoutSeconds) fun _ s'' => I task s'') :
    (attempt sup capability controls startedAt).wp L (fun _ t s' => I t s') task s := by
  unfold Conductor.attempt
  rw [wp_bind, wp_object]
  dsimp only
  rw [wp_bind, wp_ask]
  refine hI.monotone ?_ hcalls
  rintro answer s' ⟨h', hexecute⟩
  cases answer with
  | error e => exact h'
  | ok payload =>
      dsimp only
      rw [wp_bind, wp_ask]
      refine hI.monotone ?_ (hexecute payload rfl)
      intro answer s'' h''
      cases answer with
      | error e => exact h''
      | ok result =>
          refine Keeps.bind hI.monotone (hI.ask_aside rfl) (fun completedAt => ?_) h''
          refine .bind hI.monotone (hI.mutate_result _) fun _ => ?_
          refine .bind hI.monotone (hI.worked _ _ _ _ _ _ (by decide) nofun rfl) fun _ => ?_
          split
          · exact .bind hI.monotone .object fun _ => hI.ask_aside rfl
          · exact .pure ()

theorem recordFailure (hI : WorkInvariant L I) (exc : PyExc) :
    Keeps L I (recordFailure sup exc) := by
  unfold Conductor.recordFailure
  refine .bind hI.monotone .object fun task => ?_
  refine .bind hI.monotone (.ofExcept _) fun fingerprint => ?_
  refine .bind hI.monotone (.ofExcept _) fun message => ?_
  dsimp only
  rw [← bind_assoc]
  exact .bind hI.monotone (hI.noted _ _ _ _ _ rfl) fun _ => .pure _

/-- Giving up ends the loop. -/
theorem giveUp (hI : WorkInvariant L I) (startedAt : Time) (exc : PyExc)
    (history : List FailureContext) (decision : RetryDecision) {task : TaskRecord} {s : S}
    (h : I task s) :
    (giveUp sup startedAt exc history decision).wp L (fun outcome t s' => I t s' ∧
      ∀ history, outcome ≠ .ok (.again history)) task s := by
  unfold Conductor.giveUp
  rw [wp_bind]
  refine wp_mono hI.monotone ?_ (hI.escalates decision history h)
  intro outcome t s' h
  cases outcome with
  | error e => exact ⟨h, by simp⟩
  | ok escalate =>
      dsimp only
      split
      · rw [wp_bind]
        refine wp_mono hI.monotone ?_ (hI.doEscalate _ _ _ _ h)
        intro outcome t s' h
        cases outcome with
        | error e => exact ⟨h, by simp⟩
        | ok escalated => exact ⟨h, by simp⟩
      · exact ⟨h, by simp⟩

/-- The statements of a retry after the new attempt and input are in place. -/
theorem retry_after (hI : WorkInvariant L I) (startedAt : Time) (exc : PyExc)
    (history : List FailureContext) (decision : RetryDecision) {task : TaskRecord} {s : S}
    (htask : I { task with
      attempt := task.attempt + 1, input := decision.adjustedInput.getD task.input } s) :
    (retry sup startedAt exc history decision).wp L (fun _ t s' => I t s')
      task s := by
  unfold Conductor.retry
  rw [wp_bind, wp_mutate]
  refine Keeps.bind hI.monotone (hI.policyEscalates history) (fun escalate => ?_) htask
  split
  · exact .bind hI.monotone (hI.doEscalate _ _ _ _) fun _ => .pure _
  refine .bind hI.monotone .object fun task => ?_
  refine .bind hI.monotone (.ofExcept _) fun error => ?_
  dsimp only
  have hretried := hI.retried (retryMetadata task error decision) (some error)
  simp only [← bind_assoc] at hretried ⊢
  exact .bind hI.monotone (.bind hI.monotone hretried fun _ => hI.retryDelay decision)
    fun _ => .pure _

end WorkInvariant

namespace TaskInvariant

variable {I : Stage → TaskRecord → S → Prop} {sup : Supervisor}

theorem ask_beside (hI : TaskInvariant L I) (stage : Stage) {c : Call} (hc : c.beside = true) :
    Keeps L (I stage) (ask c) :=
  .perform fun _ _ h => hI.beside hc h

theorem waitForExecutionWindow (hI : TaskInvariant L I) (capability : String) :
    Keeps L (I .authorised) (waitForExecutionWindow sup capability) := by
  unfold Conductor.waitForExecutionWindow
  refine .bind hI.monotone (.ofExcept _) fun controls => ?_
  split
  · exact .pure ()
  refine .bind hI.monotone (hI.ask_beside _ rfl) fun now => ?_
  refine .bind hI.monotone (hI.ask_beside _ rfl) fun previousStart => ?_
  split
  · exact hI.ask_beside _ rfl
  dsimp only
  split
  · refine .bind hI.monotone (hI.ask_beside _ rfl) fun _ => ?_
    exact .bind hI.monotone (hI.ask_beside _ rfl) fun _ => hI.ask_beside _ rfl
  · exact hI.ask_beside _ rfl

theorem attempt_keeps (hI : TaskInvariant L I) (capability : String)
    (controls : CapabilityExecutionControls) (startedAt : Time) :
    Keeps L (I .authorised) (Conductor.attempt sup capability controls startedAt) :=
  fun _ _ h => hI.work.attempt capability controls startedAt (hI.attempted _ _ _ h)

theorem handleFailure (hI : TaskInvariant L I) (startedAt : Time)
    (history : List FailureContext) (exc : PyExc) :
    Keeps L (I .authorised) (handleFailure sup startedAt history exc) := by
  unfold Conductor.handleFailure
  refine .bind hI.monotone (hI.work.recordFailure exc) fun failure => ?_
  refine .bind_object fun task s h => ?_
  rw [wp_bind, wp_ask]
  refine hI.monotone ?_ (hI.decided failure h)
  rintro answer s' ⟨hkept, hadjusted⟩
  cases answer with
  | error e => exact hkept
  | ok decision =>
      dsimp only
      split
      · exact hI.work.retry_after _ _ _ _ (hadjusted decision rfl)
      · exact wp_mono hI.monotone (fun _ _ _ h => h.1) (hI.work.giveUp _ _ _ _ hkept)

theorem attemptRound (hI : TaskInvariant L I) (capability : String)
    (controls : CapabilityExecutionControls) (startedAt : Time)
    (history : List FailureContext) :
    Keeps L (I .authorised) (attemptRound sup capability controls startedAt history) := by
  unfold Conductor.attemptRound
  refine .tryExcept hI.monotone ?_ (hI.handleFailure startedAt history)
  exact .bind hI.monotone (hI.attempt_keeps _ _ _) fun _ => .pure _

theorem attemptLoop (hI : TaskInvariant L I) (capability : String)
    (controls : CapabilityExecutionControls) (startedAt : Time) (fuel : Nat)
    (history : List FailureContext) :
    Keeps L (I .authorised) (attemptLoop sup capability controls startedAt fuel history) := by
  induction fuel generalizing history with
  | zero => exact .outOfFuel hI.outOfFuel
  | succ fuel ih =>
      unfold Conductor.attemptLoop
      refine .bind hI.monotone (hI.attemptRound _ _ _ _) fun flow => ?_
      cases flow with
      | stop lastExc history => exact .pure _
      | again history => exact ih history

theorem runAttempts (hI : TaskInvariant L I) (fuel : Nat) (capability : String)
    (controls : CapabilityExecutionControls) (startedAt : Time) :
    Keeps L (I .authorised) (runAttempts sup fuel capability controls startedAt) := by
  unfold Conductor.runAttempts
  refine .bind hI.monotone (hI.attemptLoop _ _ _ _ _) fun ended => ?_
  split
  · exact .pure ()
  · exact hI.work.failTask _ _ _

theorem startTask (hI : TaskInvariant L I) :
    Keeps L (I .authorised) (startTask sup) := by
  unfold Conductor.startTask
  refine .bind hI.monotone .object fun task => ?_
  refine .bind hI.monotone (.ofExcept _) fun controls => ?_
  refine .bind hI.monotone (hI.waitForExecutionWindow _) fun _ => ?_
  refine .bind hI.monotone (hI.ask_beside _ rfl) fun startedAt => ?_
  refine .bind hI.monotone (.mutate fun _ _ h => hI.attempt _ h) fun _ => ?_
  refine .bind hI.monotone .object fun task => ?_
  exact .bind hI.monotone (hI.worked _ _ _ _ _ _ (by decide) nofun rfl) fun _ => .pure _

theorem applyPeerSuggestion (hI : TaskInvariant L I) :
    Keeps L (I .authorised) (applyPeerSuggestion sup) := by
  unfold Conductor.applyPeerSuggestion
  split
  · refine .bind_object fun task s h => ?_
    rw [wp_bind, wp_ask]
    refine hI.monotone ?_ (hI.suggested h)
    rintro answer s' ⟨hkept, hmerged⟩
    rcases answer with e | _ | ⟨best, rest⟩
    · exact hkept
    · exact hkept
    · dsimp only
      rw [wp_bind, wp_mutate]
      exact hI.noted _ _ _ _ _ rfl (hmerged best rest rfl)
  · exact .pure ()

theorem executeTask (hI : TaskInvariant L I) (fuel : Nat) (capability : String) :
    Keeps L (I .authorised) (executeTask sup fuel capability) := by
  unfold Conductor.executeTask
  refine .bind hI.monotone hI.applyPeerSuggestion fun _ => ?_
  exact .bind hI.monotone hI.startTask fun started => hI.runAttempts _ _ _ _

end TaskInvariant

/-! ### The gates -/

/-- Calls that `run_task` makes on its way to the work on a task. -/
def Call.atGate : Call → Bool
  | .now | .validateInput _ _ => true
  | _ => false

theorem Call.beside_of_atGate {c : Call} (hc : c.atGate = true) : c.beside = true := by
  cases c <;> first | rfl | cases hc

/-- Assertions about the task in hand, one for each stage, that the gates keep. -/
structure GateInvariant (L : Logic S Call Answer) (I : Stage → TaskRecord → S → Prop) :
    Prop where
  monotone : L.Monotone
  loaded : ∀ ⦃stage task s⦄, I stage task s → I .loaded task s
  approved : ∀ ⦃task s⦄, I .loaded task s → task.status = .approved → I .authorised task s
  result : ∀ ⦃stage task s⦄ (result : TaskResult), I stage task s →
    I stage { task with result := some result } s
  atGate : ∀ ⦃stage task s c⦄, c.atGate = true → I stage task s →
    L.call s c fun _ s' => I stage task s'
  described : ∀ ⦃stage task s⦄, stage ≠ .authorised → I stage task s →
    L.call s (.descriptor task.capability) fun answer s' => I stage task s' ∧
      ∀ descriptor, answer = .ok descriptor → descriptor.requireApproval = false →
        I .ungated task s'
  evaluated : ∀ ⦃task s⦄ (context : PolicyContext), I .ungated task s →
    L.call s (.evaluate task context) fun answer s' => I .ungated task s' ∧
      ∀ decision, answer = .ok decision → decision.decision = .allow → I .authorised task s'
  parked : ∀ ⦃task s⦄ (actor : String) (metadata : Dict), I .loaded task s →
    (transitionStatus .awaitingApproval actor "awaiting_approval" .taskAwaitingApproval
      metadata none none).wp L (fun outcome t s' => I .loaded t s' ∧
        (outcome = .ok () → t.status = .awaitingApproval)) task s
  denied : ∀ ⦃task s⦄ (metadata : Dict) (error : Option String) (ts : Time), I .ungated task s →
    (transitionStatus .policyDenied "policy" "denied" .taskPolicyDenied metadata error
      (some ts)).wp L (fun outcome t s' => I .loaded t s' ∧
        (outcome = .ok () → t.status = .policyDenied)) task s
  noted : ∀ (actor action : String) (fromStatus toStatus : Option TaskStatus) (metadata : Dict),
    EventType.ofAction action = none → Keeps L (I .authorised) do
      appendAudit actor action fromStatus toStatus metadata none
      saveTask none

theorem TaskInvariant.gate {I : Stage → TaskRecord → S → Prop} (hI : TaskInvariant L I) :
    GateInvariant L I where
  monotone := hI.monotone
  loaded := hI.loaded
  approved := hI.approved
  result := hI.result
  atGate _ _ _ _ hc h := hI.beside (Call.beside_of_atGate hc) h
  described := hI.described
  evaluated := hI.evaluated
  parked := hI.parked
  denied := hI.denied
  noted := hI.noted

namespace GateInvariant

variable {I : Stage → TaskRecord → S → Prop} {sup : Supervisor}

/-- What holds after a gate: a task that is still pending may be executed. -/
def AfterGate (I : Stage → TaskRecord → S → Prop) (outcome : Except PyExc Unit)
    (task : TaskRecord) (s : S) : Prop :=
  I .loaded task s ∧ (outcome = .ok () → task.status = .pending → I .authorised task s)

/-- A gate that changes the status lets nothing pass. -/
theorem AfterGate.of_closed {outcome : Except PyExc Unit} {task : TaskRecord} {s : S}
    {status : TaskStatus} (hstatus : status ≠ .pending)
    (hclosed : I .loaded task s ∧ (outcome = .ok () → task.status = status)) :
    AfterGate I outcome task s := by
  refine ⟨hclosed.1, ?_⟩
  intro houtcome hpending
  exact absurd ((hclosed.2 houtcome).symm.trans hpending) hstatus

theorem applyPolicy (hI : GateInvariant L I) {decision : PolicyDecision} {task : TaskRecord}
    {s : S} (hungated : I .ungated task s)
    (hallowed : decision.decision = .allow → I .authorised task s) :
    (applyPolicy sup decision).wp L (AfterGate I) task s := by
  unfold Conductor.applyPolicy
  dsimp only
  split
  · rw [wp_bind, now, wp_ask]
    refine hI.monotone ?_ (hI.atGate rfl hungated)
    intro answer s' hkept
    cases answer with
    | error e => exact ⟨hI.loaded hkept, nofun⟩
    | ok deniedAt =>
        dsimp only
        rw [wp_bind, wp_mutate]
        refine wp_mono hI.monotone ?_ (hI.denied _ _ _ (hI.result _ hkept))
        intro outcome t s'' hclosed
        exact .of_closed (by decide) hclosed
  · refine wp_mono hI.monotone ?_ (hI.parked _ _ (hI.loaded hungated))
    intro outcome t s' hclosed
    exact .of_closed (by decide) hclosed
  · rename_i hallow
    refine wp_mono hI.monotone ?_ (hI.noted _ _ _ _ _ rfl (hallowed hallow))
    intro outcome t s' hauthorised
    exact ⟨hI.loaded hauthorised, fun _ _ => hauthorised⟩

theorem gatePending (hI : GateInvariant L I) {task : TaskRecord} {s : S}
    (hloaded : I .loaded task s) :
    (gatePending sup task.capability).wp L (AfterGate I) task s := by
  unfold Conductor.gatePending
  rw [wp_bind, wp_ask]
  refine hI.monotone ?_ (hI.described (by decide) hloaded)
  rintro answer s₁ ⟨hloaded, hungated⟩
  cases answer with
  | error e => exact ⟨hloaded, nofun⟩
  | ok descriptor =>
      dsimp only
      split
      · rw [wp_bind, wp_object]
        refine wp_mono hI.monotone ?_ (hI.parked _ _ hloaded)
        intro outcome t s' hclosed
        exact .of_closed (by decide) hclosed
      · rename_i hflag
        have hungated := hungated descriptor rfl (by simpa using hflag)
        rw [wp_bind, wp_ask]
        refine hI.monotone ?_ (hI.described (by decide) hungated)
        rintro answer s₂ ⟨hungated, -⟩
        cases answer with
        | error e => exact ⟨hI.loaded hungated, nofun⟩
        | ok current =>
            dsimp only
            rw [wp_bind, wp_object]
            dsimp only
            rw [wp_bind, wp_ask]
            refine hI.monotone ?_ (hI.evaluated _ hungated)
            rintro answer s₃ ⟨hungated, hallowed⟩
            cases answer with
            | error e => exact ⟨hI.loaded hungated, nofun⟩
            | ok decision => exact hI.applyPolicy hungated (hallowed decision rfl)

/-- A submission that is accepted names the capability it resolves to. -/
theorem validate_names (hI : GateInvariant L I) {stage : Stage} {submission : TaskSubmission}
    {task : TaskRecord} {s : S} (htask : I stage task s) :
    (Conductor.validateTaskSubmission sup submission).wp L (fun outcome t s' =>
      t = task ∧ I stage task s' ∧ ∀ capability, outcome = .ok capability →
        capability = submission.capability) task s := by
  refine wp_validateTaskSubmission (fun _ e => ⟨rfl, htask, nofun⟩) fun _ => ?_
  refine hI.monotone ?_ (hI.atGate rfl htask)
  intro answer s' hkept
  cases answer with
  | error e => exact ⟨rfl, hkept, nofun⟩
  | ok payload => exact ⟨rfl, hkept, fun capability h => (Except.ok.inj h).symm⟩

/-- However `run_task` ends with a loaded record, the loaded stage holds, if it
holds after the work on an authorised task. -/
theorem runLoadedTask (hI : GateInvariant L I) {fuel : Nat} {capability : String}
    (hexecute : ∀ ⦃task s⦄, I .authorised task s →
      (executeTask sup fuel capability).wp L (fun _ t s' => I .loaded t s') task s)
    {task : TaskRecord} {s : S} (h : I .loaded task s)
    (hcapability : task.capability = capability) :
    (runLoadedTask sup fuel).wp L (fun _ t s' => I .loaded t s') task s := by
  unfold Conductor.runLoadedTask
  rw [wp_bind, wp_object]
  dsimp only
  split
  · rw [wp_bind]
    refine wp_mono hI.monotone ?_ (hI.validate_names h)
    rintro outcome _ s' ⟨rfl, hloaded, hname⟩
    cases outcome with
    | error e => exact hloaded
    | ok found =>
        obtain rfl := hname found rfl
        dsimp only
        rw [wp_bind]
        refine wp_mono hI.monotone ?_ (hI.gatePending hloaded)
        rintro outcome t s'' ⟨hloaded, hpassed⟩
        cases outcome with
        | error e => exact hloaded
        | ok gated =>
            dsimp only
            rw [wp_bind, wp_object]
            dsimp only
            split
            · rename_i hpending
              obtain rfl := hcapability
              exact hexecute (hpassed rfl hpending)
            · exact hloaded
  split
  · rename_i happroved
    rw [wp_bind]
    refine wp_mono hI.monotone ?_ (hI.validate_names h)
    rintro outcome _ s' ⟨rfl, hloaded, hname⟩
    cases outcome with
    | error e => exact hloaded
    | ok found =>
        obtain rfl := hname found rfl
        obtain rfl := hcapability
        exact hexecute (hI.approved hloaded happroved)
  · exact h

end GateInvariant

theorem TaskInvariant.runLoadedTask {I : Stage → TaskRecord → S → Prop} {sup : Supervisor}
    (hI : TaskInvariant L I) (fuel : Nat) : Keeps L (I .loaded) (runLoadedTask sup fuel) := by
  intro task s h
  refine hI.gate.runLoadedTask ?_ h rfl
  intro task s hauthorised
  refine wp_mono hI.monotone ?_ (hI.executeTask fuel _ hauthorised)
  exact fun _ _ _ h => hI.loaded h

/-! ### Whole operations -/

/-- Calls that an operation makes while no task is in hand. -/
def Call.atDesk : Call → Bool
  | .entered _ | .left _ _ | .runTaskEntered _ | .now | .uuid4 | .validateInput _ _ | .enqueue _
  | .dequeue => true
  | _ => false

/-- An assertion `J` that every operation keeps, by way of assertions about the
task it works on. -/
structure OperationInvariant (L : Logic S Call Answer) (I : Stage → TaskRecord → S → Prop)
    (J : S → Prop) : Prop extends TaskInvariant L I where
  settled : ∀ ⦃task s⦄, I .loaded task s → J s
  atDesk : ∀ ⦃s c⦄, c.atDesk = true → J s → L.call s c fun _ s' => J s'
  found : ∀ ⦃s⦄ (taskId : TaskId), J s → L.call s (.storeGet taskId) fun answer s' => J s' ∧
    ∀ task, answer = .ok (some task) → I .loaded task s'
  created : ∀ ⦃s⦄ (task : TaskRecord) (ts : Time) (metadata : Dict), J s →
    task.status = .pending →
      task.auditTrail = [⟨ts, "supervisor", "submitted", none, some .pending, metadata⟩] →
        L.call s (.storeSave task) fun _ s' => J s'
  approving : ∀ ⦃task s⦄ (actor : String) (metadata : Dict), I .loaded task s →
    task.status = .awaitingApproval →
      (transitionStatus .approved actor "approved" .taskApproved metadata none none).wp L
        (fun _ _ s' => J s') task s
  cancelling : ∀ ⦃task s⦄ (actor : String) (metadata : Dict) (error : Option String) (ts : Time),
    I .loaded task s → task.status = .awaitingApproval →
      (transitionStatus .cancelled actor "cancelled" .taskCancelled metadata error
        (some ts)).wp L (fun _ _ s' => J s') task s

/-- An assertion `J` that every operation keeps, if work on a loaded record keeps the
assertion `I` about it. -/
structure DeskInvariant (L : Logic S Call Answer) (I : TaskRecord → S → Prop) (J : S → Prop) :
    Prop where
  monotone : L.Monotone
  result : ∀ ⦃task s⦄ (result : TaskResult), I task s → I { task with result := some result } s
  clock : ∀ ⦃task s⦄, I task s → L.call s .now fun _ s' => I task s'
  settled : ∀ ⦃task s⦄, I task s → J s
  atDesk : ∀ ⦃s c⦄, c.atDesk = true → J s → L.call s c fun _ s' => J s'
  found : ∀ ⦃s⦄ (taskId : TaskId), J s → L.call s (.storeGet taskId) fun answer s' => J s' ∧
    ∀ task, answer = .ok (some task) → I task s'
  created : ∀ ⦃s⦄ (task : TaskRecord) (ts : Time) (metadata : Dict), J s →
    task.status = .pending →
      task.auditTrail = [⟨ts, "supervisor", "submitted", none, some .pending, metadata⟩] →
        L.call s (.storeSave task) fun _ s' => J s'
  approving : ∀ ⦃task s⦄ (actor : String) (metadata : Dict), I task s →
    task.status = .awaitingApproval →
      (transitionStatus .approved actor "approved" .taskApproved metadata none none).wp L
        (fun _ _ s' => J s') task s
  cancelling : ∀ ⦃task s⦄ (actor : String) (metadata : Dict) (error : Option String) (ts : Time),
    I task s → task.status = .awaitingApproval →
      (transitionStatus .cancelled actor "cancelled" .taskCancelled metadata error
        (some ts)).wp L (fun _ _ s' => J s') task s

theorem OperationInvariant.desk {I : Stage → TaskRecord → S → Prop} {J : S → Prop}
    (hI : OperationInvariant L I J) : DeskInvariant L (I .loaded) J where
  monotone := hI.monotone
  result _ _ result h := hI.result result h
  clock _ _ h := hI.beside rfl h
  settled := hI.settled
  atDesk := hI.atDesk
  found := hI.found
  created := hI.created
  approving := hI.approving
  cancelling := hI.cancelling

namespace DeskInvariant

variable {I : TaskRecord → S → Prop} {J : S → Prop} {sup : Supervisor} {fuel : Nat}

/-- Between the tasks `J` speaks about the state alone. -/
abbrev Between (L : Logic S Call Answer) (J : S → Prop) {α : Type} (m : OpBlock α) : Prop :=
  Keeps L (fun _ => J) m

theorem ask_atDesk (hI : DeskInvariant L I J) {c : Call} (hc : c.atDesk = true) :
    Between L J (ask c) :=
  .perform fun _ _ h => hI.atDesk hc h

theorem validateTaskSubmission (hI : DeskInvariant L I J) (submission : TaskSubmission) :
    Between L J (validateTaskSubmission sup submission) := by
  unfold Conductor.validateTaskSubmission
  split
  · exact .raise _
  split
  · exact .raise _
  split
  · exact .raise _
  · exact .bind hI.monotone (hI.ask_atDesk rfl) fun _ => .pure _

theorem createTaskRecord (hI : DeskInvariant L I J) (submission : TaskSubmission)
    (enqueue : Bool) : Between L J (createTaskRecord sup submission enqueue) := by
  unfold Conductor.createTaskRecord
  refine .bind hI.monotone (hI.validateTaskSubmission submission) fun _ => ?_
  refine .bind hI.monotone (hI.ask_atDesk rfl) fun taskId => ?_
  refine .bind hI.monotone (hI.ask_atDesk rfl) fun createdAt => ?_
  refine .bind hI.monotone (hI.ask_atDesk rfl) fun updatedAt => ?_
  refine .bind hI.monotone ?_ fun created => ?_
  · intro _ s h
    rw [wp_on, appendAudit, timestampOrNow]
    simp only [wp_bind, wp_pure, wp_mutate, wp_object, wp_ask]
    refine hI.monotone ?_ (hI.created _ _ _ h rfl rfl)
    rintro (e | saved) s' h' <;> exact h'
  · split
    · exact .bind hI.monotone (hI.ask_atDesk rfl) fun _ => .pure _
    · exact .pure _

theorem getTask (hI : DeskInvariant L I J) {taskId : TaskId} {s : S} (h : J s) :
    (getTask taskId).wp L (fun outcome _ s' => J s' ∧
      ∀ task, outcome = .ok task → I task s') () s := by
  unfold Conductor.getTask
  rw [wp_bind, wp_ask]
  refine hI.monotone ?_ (hI.found taskId h)
  rintro answer s' ⟨hkept, hloaded⟩
  rcases answer with e | _ | task
  · exact ⟨hkept, by simp⟩
  · dsimp only
    rw [wp_raise]
    exact ⟨hkept, by simp⟩
  · dsimp only
    rw [wp_pure]
    refine ⟨hkept, ?_⟩
    rintro found ⟨⟩
    exact hloaded task rfl

/-- Work on a loaded record. -/
theorem on_loaded (hI : DeskInvariant L I J) {α : Type} {m : TaskBlock α}
    (task : TaskRecord) {s : S} (hm : m.wp L (fun _ _ s' => J s') task s) :
    (on task m : OpBlock (α × TaskRecord)).wp L (fun _ _ s' => J s') () s := by
  rw [wp_on]
  refine wp_mono hI.monotone ?_ hm
  rintro (e | value) t s' h <;> exact h

theorem runTask (hI : DeskInvariant L I J) (hruns : Keeps L I (runLoadedTask sup fuel))
    (taskId : TaskId) :
    Between L J (runTask sup fuel taskId) := by
  unfold Conductor.runTask
  refine .bind hI.monotone (hI.ask_atDesk rfl) fun _ => ?_
  intro _ s h
  rw [wp_bind]
  refine wp_mono hI.monotone ?_ (hI.getTask h)
  rintro outcome _ s' ⟨h, hloaded⟩
  cases outcome with
  | error e => exact h
  | ok task =>
      dsimp only
      rw [wp_bind]
      refine wp_mono hI.monotone ?_ (hI.on_loaded task (wp_mono hI.monotone ?_
        (hruns (hloaded task rfl))))
      · rintro (e | ran) _ s'' h <;> exact h
      · exact fun _ _ _ h => hI.settled h

theorem approveTask (hI : DeskInvariant L I J) (hruns : Keeps L I (runLoadedTask sup fuel))
    (taskId : TaskId) (actor : String) (metadata : Option Dict) (run : Bool) :
    Between L J (approveTask sup fuel taskId actor metadata run) := by
  unfold Conductor.approveTask
  intro _ s h
  rw [wp_bind]
  refine wp_mono hI.monotone ?_ (hI.getTask h)
  rintro outcome _ s' ⟨h, hloaded⟩
  cases outcome with
  | error e => exact h
  | ok task =>
      dsimp only
      split
      · rename_i hawaiting
        rw [wp_bind]
        refine wp_mono hI.monotone ?_
          (hI.on_loaded task (hI.approving _ _ (hloaded task rfl) hawaiting))
        intro outcome _ s'' h
        cases outcome with
        | error e => exact h
        | ok approved =>
            dsimp only
            split
            · exact hI.runTask hruns taskId h
            · exact Keeps.bind hI.monotone (hI.ask_atDesk rfl) (fun _ => .pure _) h
      · exact h

theorem cancelTask (hI : DeskInvariant L I J) (taskId : TaskId) (actor : String)
    (reason : Option String) (metadata : Option Dict) :
    Between L J (cancelTask taskId actor reason metadata) := by
  unfold Conductor.cancelTask
  intro _ s h
  rw [wp_bind]
  refine wp_mono hI.monotone ?_ (hI.getTask h)
  rintro outcome _ s' ⟨h, hloaded⟩
  cases outcome with
  | error e => exact h
  | ok task =>
      dsimp only
      split
      · rename_i hawaiting
        have hloaded := hloaded task rfl
        rw [wp_bind, now, wp_ask]
        refine hI.monotone ?_ (hI.clock hloaded)
        intro answer s'' hloaded
        cases answer with
        | error e => exact hI.settled hloaded
        | ok cancelledAt =>
            dsimp only
            rw [wp_bind]
            refine wp_mono hI.monotone ?_
              (hI.on_loaded _ (hI.cancelling _ _ _ _ (hI.result _ hloaded) hawaiting))
            rintro (e | cancelled) _ s₃ h <;> exact h
      · exact h

theorem runOperation (hI : DeskInvariant L I J) (hruns : Keeps L I (runLoadedTask sup fuel))
    (op : Operation) :
    Between L J (runOperation sup fuel op) := by
  cases op with
  | submit submission => exact hI.createTaskRecord submission true
  | runSubmission submission =>
      exact .bind hI.monotone (hI.createTaskRecord submission false)
        fun task => hI.runTask hruns task.taskId
  | runNext =>
      refine .bind hI.monotone (hI.ask_atDesk rfl) fun taskId => ?_
      cases taskId with
      | none => exact .raise _
      | some taskId => exact hI.runTask hruns taskId
  | runTask taskId => exact hI.runTask hruns taskId
  | approveTask taskId actor metadata run => exact hI.approveTask hruns taskId actor metadata run
  | cancelTask taskId actor reason metadata => exact hI.cancelTask taskId actor reason metadata

/-- A client upholds what its operations uphold. -/
theorem client (hI : DeskInvariant L I J) (hruns : Keeps L I (runLoadedTask sup fuel))
    (ops : List Operation) {s : S} (h : J s) : (client sup fuel ops).wp L (fun _ s' => J s') s := by
  induction ops generalizing s with
  | nil => exact h
  | cons op ops ih =>
      refine hI.monotone ?_ (hI.atDesk (c := .entered op) rfl h)
      intro _ s₁ h₁
      rw [Prog.wp_bind]
      refine Prog.wp_mono hI.monotone ?_ (hI.runOperation hruns op h₁)
      intro ended s₂ h₂
      exact hI.monotone (fun _ _ h₃ => ih h₃) (hI.atDesk (c := .left op ended.1) rfl h₂)

end DeskInvariant

namespace OperationInvariant

variable {I : Stage → TaskRecord → S → Prop} {J : S → Prop} {sup : Supervisor}

theorem client (hI : OperationInvariant L I J) (fuel : Nat) (ops : List Operation) {s : S}
    (h : J s) : (client sup fuel ops).wp L (fun _ s' => J s') s :=
  hI.desk.client (hI.runLoadedTask fuel) ops h

end OperationInvariant

/-! ### Assertions about the calls -/

/-- Calls that are made with a task in hand. -/
def Call.onTask : Call → Bool
  | .entered _ | .left _ _ | .runTaskEntered _ | .uuid4 | .storeGet _ | .enqueue _ | .dequeue =>
      false
  | _ => true

/-- Calls that save a record. -/
def Call.isSave : Call → Bool
  | .storeSave _ => true
  | _ => false

theorem Call.onTask_of_beside {c : Call} (hc : c.beside = true) :
    c.onTask = true ∧ c.isSave = false := by
  cases c <;> first | exact ⟨rfl, rfl⟩ | cases hc

/-- A property of tasks that is about their identity. -/
def Identifies (V : TaskRecord → Prop) : Prop :=
  ∀ task t : TaskRecord, t.taskId = task.taskId → t.name = task.name →
    t.capability = task.capability → V task → V t

/-- Calls that are made about a task under way, with those that tell the store and
the bus of it. -/
def Call.isWork : Call → Bool
  | .storeSave _ | .emit _ _ => true
  | c => c.aside

/-- Calls with which a record is noted down, and the bus told of it. -/
def Call.isNote : Call → Bool
  | .now | .storeSave _ | .emit _ _ => true
  | _ => false

/-- A property of tasks that is about what was asked for. -/
def AboutRequest (V : TaskRecord → Prop) : Prop :=
  ∀ task t : TaskRecord, t.taskId = task.taskId → t.name = task.name →
    t.capability = task.capability → t.input = task.input → V task → V t

/-- The calls that note a record down keep `P`, provided that only records with the
property `V` are saved. -/
structure KeptByNotes (L : Logic S Call Answer) (V : TaskRecord → Prop) (P : S → Prop) :
    Prop where
  monotone : L.Monotone
  aboutRequest : AboutRequest V
  calls : ∀ ⦃c s⦄, c.isNote = true → (∀ task, c = .storeSave task → V task) → P s →
    L.call s c fun _ s' => P s'

namespace KeptByNotes

variable {V : TaskRecord → Prop} {P : S → Prop} {task : TaskRecord} {s : S}

/-- A call that saves nothing. -/
theorem call (hkept : KeptByNotes L V P) {c : Call} (hc : c.isNote = true)
    (hsave : c.isSave = false) (h : V task ∧ P s) :
    L.call s c fun _ s' => V task ∧ P s' := by
  refine hkept.monotone (fun _ _ hP => ⟨h.1, hP⟩) (hkept.calls hc ?_ h.2)
  rintro t rfl
  cases hsave

theorem ask_save (hkept : KeptByNotes L V P) (h : V task ∧ P s) :
    L.call s (.storeSave task) fun _ s' => V task ∧ P s' := by
  refine hkept.monotone (fun _ _ hP => ⟨h.1, hP⟩) (hkept.calls rfl ?_ h.2)
  rintro t ht
  exact Call.storeSave.inj ht ▸ h.1

/-- A version of the task for the same request. -/
theorem version (hkept : KeptByNotes L V P) (h : V task ∧ P s) {t : TaskRecord}
    (hid : t.taskId = task.taskId) (hname : t.name = task.name)
    (hcapability : t.capability = task.capability) (hinput : t.input = task.input) :
    V t ∧ P s :=
  ⟨hkept.aboutRequest task t hid hname hcapability hinput h.1, h.2⟩

theorem timestampOrNow (hkept : KeptByNotes L V P) (timestamp : Option Time) :
    Keeps L (fun task s => V task ∧ P s) (timestampOrNow timestamp) := by
  cases timestamp with
  | some ts => exact .pure ts
  | none => exact .perform fun _ _ h => hkept.call rfl rfl h

theorem appendAudit (hkept : KeptByNotes L V P) (actor action : String)
    (fromStatus toStatus : Option TaskStatus) (metadata : Dict) (timestamp : Option Time) :
    Keeps L (fun task s => V task ∧ P s)
      (appendAudit actor action fromStatus toStatus metadata timestamp) := by
  refine .bind hkept.monotone (hkept.timestampOrNow timestamp) fun _ => ?_
  exact .mutate fun _ _ h => hkept.version h rfl rfl rfl rfl

theorem saveTask (hkept : KeptByNotes L V P) (timestamp : Option Time) :
    Keeps L (fun task s => V task ∧ P s) (saveTask timestamp) := by
  refine .bind hkept.monotone (hkept.timestampOrNow timestamp) fun _ => ?_
  refine .bind hkept.monotone (.mutate fun _ _ h => hkept.version h rfl rfl rfl rfl) fun _ => ?_
  exact .bind_object fun _ _ h => hkept.ask_save h

theorem emitEvent (hkept : KeptByNotes L V P) (eventType : EventType) (error : Option String)
    (metadata : Dict) (h : V task ∧ P s) :
    (emitEvent eventType error metadata).wp L (fun _ t s' => t = task ∧ V task ∧ P s')
      task s := by
  unfold Conductor.emitEvent
  rw [wp_tryExcept, wp_bind, now, wp_ask]
  refine hkept.monotone ?_ (hkept.call rfl rfl h)
  intro answer s' h'
  cases answer with
  | error e =>
      dsimp only
      split
      · exact ⟨rfl, h'⟩
      · exact ⟨rfl, h'⟩
  | ok ts =>
      dsimp only
      rw [wp_bind, wp_object]
      dsimp only
      rw [wp_ask]
      refine hkept.monotone ?_ (hkept.call rfl rfl h')
      intro answer s'' h''
      cases answer with
      | error e =>
          dsimp only
          split
          · exact ⟨rfl, h''⟩
          · exact ⟨rfl, h''⟩
      | ok emitted => exact ⟨rfl, h''⟩

theorem transitionStatus (hkept : KeptByNotes L V P) (toStatus : TaskStatus)
    (actor action : String) (eventType : EventType) (metadata : Dict) (error : Option String)
    (timestamp : Option Time) (h : V task ∧ P s) :
    (transitionStatus toStatus actor action eventType metadata error timestamp).wp L
      (fun outcome t s' => (V t ∧ P s') ∧ (outcome = .ok () → t.status = toStatus)) task s := by
  unfold Conductor.transitionStatus
  rw [wp_bind]
  refine wp_mono hkept.monotone ?_ (hkept.timestampOrNow timestamp h)
  intro outcome t s' h'
  cases outcome with
  | error e => exact ⟨h', nofun⟩
  | ok ts =>
      simp only [Conductor.appendAudit, Conductor.saveTask, Conductor.timestampOrNow, wp_bind,
        wp_pure, wp_object, wp_mutate, wp_ask]
      refine hkept.monotone ?_ (hkept.ask_save (hkept.version h' rfl rfl rfl rfl))
      intro answer s'' h''
      cases answer with
      | error e => exact ⟨h'', nofun⟩
      | ok saved =>
          refine wp_mono hkept.monotone ?_ (hkept.emitEvent _ _ _ h'')
          rintro outcome _ s₃ ⟨rfl, h₃⟩
          exact ⟨h₃, fun _ => rfl⟩

theorem noted (hkept : KeptByNotes L V P) (actor action : String)
    (fromStatus toStatus : Option TaskStatus) (metadata : Dict) :
    Keeps L (fun task s => V task ∧ P s) (do
      Conductor.appendAudit actor action fromStatus toStatus metadata none
      Conductor.saveTask none) :=
  .bind hkept.monotone (hkept.appendAudit _ _ _ _ _ _) fun _ => hkept.saveTask _

/-- With the calls beside them, the notes are all that work on a task does. -/
theorem workInvariant (hkept : KeptByNotes L V P)
    (haside : ∀ ⦃c s⦄, c.aside = true → P s → L.call s c fun _ s' => P s') :
    WorkInvariant L fun task s => V task ∧ P s where
  monotone := hkept.monotone
  result _ _ _ h := hkept.version h rfl rfl rfl rfl
  aside _ _ _ hc h := hkept.monotone (fun _ _ hP => ⟨h.1, hP⟩) (haside hc h.2)
  noted _ _ _ _ _ _ := hkept.noted _ _ _ _ _
  retried metadata error := by
    refine .bind hkept.monotone (hkept.appendAudit _ _ _ _ _ _) fun _ => ?_
    refine .bind hkept.monotone (hkept.saveTask _) fun _ => ?_
    intro task s h
    refine wp_mono hkept.monotone ?_ (hkept.emitEvent _ _ _ h)
    rintro _ _ _ ⟨rfl, h⟩
    exact h
  worked _ _ _ _ _ _ _ _ _ := fun _ _ h =>
    wp_mono hkept.monotone (fun _ _ _ h => h.1) (hkept.transitionStatus _ _ _ _ _ _ _ h)

end KeptByNotes

/-- The calls about a task under way keep `P`, provided that only records with the
property `V` are saved. -/
structure KeptByWork (L : Logic S Call Answer) (V : TaskRecord → Prop) (P : S → Prop) :
    Prop where
  monotone : L.Monotone
  identifies : Identifies V
  calls : ∀ ⦃c s⦄, c.isWork = true → (∀ task, c = .storeSave task → V task) → P s →
    L.call s c fun _ s' => P s'

namespace KeptByWork

variable {V : TaskRecord → Prop} {P : S → Prop}

theorem notes (hkept : KeptByWork L V P) : KeptByNotes L V P where
  monotone := hkept.monotone
  aboutRequest task t hid hname hcapability _ := hkept.identifies task t hid hname hcapability
  calls c _ hc := by
    apply hkept.calls
    cases c <;> first | rfl | cases hc

/-- What the calls keep, work on a task keeps. -/
theorem workInvariant (hkept : KeptByWork L V P) :
    WorkInvariant L fun task s => V task ∧ P s := by
  apply hkept.notes.workInvariant
  intro c s hc
  apply hkept.calls
  · cases c <;> first | rfl | cases hc
  · rintro task rfl
    cases hc

end KeptByWork

/-- The calls made with a task in hand keep `P`, provided that only records
with the property `V` are saved. -/
structure KeptByCalls (L : Logic S Call Answer) (V : TaskRecord → Prop) (P : S → Prop) :
    Prop where
  monotone : L.Monotone
  outOfFuel : ∀ ⦃s⦄, P s → L.outOfFuel s
  identifies : Identifies V
  calls : ∀ ⦃c s⦄, c.onTask = true → (∀ task, c = .storeSave task → V task) → P s →
    L.call s c fun _ s' => P s'

namespace KeptByCalls

variable {V : TaskRecord → Prop} {P : S → Prop} {task : TaskRecord} {s : S}

/-- A call that saves nothing. -/
theorem call (hkept : KeptByCalls L V P) {c : Call} (hc : c.onTask = true)
    (hsave : c.isSave = false) (h : V task ∧ P s) :
    L.call s c fun _ s' => V task ∧ P s' := by
  refine hkept.monotone (fun _ _ hP => ⟨h.1, hP⟩) (hkept.calls hc ?_ h.2)
  rintro t rfl
  cases hsave

/-- A version of the task with the same identity. -/
theorem version (hkept : KeptByCalls L V P) (h : V task ∧ P s) {t : TaskRecord}
    (hid : t.taskId = task.taskId) (hname : t.name = task.name)
    (hcapability : t.capability = task.capability) : V t ∧ P s :=
  ⟨hkept.identifies task t hid hname hcapability h.1, h.2⟩

theorem work (hkept : KeptByCalls L V P) : KeptByWork L V P where
  monotone := hkept.monotone
  identifies := hkept.identifies
  calls c _ hc hsave h := by
    refine hkept.calls ?_ hsave h
    cases c <;> first | rfl | cases hc

/-- What the calls keep, `run_task` keeps with a loaded record. -/
theorem taskInvariant (hkept : KeptByCalls L V P) :
    TaskInvariant L fun _ task s => V task ∧ P s where
  monotone := hkept.monotone
  outOfFuel _ _ h := hkept.outOfFuel h.2
  loaded _ _ _ h := h
  approved _ _ h _ := h
  result _ _ _ _ h := hkept.version h rfl rfl rfl
  attempt _ _ _ h := hkept.version h rfl rfl rfl
  beside _ _ _ _ hc h :=
    hkept.call (Call.onTask_of_beside hc).1 (Call.onTask_of_beside hc).2 h
  described _ _ _ _ h := by
    refine hkept.monotone ?_ (hkept.call rfl rfl h)
    exact fun _ _ h => ⟨h, fun _ _ _ => h⟩
  evaluated _ _ _ h := by
    refine hkept.monotone ?_ (hkept.call rfl rfl h)
    exact fun _ _ h => ⟨h, fun _ _ _ => h⟩
  parked _ _ _ _ h := hkept.work.notes.transitionStatus _ _ _ _ _ _ _ h
  denied _ _ _ _ _ h := hkept.work.notes.transitionStatus _ _ _ _ _ _ _ h
  suggested _ _ h := by
    refine hkept.monotone ?_ (hkept.call rfl rfl h)
    exact fun _ _ h => ⟨h, fun _ _ _ => hkept.version h rfl rfl rfl⟩
  attempted _ _ _ _ _ h := by
    refine hkept.monotone ?_ (hkept.call rfl rfl h)
    exact fun _ _ h => ⟨h, fun _ _ => hkept.call rfl rfl h⟩
  decided _ _ _ h := by
    refine hkept.monotone ?_ (hkept.call rfl rfl h)
    exact fun _ _ h => ⟨h, fun _ _ => hkept.version h rfl rfl rfl⟩
  noted := hkept.work.workInvariant.noted
  retried := hkept.work.workInvariant.retried
  worked := hkept.work.workInvariant.worked

end KeptByCalls

/-- A monitor that takes the store and the clock at their word, and to which a
reading of the clock makes no difference. -/
structure Timeless {V : Type*} (m : Monitor V Call Answer) : Prop where
  answers : m.answers = Sound
  allows : ∀ v, m.allows v .now
  next : ∀ v ts, m.next v .now (.ok ts) = v

namespace Timeless

variable {V : Type*} {m : Monitor V Call Answer} {v : V} {task : TaskRecord}

theorem wp_now (hm : Timeless m) {x : σ} (post : Except PyExc Time → σ → V → Prop) :
    (now : Block Call Response PyExc σ Time).wp m.logic post x v =
      ∀ ts, post (.ok ts) x v := by
  simp only [now, wp_ask, Monitor.logic_call, hm.answers, Sound, eq_iff_iff]
  constructor
  · intro h ts
    have hread := h.2 (.ok ts) ⟨ts, rfl⟩
    rwa [hm.next] at hread
  · intro h
    refine ⟨hm.allows v, ?_⟩
    rintro answer ⟨ts, rfl⟩
    rw [hm.next]
    exact h ts

theorem wp_storeSave (hm : Timeless m) {x : σ}
    (post : Except PyExc (Response (.storeSave task)) → σ → V → Prop) :
    @Block.wp Call Response PyExc σ (no_index (Response (.storeSave task))) V m.logic
        (ask (.storeSave task)) post x v =
      (m.allows v (.storeSave task) ∧ post (.ok ()) x (m.next v (.storeSave task) (.ok ()))) := by
  simp only [wp_ask, Monitor.logic_call, hm.answers, Sound, eq_iff_iff]
  constructor
  · exact fun h => ⟨h.1, h.2 (.ok ()) rfl⟩
  · rintro ⟨hallowed, hpost⟩
    exact ⟨hallowed, by rintro answer rfl; exact hpost⟩

/-- Of the exceptions of the bus only an interrupt escapes. -/
def Escapes (answer outcome : Except PyExc Unit) : Prop :=
  ∀ e, outcome = .error e → answer = .error e ∧ e.isException = false

theorem wp_emitEvent (hm : Timeless m) {post : Except PyExc Unit → TaskRecord → V → Prop}
    {eventType : EventType} {error : Option String} {metadata : Dict}
    (hemit : ∀ ts, m.allows v (.emit task (taskEvent task eventType ts error metadata)))
    (hpost : ∀ ts answer outcome, Escapes answer outcome → post outcome task
      (m.next v (.emit task (taskEvent task eventType ts error metadata)) answer)) :
    (emitEvent eventType error metadata).wp m.logic post task v := by
  simp only [emitEvent, wp_tryExcept, wp_bind, hm.wp_now, wp_object, wp_ask, Monitor.logic_call]
  intro ts
  refine ⟨hemit ts, ?_⟩
  intro answer _
  cases answer with
  | ok value => exact hpost ts (.ok value) _ nofun
  | error e =>
      dsimp only
      split
      · exact hpost ts (.error e) _ nofun
      · rename_i hinterrupt
        refine hpost ts (.error e) _ ?_
        rintro _ ⟨⟩
        exact ⟨rfl, by simpa using hinterrupt⟩

/-- A transition at a given time saves the record and emits the event that
describes it. -/
theorem wp_transitionStatus_at (hm : Timeless m)
    {post : Except PyExc Unit → TaskRecord → V → Prop} {toStatus : TaskStatus}
    {actor action : String} {eventType : EventType} {metadata : Dict} {error : Option String}
    {ts : Time}
    (hsave : m.allows v (.storeSave (task.transitioned toStatus actor action metadata ts)))
    (hemit : ∀ t, t = task.transitioned toStatus actor action metadata ts →
      ∀ ts', m.allows (m.next v (.storeSave t) (.ok ()))
        (.emit t (taskEvent t eventType ts' error metadata)))
    (hpost : ∀ t, t = task.transitioned toStatus actor action metadata ts →
      ∀ ts' answer outcome, Escapes answer outcome →
        post outcome t (m.next (m.next v (.storeSave t) (.ok ()))
          (.emit t (taskEvent t eventType ts' error metadata)) answer)) :
    (transitionStatus toStatus actor action eventType metadata error (some ts)).wp m.logic
      post task v := by
  simp only [transitionStatus, appendAudit, saveTask, timestampOrNow, wp_bind, wp_pure,
    wp_object, wp_mutate, hm.wp_storeSave]
  exact ⟨hsave, hm.wp_emitEvent (hemit _ rfl) (hpost _ rfl)⟩

/-- A transition, at whatever time. -/
theorem wp_transitionStatus (hm : Timeless m)
    {post : Except PyExc Unit → TaskRecord → V → Prop} {toStatus : TaskStatus}
    {actor action : String} {eventType : EventType} {metadata : Dict} {error : Option String}
    {timestamp : Option Time}
    (hsave : ∀ ts, m.allows v (.storeSave (task.transitioned toStatus actor action metadata ts)))
    (hemit : ∀ ts t, t = task.transitioned toStatus actor action metadata ts →
      ∀ ts', m.allows (m.next v (.storeSave t) (.ok ()))
        (.emit t (taskEvent t eventType ts' error metadata)))
    (hpost : ∀ ts t, t = task.transitioned toStatus actor action metadata ts →
      ∀ ts' answer outcome, Escapes answer outcome →
        post outcome t (m.next (m.next v (.storeSave t) (.ok ()))
          (.emit t (taskEvent t eventType ts' error metadata)) answer)) :
    (transitionStatus toStatus actor action eventType metadata error timestamp).wp m.logic
      post task v := by
  have hrest (ts : Time) : (transitionStatus toStatus actor action eventType metadata error
      (some ts)).wp m.logic post task v :=
    hm.wp_transitionStatus_at (hsave ts) (hemit ts) (hpost ts)
  cases timestamp with
  | some ts => exact hrest ts
  | none =>
      simp only [transitionStatus, timestampOrNow, wp_bind, hm.wp_now]
      intro ts
      simpa only [transitionStatus, timestampOrNow, wp_bind, wp_pure] using hrest ts

/-- A note is an audit entry that is saved at once. -/
theorem wp_note (hm : Timeless m) {post : Except PyExc Unit → TaskRecord → V → Prop}
    {actor action : String} {fromStatus toStatus : Option TaskStatus} {metadata : Dict}
    (hnote : ∀ ts saved t,
      t = task.noted ⟨ts, actor, action, fromStatus, toStatus, metadata⟩ saved →
        m.allows v (.storeSave t) ∧ post (.ok ()) t (m.next v (.storeSave t) (.ok ()))) :
    (appendAudit actor action fromStatus toStatus metadata none >>= fun _ => saveTask none).wp
      m.logic post task v := by
  simp only [appendAudit, saveTask, timestampOrNow, wp_bind, wp_mutate, wp_object, hm.wp_now,
    hm.wp_storeSave]
  intro ts saved
  exact hnote ts saved _ rfl

/-- A note of which the bus is told. -/
theorem wp_note_emit (hm : Timeless m) {post : Except PyExc Unit → TaskRecord → V → Prop}
    {actor action : String} {fromStatus toStatus : Option TaskStatus} {metadata : Dict}
    {eventType : EventType} {error : Option String}
    (hnote : ∀ ts saved t,
      t = task.noted ⟨ts, actor, action, fromStatus, toStatus, metadata⟩ saved →
        m.allows v (.storeSave t) ∧
          ∀ ts', m.allows (m.next v (.storeSave t) (.ok ()))
              (.emit t (taskEvent t eventType ts' error metadata)) ∧
            ∀ answer outcome, Escapes answer outcome →
              post outcome t (m.next (m.next v (.storeSave t) (.ok ()))
                (.emit t (taskEvent t eventType ts' error metadata)) answer)) :
    (do appendAudit actor action fromStatus toStatus metadata none
        saveTask none
        emitEvent eventType error metadata : TaskBlock Unit).wp m.logic post task v := by
  rw [← bind_assoc, wp_bind]
  refine hm.wp_note fun ts saved t ht => ?_
  obtain ⟨hsave, hemit⟩ := hnote ts saved t ht
  exact ⟨hsave, hm.wp_emitEvent (fun ts' => (hemit ts').1) fun ts' => (hemit ts').2⟩

end Timeless

end Conductor
