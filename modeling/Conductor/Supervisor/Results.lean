/-
Result and status.  Each method sets the result right before the transition that
saves it, so a record is saved only with a result that fits its status.
-/
import Conductor.Supervisor.Sequential
import Conductor.Supervisor.Stages

namespace Conductor

open Effects Block

/-- A result that reports success. -/
def Succeeded (result : Option TaskResult) : Prop :=
  ∃ r, result = some r ∧ r.success = true ∧ r.error = none

/-- A result that reports a failure that ended at this time. -/
def FailedAt (result : Option TaskResult) (updatedAt : Time) : Prop :=
  ∃ r error, result = some r ∧ r.success = false ∧ r.error = some error ∧
    r.completedAt = some updatedAt

/-- The result fits the status. -/
def Coherent (task : TaskRecord) : Prop :=
  match task.status with
  | .completed => Succeeded task.result
  | .failed | .escalated | .policyDenied | .cancelled => FailedAt task.result task.updatedAt
  | .pending | .awaitingApproval | .approved | .running => task.result = none

/-- The task waits to be started. -/
def Startable (task : TaskRecord) : Prop :=
  (task.status = .pending ∨ task.status = .approved) ∧ task.result = none

/-- The task is in its attempts; one of them may have completed it. -/
def UnderAttempt (task : TaskRecord) : Prop :=
  task.status = .running ∧ task.result = none ∨ task.status = .completed ∧ Succeeded task.result

variable {task : TaskRecord}

theorem Startable.coherent (hstartable : Startable task) : Coherent task := by
  obtain ⟨hstatus | hstatus, hresult⟩ := hstartable <;>
    simpa only [Coherent, hstatus] using hresult

theorem UnderAttempt.coherent (hunder : UnderAttempt task) : Coherent task := by
  obtain ⟨hstatus, hresult⟩ | ⟨hstatus, hresult⟩ := hunder <;>
    simpa only [Coherent, hstatus] using hresult

/-- As long as each record that was read fits, each record that is saved does. -/
def coherence : Monitor Prop Call Answer where
  initial := True
  next
    | read, .storeGet _, .ok (some task) => read ∧ Coherent task
    | read, _, _ => read
  allows
    | read, .storeSave task => read → Coherent task
    | _, _ => True
  answers := Sound

theorem coherence_timeless : Timeless coherence := ⟨rfl, fun _ => trivial, fun _ _ => rfl⟩

/-- Calls that neither read nor write the store. -/
def Call.offStore : Call → Bool
  | .storeGet _ | .storeSave _ => false
  | _ => true

/-- The task in hand is so, as long as each record that was read fits. -/
def Holding (P : TaskRecord → Prop) (task : TaskRecord) (read : Prop) : Prop := read → P task

/-- What is so of the task in hand is kept however the block ends. -/
abbrev HoldingKept (P : TaskRecord → Prop) {α : Type} (m : TaskBlock α) : Prop :=
  Keeps coherence.logic (Holding P) m

theorem coherence_monotone : coherence.logic.Monotone := coherence.logic_monotone

theorem offStore_call {c : Call} (hc : c.offStore = true) {read : Prop}
    {post : Answer c → Prop → Prop} (hpost : ∀ answer, post answer read) :
    coherence.logic.call read c post := by
  constructor
  · cases c <;> trivial
  · intro answer _
    cases c <;> first | exact hpost answer | cases hc

/-- An assertion that allows the record to be saved, and that notes in the audit
trail and the time of the save leave alone. -/
structure Savable (P : TaskRecord → Prop) : Prop where
  coherent : ∀ task, P task → Coherent task
  noted : ∀ task trail updatedAt, P task →
    P { task with auditTrail := trail, updatedAt := updatedAt }

theorem savable_startable : Savable Startable := ⟨fun _ h => h.coherent, fun _ _ _ h => h⟩

theorem savable_underAttempt : Savable UnderAttempt := ⟨fun _ h => h.coherent, fun _ _ _ h => h⟩

section Statements

variable {P : TaskRecord → Prop} {sup : Supervisor}

theorem ask_holding {c : Call} (hc : c.offStore = true) : HoldingKept P (ask c) := by
  intro task read hholding
  rw [wp_ask]
  exact offStore_call hc fun _ => hholding

theorem timestampOrNow_holding (timestamp : Option Time) :
    HoldingKept P (timestampOrNow timestamp) := by
  cases timestamp with
  | none => exact ask_holding rfl
  | some ts => exact .pure ts

theorem appendAudit_holding (hsavable : Savable P) (actor action : String)
    (fromStatus toStatus : Option TaskStatus) (metadata : Dict) (timestamp : Option Time) :
    HoldingKept P (appendAudit actor action fromStatus toStatus metadata timestamp) := by
  apply Keeps.bind coherence_monotone (timestampOrNow_holding timestamp)
  intro ts
  exact .mutate fun task read hholding hread =>
    hsavable.noted task _ task.updatedAt (hholding hread)

theorem saveTask_holding (hsavable : Savable P) (timestamp : Option Time) :
    HoldingKept P (saveTask timestamp) := by
  apply Keeps.bind coherence_monotone (timestampOrNow_holding timestamp)
  intro ts
  apply Keeps.bind coherence_monotone
  · exact .mutate fun task read hholding hread =>
      hsavable.noted task task.auditTrail ts (hholding hread)
  · intro _
    apply Keeps.bind_object
    intro task read hholding
    rw [wp_ask]
    exact ⟨fun hread => hsavable.coherent task (hholding hread), fun _ _ => hholding⟩

theorem emitEvent_holding (eventType : EventType) (error : Option String) (metadata : Dict) :
    HoldingKept P (emitEvent eventType error metadata) := by
  apply Keeps.tryExcept coherence_monotone
  · apply Keeps.bind coherence_monotone (ask_holding rfl)
    intro ts
    apply Keeps.bind_object
    intro task read hholding
    exact ask_holding rfl hholding
  · exact fun _ => .pure ()

/-- A transition whose record fits. -/
theorem coherent_transition {toStatus : TaskStatus} {actor action : String}
    {eventType : EventType} {metadata : Dict} {error : Option String} {ts : Time}
    {task : TaskRecord} {read : Prop}
    (hcoherent : read → Coherent (task.transitioned toStatus actor action metadata ts)) :
    (transitionStatus toStatus actor action eventType metadata error (some ts)).wp coherence.logic
      (fun _ t read' => read' = read ∧ t = task.transitioned toStatus actor action metadata ts)
      task read := by
  apply coherence_timeless.wp_transitionStatus_at hcoherent
  · exact fun _ _ _ => trivial
  · intro t ht ts' answer outcome _
    exact ⟨rfl, ht⟩

/-! ### The methods of a run -/

theorem waitForExecutionWindow_holding (capability : String) :
    HoldingKept P (waitForExecutionWindow sup capability) := by
  unfold waitForExecutionWindow
  apply Keeps.bind coherence_monotone (.ofExcept _)
  intro controls
  cases controls.minIntervalSeconds with
  | none => exact .pure ()
  | some minInterval =>
      apply Keeps.bind coherence_monotone (ask_holding rfl)
      intro now
      apply Keeps.bind coherence_monotone (ask_holding rfl)
      intro previousStart
      cases previousStart with
      | none => exact ask_holding rfl
      | some previousStart =>
          dsimp only
          split
          · apply Keeps.bind coherence_monotone (ask_holding rfl)
            intro _
            exact .bind coherence_monotone (ask_holding rfl) fun _ => ask_holding rfl
          · exact ask_holding rfl

theorem publishFailures_holding (history : List FailureContext) (hint : String) :
    HoldingKept P (publishFailures sup history hint) := by
  unfold publishFailures
  split
  · exact Keeps.bind coherence_monotone .object fun _ => ask_holding rfl
  · exact .pure ()

theorem buildEscalationRecord_holding (history : List FailureContext) :
    HoldingKept P (buildEscalationRecord sup history) := by
  unfold buildEscalationRecord
  split
  · apply Keeps.bind coherence_monotone .object
    intro task
    exact .bind coherence_monotone (ask_holding rfl) fun _ => .pure _
  · exact .pure none

theorem policyEscalates_holding (history : List FailureContext) :
    HoldingKept P (policyEscalates sup history) := by
  unfold policyEscalates
  split
  · exact Keeps.bind coherence_monotone .object fun _ => ask_holding rfl
  · exact .pure false

theorem escalates_holding (decision : RetryDecision) (history : List FailureContext) :
    HoldingKept P (escalates sup decision history) := by
  unfold escalates
  split
  · exact .pure true
  · exact policyEscalates_holding history

theorem recordFailure_holding (hsavable : Savable P) (exc : PyExc) :
    HoldingKept P (recordFailure sup exc) := by
  apply Keeps.bind coherence_monotone .object
  intro task
  apply Keeps.bind coherence_monotone (.ofExcept _)
  intro fingerprint
  apply Keeps.bind coherence_monotone (.ofExcept _)
  intro message
  apply Keeps.bind coherence_monotone (appendAudit_holding hsavable _ _ _ _ _ _)
  intro _
  exact .bind coherence_monotone (saveTask_holding hsavable none) fun _ => .pure _

theorem applyPeerSuggestion_holding : HoldingKept Startable (applyPeerSuggestion sup) := by
  unfold applyPeerSuggestion
  split
  · apply Keeps.bind coherence_monotone .object
    intro task
    apply Keeps.bind coherence_monotone (ask_holding rfl)
    intro suggestions
    cases suggestions with
    | nil => exact .pure ()
    | cons best rest =>
        refine Keeps.bind coherence_monotone (.mutate ?_) fun _ => ?_
        · exact fun _ _ hholding => hholding
        · exact .bind coherence_monotone (appendAudit_holding savable_startable _ _ _ _ _ _)
            fun _ => saveTask_holding savable_startable none
  · exact .pure ()

theorem retryDelay_holding (decision : RetryDecision) : HoldingKept P (retryDelay decision) := by
  unfold retryDelay
  split
  · split
    · exact ask_holding rfl
    · exact .pure ()
  · exact .pure ()

/-- What is kept is there when the block returns. -/
theorem returns_holding {α : Type} {m : TaskBlock α} (hm : HoldingKept P m) {task : TaskRecord}
    {read : Prop} (hholding : Holding P task read) :
    m.wp coherence.logic (onReturn fun _ t read' => Holding P t read') task read := by
  refine wp_mono coherence_monotone ?_ (hm hholding)
  intro outcome t read' hafter
  cases outcome with
  | ok value => exact hafter
  | error e => trivial

theorem startTask_coherent {task : TaskRecord} {read : Prop}
    (hstartable : Holding Startable task read) :
    (startTask sup).wp coherence.logic
      (onReturn fun _ t read' => Holding UnderAttempt t read') task read := by
  apply wp_seq coherence_monotone (returns_holding .object hstartable)
  intro _ task read hstartable
  apply wp_seq coherence_monotone (returns_holding (.ofExcept _) hstartable)
  intro controls task read hstartable
  apply wp_seq coherence_monotone
    (returns_holding (waitForExecutionWindow_holding _) hstartable)
  intro _ task read hstartable
  apply wp_seq coherence_monotone (returns_holding (ask_holding rfl) hstartable)
  intro startedAt task read hstartable
  rw [wp_mutate_bind, wp_object_bind, wp_bind]
  refine wp_mono coherence_monotone ?_ (coherent_transition fun hread => (hstartable hread).2)
  rintro outcome t read' ⟨rfl, rfl⟩
  cases outcome with
  | error e => trivial
  | ok _ => exact fun hread => .inl ⟨rfl, (hstartable hread).2⟩

theorem attempt_holding (capability : String) (controls : CapabilityExecutionControls)
    (startedAt : Time) : HoldingKept UnderAttempt (attempt sup capability controls startedAt) := by
  apply Keeps.bind coherence_monotone .object
  intro found
  apply Keeps.bind coherence_monotone (ask_holding rfl)
  intro payload
  apply Keeps.bind coherence_monotone (ask_holding rfl)
  intro result
  apply Keeps.bind coherence_monotone (ask_holding rfl)
  intro completedAt task read hholding
  -- The result is set first, then the transition saves it.
  have hsucceeded : Succeeded (some (⟨true, result.output, none, result.metadata, some startedAt,
    some completedAt⟩ : TaskResult)) := ⟨_, rfl, rfl, rfl⟩
  rw [wp_mutate_bind, wp_bind]
  refine wp_mono coherence_monotone ?_ (coherent_transition fun _ => hsucceeded)
  rintro outcome t read' ⟨rfl, rfl⟩
  have hunder : UnderAttempt
      (TaskRecord.transitioned { task with
        result := some ⟨true, result.output, none, result.metadata, some startedAt,
          some completedAt⟩ } .completed "supervisor" "completed"
        [("attempt", .int found.attempt)] completedAt) := .inr ⟨rfl, hsucceeded⟩
  cases outcome with
  | error e => exact fun _ => hunder
  | ok _ =>
      dsimp only
      split
      · exact Keeps.bind coherence_monotone .object (fun _ => ask_holding rfl) fun _ => hunder
      · exact fun _ => hunder

/-- However the block ends, each save it made was of a record that fits. -/
def SavesCoherent {σ α : Type} (m : Block Call Response PyExc σ α) (x : σ) (read : Prop) : Prop :=
  m.wp coherence.logic (onReturn fun _ _ _ => True) x read

/-- Statements that save nothing. -/
theorem calm_holding {α : Type} {m : TaskBlock α} (hm : HoldingKept (fun _ => True) m)
    (task : TaskRecord) (read : Prop) : SavesCoherent m task read :=
  wp_onReturn_mono coherence_monotone (fun _ _ _ _ => trivial)
    (returns_holding hm fun _ => trivial)

/-- A transition to a failure with the time of the result. -/
theorem failing_transition {toStatus : TaskStatus} {actor action : String} {eventType : EventType}
    {metadata : Dict} {error : Option String} {ts : Time} {task : TaskRecord} {read : Prop}
    (hstatus : toStatus = .failed ∨ toStatus = .escalated ∨ toStatus = .policyDenied ∨
      toStatus = .cancelled) (hfailed : FailedAt task.result ts) :
    SavesCoherent (transitionStatus toStatus actor action eventType metadata error (some ts))
      task read := by
  refine wp_mono coherence_monotone ?_ (coherent_transition fun _ => ?_)
  · intro outcome _ _ _
    cases outcome <;> trivial
  · rcases hstatus with rfl | rfl | rfl | rfl <;> exact hfailed

theorem failTask_savesCoherent (history : List FailureContext) (startedAt : Time) (exc : PyExc)
    (task : TaskRecord) (read : Prop) :
    SavesCoherent (failTask sup history startedAt exc) task read := by
  apply wp_seq coherence_monotone (calm_holding (publishFailures_holding history _) task read)
  intro _ task read _
  apply wp_seq coherence_monotone (calm_holding (ask_holding rfl) task read)
  intro failedAt task read _
  apply wp_seq coherence_monotone (calm_holding (.ofExcept _) task read)
  intro error task read _
  rw [wp_mutate_bind, wp_object_bind]
  exact failing_transition (by simp) ⟨_, error, rfl, rfl, rfl, rfl⟩

theorem doEscalate_savesCoherent (history : List FailureContext) (startedAt : Time) (exc : PyExc)
    (reason : Option String) (task : TaskRecord) (read : Prop) :
    SavesCoherent (doEscalate sup history startedAt exc reason) task read := by
  apply wp_seq coherence_monotone (calm_holding (ask_holding rfl) task read)
  intro escalatedAt task read _
  apply wp_seq coherence_monotone (calm_holding (buildEscalationRecord_holding history) task read)
  intro record task read _
  apply wp_seq coherence_monotone (calm_holding (.ofExcept _) task read)
  intro error task read _
  rw [wp_mutate_bind, wp_object_bind]
  apply wp_seq coherence_monotone
    (failing_transition (by simp) ⟨_, error, rfl, rfl, rfl, rfl⟩)
  intro _ task read _
  exact calm_holding (publishFailures_holding history _) task read

/-- A loop that goes on works on a task in its attempts. -/
def FlowCoherent (flow : Flow) (task : TaskRecord) (read : Prop) : Prop :=
  ∀ history, flow = .again history → Holding UnderAttempt task read

theorem escalated_flow {history : List FailureContext} {startedAt : Time} {exc : PyExc}
    {reason : Option String} (task : TaskRecord) (read : Prop) :
    (do
      doEscalate sup history startedAt exc reason
      pure (.stop none history) : TaskBlock Flow).wp coherence.logic
      (onReturn FlowCoherent) task read :=
  wp_seq coherence_monotone
    (doEscalate_savesCoherent history startedAt exc reason task read) fun _ _ _ _ => nofun

theorem retry_coherent {startedAt : Time} {exc : PyExc} {history : List FailureContext}
    {decision : RetryDecision} {task : TaskRecord} {read : Prop}
    (hunder : Holding UnderAttempt task read) :
    (retry sup startedAt exc history decision).wp coherence.logic (onReturn FlowCoherent)
      task read := by
  unfold retry
  rw [wp_mutate_bind]
  apply wp_seq coherence_monotone
    (returns_holding (P := UnderAttempt) (policyEscalates_holding history) (by exact hunder))
  intro escalate task read hunder
  cases escalate with
  | true => exact escalated_flow task read
  | false =>
      apply wp_seq coherence_monotone (returns_holding .object hunder)
      intro found task read hunder
      apply wp_seq coherence_monotone (returns_holding (.ofExcept _) hunder)
      intro error task read hunder
      apply wp_seq coherence_monotone
        (returns_holding (appendAudit_holding savable_underAttempt _ _ _ _ _ _) hunder)
      intro _ task read hunder
      apply wp_seq coherence_monotone
        (returns_holding (saveTask_holding savable_underAttempt none) hunder)
      intro _ task read hunder
      apply wp_seq coherence_monotone (returns_holding (emitEvent_holding _ _ _) hunder)
      intro _ task read hunder
      apply wp_seq coherence_monotone (returns_holding (retryDelay_holding decision) hunder)
      intro _ task read hunder _ _
      exact hunder

theorem handleFailure_coherent {startedAt : Time} {exc : PyExc} {history : List FailureContext}
    {task : TaskRecord} {read : Prop} (hunder : Holding UnderAttempt task read) :
    (handleFailure sup startedAt history exc).wp coherence.logic (onReturn FlowCoherent)
      task read := by
  apply wp_seq coherence_monotone
    (returns_holding (recordFailure_holding savable_underAttempt exc) hunder)
  intro failure task read hunder
  apply wp_seq coherence_monotone (returns_holding .object hunder)
  intro found task read hunder
  apply wp_seq coherence_monotone (returns_holding (ask_holding rfl) hunder)
  intro decision task read hunder
  split
  · exact retry_coherent hunder
  · unfold giveUp
    apply wp_seq coherence_monotone (returns_holding (escalates_holding decision _) hunder)
    intro escalate task read _
    cases escalate with
    | true => exact escalated_flow task read
    | false => exact nofun

theorem attemptRound_coherent {capability : String} {controls : CapabilityExecutionControls}
    {startedAt : Time} {history : List FailureContext} {task : TaskRecord} {read : Prop}
    (hunder : Holding UnderAttempt task read) :
    (attemptRound sup capability controls startedAt history).wp coherence.logic
      (onReturn FlowCoherent) task read := by
  unfold attemptRound
  rw [wp_tryExcept, wp_bind]
  refine wp_mono coherence_monotone ?_ (attempt_holding capability controls startedAt hunder)
  intro outcome task read hunder
  cases outcome with
  | ok _ => exact nofun
  | error exc =>
      dsimp only
      split
      · exact handleFailure_coherent hunder
      · trivial

theorem attemptLoop_savesCoherent {capability : String} {controls : CapabilityExecutionControls}
    {startedAt : Time} (fuel : Nat) (history : List FailureContext) {task : TaskRecord}
    {read : Prop} (hunder : Holding UnderAttempt task read) :
    SavesCoherent (attemptLoop sup capability controls startedAt fuel history) task read := by
  induction fuel generalizing history task read with
  | zero => trivial
  | succ fuel ih =>
      apply wp_seq coherence_monotone (attemptRound_coherent hunder)
      intro flow task read hflow
      cases flow with
      | stop lastExc history => trivial
      | again history => exact ih history (hflow history rfl)

theorem runAttempts_savesCoherent (fuel : Nat) {capability : String}
    {controls : CapabilityExecutionControls} {startedAt : Time} {task : TaskRecord} {read : Prop}
    (hunder : Holding UnderAttempt task read) :
    SavesCoherent (runAttempts sup fuel capability controls startedAt) task read := by
  apply wp_seq coherence_monotone (attemptLoop_savesCoherent fuel [] hunder)
  intro ended task read _
  split
  · trivial
  · exact failTask_savesCoherent _ _ _ task read

theorem executeTask_savesCoherent (fuel : Nat) {capability : String} {task : TaskRecord}
    {read : Prop} (hstartable : Holding Startable task read) :
    SavesCoherent (executeTask sup fuel capability) task read := by
  apply wp_seq coherence_monotone (returns_holding applyPeerSuggestion_holding hstartable)
  intro _ task read hstartable
  apply wp_seq coherence_monotone (startTask_coherent hstartable)
  intro started task read hunder
  exact runAttempts_savesCoherent fuel hunder

/-! ### The gates -/

/-- A task that is still pending can be started. -/
def PendingStartable (task : TaskRecord) : Prop := task.status = .pending → Startable task

theorem parked_coherent {actor : String} {metadata : Dict} {task : TaskRecord} {read : Prop}
    (hstartable : Holding Startable task read) :
    (transitionStatus .awaitingApproval actor "awaiting_approval" .taskAwaitingApproval metadata
      none none).wp coherence.logic
      (onReturn fun _ t read' => Holding PendingStartable t read') task read := by
  apply coherence_timeless.wp_transitionStatus
  · exact fun ts hread => (hstartable hread).2
  · exact fun _ _ _ _ => trivial
  · rintro ts t rfl ts' answer outcome _
    cases outcome with
    | error e => trivial
    | ok _ => exact fun _ => nofun

theorem applyPolicy_coherent {decision : PolicyDecision} {task : TaskRecord} {read : Prop}
    (hstartable : Holding Startable task read) :
    (applyPolicy sup decision).wp coherence.logic
      (onReturn fun _ t read' => Holding PendingStartable t read') task read := by
  unfold applyPolicy
  dsimp only
  split
  · apply wp_seq coherence_monotone (returns_holding (ask_holding rfl) hstartable)
    intro deniedAt task read _
    rw [wp_mutate_bind]
    refine wp_mono coherence_monotone ?_
      (coherent_transition fun _ => ⟨_, _, rfl, rfl, rfl, rfl⟩)
    rintro outcome t read' ⟨-, rfl⟩
    cases outcome with
    | error e => trivial
    | ok _ => exact fun _ => nofun
  · exact parked_coherent hstartable
  · apply wp_seq coherence_monotone
      (returns_holding (appendAudit_holding savable_startable _ _ _ _ _ _) hstartable)
    intro _ task read hstartable
    refine wp_onReturn_mono coherence_monotone ?_
      (returns_holding (saveTask_holding savable_startable none) hstartable)
    exact fun _ _ _ hstartable hread _ => hstartable hread

theorem gatePending_coherent {capability : String} {task : TaskRecord} {read : Prop}
    (hstartable : Holding Startable task read) :
    (gatePending sup capability).wp coherence.logic
      (onReturn fun _ t read' => Holding PendingStartable t read') task read := by
  apply wp_seq coherence_monotone (returns_holding (ask_holding rfl) hstartable)
  intro descriptor task read hstartable
  split
  · rw [wp_object_bind]
    exact parked_coherent hstartable
  · apply wp_seq coherence_monotone (returns_holding (ask_holding rfl) hstartable)
    intro current task read hstartable
    apply wp_seq coherence_monotone (returns_holding .object hstartable)
    intro found task read hstartable
    apply wp_seq coherence_monotone (returns_holding (ask_holding rfl) hstartable)
    intro decision task read hstartable
    exact applyPolicy_coherent hstartable

theorem validateTaskSubmission_holding (submission : TaskSubmission) :
    HoldingKept P (validateTaskSubmission sup submission) := by
  intro task read hholding
  apply wp_validateTaskSubmission
  · exact fun _ _ => hholding
  · exact fun _ => offStore_call rfl fun _ => hholding

theorem runLoadedTask_savesCoherent (fuel : Nat) {task : TaskRecord} {read : Prop}
    (hcoherent : Holding Coherent task read) :
    SavesCoherent (runLoadedTask sup fuel) task read := by
  have hstartable (hstatus : task.status = .pending ∨ task.status = .approved) :
      Holding Startable task read := by
    intro hread
    have hresult := hcoherent hread
    rcases hstatus with hstatus | hstatus
    · simp only [Coherent, hstatus] at hresult
      exact ⟨.inl hstatus, hresult⟩
    · simp only [Coherent, hstatus] at hresult
      exact ⟨.inr hstatus, hresult⟩
  unfold SavesCoherent runLoadedTask
  rw [wp_object_bind]
  split
  · next hpending =>
      apply wp_seq coherence_monotone
        (returns_holding (validateTaskSubmission_holding _) (hstartable (.inl hpending)))
      intro capability task read hstartable
      apply wp_seq coherence_monotone (gatePending_coherent hstartable)
      intro _ task read hgated
      rw [wp_object_bind]
      split
      · next hstill =>
          apply executeTask_savesCoherent
          exact fun hread => hgated hread hstill
      · trivial
  · split
    · next happroved =>
        apply wp_seq coherence_monotone
          (returns_holding (validateTaskSubmission_holding _) (hstartable (.inr happroved)))
        intro capability task read hstartable
        exact executeTask_savesCoherent fuel hstartable
    · trivial

end Statements

/-! ### The operations -/

section Operations

variable {sup : Supervisor} {x : Unit} {read : Prop}

/-- A record that is read fits if all that were read do. -/
theorem getTask_coherent (taskId : TaskId) :
    (getTask taskId).wp coherence.logic
      (onReturn fun task _ read' => Holding Coherent task read') x read := by
  unfold getTask
  rw [wp_bind, wp_ask]
  refine ⟨trivial, ?_⟩
  intro answer _
  rcases answer with e | _ | task
  · trivial
  · trivial
  · exact fun hread => hread.2

theorem on_savesCoherent {α : Type} {task : TaskRecord} {m : TaskBlock α}
    (hm : SavesCoherent m task read) : SavesCoherent (on task m) x read := by
  unfold SavesCoherent
  rw [wp_on]
  refine wp_mono coherence_monotone ?_ hm
  intro outcome _ _ _
  cases outcome <;> trivial

/-- A call of an operation that does not concern the store. -/
theorem ask_savesCoherent {c : Call} (hc : c.offStore = true) :
    SavesCoherent (ask c : OpBlock (Response c)) x read := by
  unfold SavesCoherent
  rw [wp_ask]
  apply offStore_call hc
  intro answer
  cases answer <;> trivial

theorem runTask_savesCoherent (fuel : Nat) (taskId : TaskId) :
    SavesCoherent (runTask sup fuel taskId) x read := by
  apply wp_seq coherence_monotone (ask_savesCoherent rfl)
  intro _ x read _
  apply wp_seq coherence_monotone (getTask_coherent taskId)
  intro task x read hcoherent
  apply wp_seq coherence_monotone
    (on_savesCoherent (runLoadedTask_savesCoherent fuel hcoherent))
  exact fun _ _ _ _ => trivial

theorem createTaskRecord_savesCoherent (submission : TaskSubmission) (enqueue : Bool) :
    SavesCoherent (createTaskRecord sup submission enqueue) x read := by
  have hvalidated :
      SavesCoherent (validateTaskSubmission sup submission : OpBlock String) x read := by
    apply wp_validateTaskSubmission
    · exact fun _ _ => trivial
    · intro _
      apply offStore_call rfl
      intro answer
      cases answer <;> trivial
  apply wp_seq coherence_monotone hvalidated
  intro _ x read _
  apply wp_seq coherence_monotone (ask_savesCoherent rfl)
  intro taskId x read _
  apply wp_seq coherence_monotone (ask_savesCoherent rfl)
  intro createdAt x read _
  apply wp_seq coherence_monotone (ask_savesCoherent rfl)
  intro updatedAt x read _
  have hcreated : SavesCoherent (do
      appendAudit "supervisor" "submitted" none (some .pending)
        [("max_retries", .int submission.maxRetries)] (some createdAt)
      let task ← object
      ask (.storeSave task)) (newTaskRecord submission taskId createdAt updatedAt) read := by
    simp only [SavesCoherent, appendAudit, timestampOrNow, wp_bind, wp_pure, wp_mutate, wp_object,
      wp_ask]
    refine ⟨fun _ => rfl, ?_⟩
    intro answer _
    cases answer <;> trivial
  apply wp_seq coherence_monotone (on_savesCoherent hcreated)
  intro created x read _
  split
  · apply wp_seq coherence_monotone (ask_savesCoherent rfl)
    exact fun _ _ _ _ => trivial
  · trivial

/-- The transition of an approval keeps the result away. -/
theorem approved_savesCoherent {task : TaskRecord} {actor : String} {metadata : Dict}
    (hcoherent : Holding Coherent task read) (hawaiting : task.status = .awaitingApproval) :
    SavesCoherent (transitionStatus .approved actor "approved" .taskApproved metadata none none)
      task read := by
  apply coherence_timeless.wp_transitionStatus
  · intro ts hread
    have hresult := hcoherent hread
    simp only [Coherent, hawaiting] at hresult
    exact hresult
  · exact fun _ _ _ _ => trivial
  · intro ts t _ ts' answer outcome _
    cases outcome <;> trivial

theorem approveTask_savesCoherent (fuel : Nat) (taskId : TaskId) (actor : String)
    (metadata : Option Dict) (run : Bool) :
    SavesCoherent (approveTask sup fuel taskId actor metadata run) x read := by
  apply wp_seq coherence_monotone (getTask_coherent taskId)
  intro task x read hcoherent
  split
  · next hawaiting =>
      apply wp_seq coherence_monotone
        (on_savesCoherent (approved_savesCoherent hcoherent hawaiting))
      intro approved x read _
      split
      · exact runTask_savesCoherent fuel taskId
      · apply wp_seq coherence_monotone (ask_savesCoherent rfl)
        exact fun _ _ _ _ => trivial
  · trivial

theorem cancelTask_savesCoherent (taskId : TaskId) (actor : String) (reason : Option String)
    (metadata : Option Dict) : SavesCoherent (cancelTask taskId actor reason metadata) x read := by
  apply wp_seq coherence_monotone (getTask_coherent taskId)
  intro task x read _
  split
  · apply wp_seq coherence_monotone (ask_savesCoherent rfl)
    intro cancelledAt x read _
    apply wp_seq coherence_monotone
      (on_savesCoherent (failing_transition (by simp) ⟨_, _, rfl, rfl, rfl, rfl⟩))
    exact fun _ _ _ _ => trivial
  · trivial

theorem runOperation_savesCoherent (fuel : Nat) (op : Operation) :
    SavesCoherent (runOperation sup fuel op) x read := by
  cases op with
  | submit submission => exact createTaskRecord_savesCoherent submission true
  | runSubmission submission =>
      apply wp_seq coherence_monotone (createTaskRecord_savesCoherent submission false)
      exact fun task _ _ _ => runTask_savesCoherent fuel task.taskId
  | runNext =>
      apply wp_seq coherence_monotone (ask_savesCoherent rfl)
      intro taskId x read _
      cases taskId with
      | none => trivial
      | some taskId => exact runTask_savesCoherent fuel taskId
  | runTask taskId => exact runTask_savesCoherent fuel taskId
  | approveTask taskId actor metadata run =>
      exact approveTask_savesCoherent fuel taskId actor metadata run
  | cancelTask taskId actor reason metadata =>
      exact cancelTask_savesCoherent taskId actor reason metadata

theorem client_savesCoherent (fuel : Nat) (ops : List Operation) (read : Prop) :
    (client sup fuel ops).wp coherence.logic (fun _ _ => True) read := by
  induction ops generalizing read with
  | nil => trivial
  | cons op ops ih =>
      refine ⟨trivial, fun _ _ => ?_⟩
      change Prog.wp _ ((run (runOperation sup fuel op) ()).bind _) _ _
      rw [Prog.wp_bind]
      apply Prog.wp_mono coherence_monotone _ (runOperation_savesCoherent fuel op)
      intro ended read' _
      exact ⟨trivial, fun _ _ => ih read'⟩

end Operations

variable {sup : Supervisor} {env : Env} {queue : TaskQueue} {h : Trace}

theorem run_coherence (sup : Supervisor) (env : Env) (fuel : Nat) (ops : List Operation)
    (queue : TaskQueue) :
    coherence.Lawful (sup.run env fuel ops (.initial queue)).history :=
  Prog.exec_lawful (I := fun k => k.state.store.Keyed) (keyed_step env)
    (fun _ c hkeyed => sound_of_keyed env hkeyed c) MemoryTaskStore.keyed_empty
    (client_savesCoherent fuel ops True) trivial

/-- Each record that was read fits, and so does each stored one. -/
theorem Sequential.coherent (hseq : Sequential sup env queue h) (hlawful : coherence.Lawful h) :
    coherence.view h ∧ ∀ taskId task, stored h taskId = some task → Coherent task := by
  induction h with
  | nil => exact ⟨trivial, fun _ _ hstored => by cases hstored⟩
  | cons e h ih =>
      obtain ⟨hread, hfits⟩ := ih hseq.tail hlawful.2.2
      obtain ⟨c, answer⟩ := e
      cases c with
      | storeSave t =>
          refine ⟨hread, ?_⟩
          intro taskId task hstored
          rw [stored_save] at hstored
          split at hstored
          · cases hstored
            exact hlawful.1 hread
          · exact hfits taskId task hstored
      | storeGet taskId =>
          have hfound := hseq.answer_storeGet
          refine ⟨?_, hfits⟩
          rcases answer with e | _ | task
          · exact hread
          · exact hread
          · exact ⟨hread, hfits taskId task (Except.ok.inj hfound).symm⟩
      | _ => exact ⟨hread, hfits⟩

/-- In every run each record is saved with a result that fits its status. -/
theorem saved_results_coherent (sup : Supervisor) (env : Env) (fuel : Nat) (ops : List Operation)
    (queue : TaskQueue) :
    ∀ task answer, ⟨.storeSave task, answer⟩ ∈ (sup.run env fuel ops (.initial queue)).history →
      Coherent task := by
  intro task answer hmem
  obtain ⟨later, earlier, hsplit⟩ := List.append_of_mem hmem
  have hseq := run_sequential sup env fuel ops queue
  have hlawful := run_coherence sup env fuel ops queue
  rw [hsplit] at hseq hlawful
  exact hlawful.allows_of_split (hseq.of_append.tail.coherent hlawful.of_append.2.2).1

/-- The record that an event saved. -/
def savedRecord : Event Call Answer → Option TaskRecord
  | ⟨.storeSave task, _⟩ => some task
  | _ => none

theorem exists_save {h : Trace} {task : TaskRecord} (hmem : task ∈ h.filterMap savedRecord) :
    ∃ answer, (⟨.storeSave task, answer⟩ : Event Call Answer) ∈ h := by
  obtain ⟨⟨c, answer⟩, hevent, hsaved⟩ := List.mem_filterMap.mp hmem
  cases c with
  | storeSave saved =>
      cases hsaved
      exact ⟨answer, hevent⟩
  | _ => cases hsaved

theorem saved_results_coherent_echo :
    ∃ task answer, (⟨.storeSave task, answer⟩ : Event Call Answer) ∈ echoRun.history ∧
      task.status = .completed ∧ Coherent task := by
  have hstatuses : ((echoRun.history.filterMap savedRecord).map (·.status)).head? =
      some .completed := by decide +kernel
  cases hsaved : echoRun.history.filterMap savedRecord with
  | nil => simp [hsaved] at hstatuses
  | cons task tasks =>
      rw [hsaved] at hstatuses
      obtain ⟨answer, hmem⟩ := exists_save (hsaved ▸ List.mem_cons_self : task ∈ _)
      exact ⟨task, answer, hmem, Option.some.inj hstatuses,
        saved_results_coherent (.unconfigured ["echo"]) .returning 1
          [.submit ⟨"say", "echo", [], [], 0, none⟩, .runNext] (.inMemory []) task answer hmem⟩

end Conductor
