/-
The guild knowledge base beside a `run_task` call.  A run that reports to the
knowledge base is compared with the run of the same supervisor without one:
they are alike up to the first report, and after it only if the report returns.
-/
import Conductor.Effects.Coupling
import Conductor.Supervisor.RetryLaw

namespace Conductor

open Effects Block

/-- The record without its timestamps. -/
def TaskRecord.timeless (task : TaskRecord) : TaskRecord :=
  { task with
    result := task.result.map fun result => { result with
      startedAt := result.startedAt.map fun _ => 0
      completedAt := result.completedAt.map fun _ => 0 }
    auditTrail := task.auditTrail.map fun entry => { entry with timestamp := 0 }
    createdAt := 0
    updatedAt := 0 }

/-- The saved records, the last one first. -/
def saves (h : Trace) : List TaskRecord :=
  h.filterMap fun e => match e.call with
    | .storeSave task => some task
    | _ => none

/-- The reports to the guild knowledge base that raised. -/
def failedReports (h : Trace) : Nat :=
  h.countP fun e => match e with
    | ⟨.publish _ _ _, .error _⟩ => true
    | ⟨.publishSuccess _ _, .error _⟩ => true
    | _ => false

theorem saves_append (new h : Trace) : saves (new ++ h) = saves new ++ saves h :=
  List.filterMap_append

theorem failedReports_append (new h : Trace) :
    failedReports (new ++ h) = failedReports new + failedReports h :=
  List.countP_append

/-- How a call ended and where it left the system. -/
abbrev Ended := Option (Except PyExc TaskRecord) × State

/-- How `run_task` ends, if the fuel suffices. -/
def Supervisor.runTaskOn (sup : Supervisor) (env : Env) (fuel : Nat) (taskId : TaskId)
    (k : State) : Ended :=
  let ran := (runTask sup fuel taskId).exec env.machine () k
  (ran.1.map Prod.fst, ran.2)

/-- Two calls that end the same way after the same writes and as many
executions, up to timestamps. -/
structure SameRun (r r' : Ended) : Prop where
  ended : r.1.map (·.map TaskRecord.timeless) = r'.1.map (·.map TaskRecord.timeless)
  saves : (saves r.2.history).map TaskRecord.timeless = (saves r'.2.history).map TaskRecord.timeless
  executions : (executions r.2.history).length = (executions r'.2.history).length

theorem SameRun.refl (r : Ended) : SameRun r r := ⟨rfl, rfl, rfl⟩

/-- The same supervisor without a guild knowledge base. -/
def Supervisor.alone (sup : Supervisor) : Supervisor := { sup with guildKnowledge := false }

/-- The calls are the same, or the first one had a report that raised. -/
def Compared (r r' : Ended) : Prop :=
  SameRun r r' ∧ failedReports r.2.history = failedReports r'.2.history ∨
    ¬ SameRun r r' ∧ failedReports r'.2.history < failedReports r.2.history

theorem Compared.refl (r : Ended) : Compared r r := .inl ⟨.refl r, rfl⟩

/-! ### Where the runs part -/

variable {sup : Supervisor} {env : Env} {α β : Type}

/-- The result of a block that works on a task. -/
abbrev TaskEnded (α : Type) := Block.Result Call Response PyExc TaskRecord α World

/-- A report has raised that the second result, left in `k'`, does not have; the
block has then raised or saved more. -/
structure Apart (r : TaskEnded α) (k' : State) : Prop where
  failed : failedReports k'.history < failedReports r.2.history
  saves : (saves k'.history).length ≤ (saves r.2.history).length
  more : (∃ e x, r.1 = some (.error e, x)) ∨
    (Conductor.saves k'.history).length < (Conductor.saves r.2.history).length

/-- What follows the block brings the results no closer. -/
theorem Apart.next {r : TaskEnded α} {k' : State} (hapart : Apart r k') (f : α → TaskBlock β) :
    Apart (r.next fun value => (f value).exec env.machine) k' := by
  obtain ⟨new, hnew⟩ := Result.next_history env.machine r f
  obtain ⟨hfailed, hsaves, hmore⟩ := hapart
  constructor
  · rw [hnew, failedReports_append]
    exact Nat.lt_add_left _ hfailed
  · rw [hnew, saves_append, List.length_append]
    exact Nat.le_add_left_of_le hsaves
  · rcases hmore with ⟨e, y, hraised⟩ | hgrown
    · left
      obtain ⟨ended, k⟩ := r
      cases hraised
      exact ⟨e, y, rfl⟩
    · right
      rw [hnew, saves_append, List.length_append]
      exact Nat.lt_add_left _ hgrown

/-- What a block that works on a task returns is the task. -/
def returned (r : TaskEnded α) : Ended := (r.1.map fun ended => ended.1.map fun _ => ended.2, r.2)

theorem Apart.compared {r : TaskEnded α} {k' : State} (hapart : Apart r k') (x : TaskRecord) :
    Compared (returned r) (some (.ok x), k') := by
  right
  constructor
  · intro hsame
    rcases hapart.more with ⟨e, y, hraised⟩ | hgrown
    · have hended := hsame.ended
      rw [returned, hraised] at hended
      cases hended
    · have hlength := congrArg List.length hsame.saves
      rw [List.length_map, List.length_map] at hlength
      exact absurd hlength hgrown.ne'
  · exact hapart.failed

/-- The first result is that of a block that may have reported.  Either there
was no report and the results are `good`; or a report has returned, which is the
last thing that a block does; or a report has raised, and the results are
`Apart`. -/
inductive Versus (good ends : α → Prop) : TaskEnded α → TaskEnded α → Prop
  | alike (r : TaskEnded α) (hgood : ∀ value x, r.1 = some (.ok value, x) → good value) :
      Versus good ends r r
  | reported (value : α) (x : TaskRecord) (k k' : State) (hends : ends value)
      (hsaves : saves k.history = saves k'.history)
      (hexecutions : executions k.history = executions k'.history)
      (hfailed : failedReports k.history = failedReports k'.history) :
      Versus good ends (some (.ok value, x), k) (some (.ok value, x), k')
  | apart (r : TaskEnded α) (value : α) (x : TaskRecord) (k' : State) (hends : ends value)
      (hapart : Apart r k') : Versus good ends r (some (.ok value, x), k')

namespace Versus

variable {good ends : α → Prop} {good' ends' : β → Prop} {m m' : TaskBlock α}
  {f f' : α → TaskBlock β}

theorem same
    (hgood : ∀ x k value x', (m.exec env.machine x k).1 = some (.ok value, x') → good value) :
    Coupled env.machine (Versus good ends) m m :=
  fun x k => .alike _ (hgood x k)

theorem pure {value : α} (hgood : good value) :
    Coupled env.machine (Versus good ends) (Pure.pure value) (Pure.pure value) := by
  apply same
  intro x k value' x' hvalue
  cases hvalue
  exact hgood

/-- Sequencing.  A block that ends with its report is followed by nothing. -/
theorem bind (hm : Coupled env.machine (Versus good ends) m m')
    (hf : ∀ value, good value → Coupled env.machine (Versus good' ends') (f value) (f' value))
    (hends : ∀ value, ends value → ∃ w, ends' w ∧ f value = Pure.pure w ∧ f' value = Pure.pure w) :
    Coupled env.machine (Versus good' ends') (m >>= f) (m' >>= f') := by
  intro x k
  rw [exec_bind, exec_bind]
  have hr := hm x k
  generalize m.exec env.machine x k = r at hr ⊢
  generalize m'.exec env.machine x k = r' at hr ⊢
  cases hr with
  | alike _ hgood =>
      rcases r with ⟨_ | ⟨e | value, x'⟩, k'⟩
      · exact .alike _ (by rintro _ _ ⟨⟩)
      · exact .alike _ (by rintro _ _ ⟨⟩)
      · exact hf value (hgood value x' rfl) x' k'
  | reported value x k k' hvalue hsaves hexecutions hfailed =>
      obtain ⟨w, hw, hpure, hpure'⟩ := hends value hvalue
      simp only [Result.next, hpure, hpure']
      exact .reported w x k k' hw hsaves hexecutions hfailed
  | apart _ value x k' hvalue hapart =>
      obtain ⟨w, hw, -, hpure'⟩ := hends value hvalue
      have hr' : (Result.next (some (.ok value, x), k') fun value => (f' value).exec env.machine) =
          (some (.ok w, x), k') := by
        simp only [Result.next, hpure']
        rfl
      rw [hr']
      exact .apart _ w x k' hw (hapart.next f)

theorem bind_same (hf : ∀ value, Coupled env.machine (Versus good' ends') (f value) (f' value)) :
    Coupled env.machine (Versus good' ends') (m >>= f) (m >>= f') := by
  have hm : Coupled env.machine (Versus (fun _ => True) fun _ => False) m m :=
    same fun _ _ _ _ _ => trivial
  exact bind hm (fun value _ => hf value) (fun _ h => h.elim)

end Versus

/-- A block that raises or saves something. -/
def Saving (env : Env) (m : TaskBlock α) : Prop :=
  ∀ x k, (∃ e y, (m.exec env.machine x k).1 = some (.error e, y)) ∨
    (saves k.history).length < (saves (m.exec env.machine x k).2.history).length

/-- A handler that raises or saves keeps the runs apart. -/
theorem Versus.tryExcept {good ends : α → Prop} {m m' : TaskBlock α}
    {handler handler' : PyExc → TaskBlock α} {catches : PyExc → Bool}
    (hm : Coupled env.machine (Versus good ends) m m')
    (hhandler : ∀ e, Coupled env.machine (Versus good ends) (handler e) (handler' e))
    (hsaving : ∀ e, Saving env (handler e)) :
    Coupled env.machine (Versus good ends) (Block.tryExcept catches m handler)
      (Block.tryExcept catches m' handler') := by
  intro x k
  rw [exec_tryExcept, exec_tryExcept]
  have hr := hm x k
  generalize m.exec env.machine x k = r at hr ⊢
  generalize m'.exec env.machine x k = r' at hr ⊢
  cases hr with
  | alike _ hgood =>
      rcases r with ⟨_ | ⟨e | value, x'⟩, k'⟩
      · exact .alike _ hgood
      · dsimp only
        split
        · exact hhandler e x' k'
        · exact .alike _ hgood
      · exact .alike _ hgood
  | reported value x k k' hvalue hsaves hexecutions hfailed =>
      exact .reported value x k k' hvalue hsaves hexecutions hfailed
  | apart _ value x k' hvalue hapart =>
      rcases r with ⟨_ | ⟨e | value', y⟩, k⟩
      · exact .apart _ value x k' hvalue hapart
      · dsimp only
        split
        · obtain ⟨new, hnew⟩ := exec_history env.machine (handler e) y k
          refine .apart _ value x k' hvalue ⟨?_, ?_, ?_⟩
          · rw [hnew, failedReports_append]
            exact Nat.lt_add_left _ hapart.failed
          · rw [hnew, saves_append, List.length_append]
            exact Nat.le_add_left_of_le hapart.saves
          · rcases hsaving e y k with hraised | hgrown
            · exact .inl hraised
            · exact .inr (Nat.lt_of_le_of_lt hapart.saves hgrown)
        · exact .apart _ value x k' hvalue hapart
      · exact .apart _ value x k' hvalue hapart

/-! ### The methods side by side -/

variable {capability : String} {controls : CapabilityExecutionControls} {startedAt : Time}
  {history : List FailureContext} {exc : PyExc}

/-- A report at the end of a block, against no report. -/
theorem versus_of_report {x : TaskRecord} {k k₁ : State} {answer : Except PyExc Unit}
    (hsaves : saves k₁.history = saves k.history)
    (hexecutions : executions k₁.history = executions k.history)
    (hfailed : failedReports k₁.history = failedReports k.history + if answer.isOk then 0 else 1) :
    Versus (fun _ => True) (fun _ => True) (some (answer, x), k₁) (some (.ok (), x), k) := by
  cases answer with
  | error e =>
      refine .apart _ () x k trivial ⟨?_, (congrArg List.length hsaves).ge, .inl ⟨e, x, rfl⟩⟩
      rw [hfailed]
      exact Nat.lt_succ_self _
  | ok reported => exact .reported () x k₁ k trivial hsaves hexecutions hfailed

theorem failedReports_publish {h : Trace} {hint : String} {failures : List FailureContext}
    (answer : Answer (.publish capability failures hint)) :
    failedReports (⟨.publish capability failures hint, answer⟩ :: h) =
      failedReports h + if answer.isOk then 0 else 1 := by
  rw [failedReports, failedReports, List.countP_cons]
  cases answer <;> rfl

theorem failedReports_publishSuccess {h : Trace} {input : Dict}
    (answer : Answer (.publishSuccess capability input)) :
    failedReports (⟨.publishSuccess capability input, answer⟩ :: h) =
      failedReports h + if answer.isOk then 0 else 1 := by
  rw [failedReports, failedReports, List.countP_cons]
  cases answer <;> rfl

theorem publishFailures_versus {hint : String} :
    Coupled env.machine (Versus (fun _ => True) (fun _ => True))
      (publishFailures sup history hint) (publishFailures sup.alone history hint) := by
  intro x k
  by_cases hguild : sup.guildKnowledge = true
  · unfold publishFailures
    rw [if_pos hguild]
    apply versus_of_report
    · rfl
    · rfl
    · exact failedReports_publish _
  · have hsame : publishFailures sup history hint = publishFailures sup.alone history hint := by
      unfold publishFailures
      rw [if_neg hguild]
      rfl
    rw [hsame]
    exact .alike _ fun _ _ _ => trivial

theorem doEscalate_versus {reason : Option String} :
    Coupled env.machine (Versus (fun _ => True) (fun _ => True))
      (doEscalate sup history startedAt exc reason)
      (doEscalate sup.alone history startedAt exc reason) := by
  unfold doEscalate
  refine Versus.bind_same fun escalatedAt => Versus.bind_same fun record =>
    Versus.bind_same fun error => Versus.bind_same fun _ => Versus.bind_same fun task =>
    Versus.bind_same fun _ => ?_
  exact publishFailures_versus

theorem attempt_versus :
    Coupled env.machine (Versus (fun _ => True) (fun _ => True))
      (attempt sup capability controls startedAt)
      (attempt sup.alone capability controls startedAt) := by
  unfold attempt
  refine Versus.bind_same fun task => Versus.bind_same fun payload =>
    Versus.bind_same fun result => Versus.bind_same fun completedAt =>
    Versus.bind_same fun _ => Versus.bind_same fun _ => ?_
  intro x k
  by_cases hguild : sup.guildKnowledge = true
  · rw [if_pos hguild]
    apply versus_of_report
    · rfl
    · rfl
    · exact failedReports_publishSuccess _
  · rw [if_neg hguild]
    exact .alike _ fun _ _ _ => trivial

/-- A failure is recorded, and its exception has a text, or the handler raises. -/
theorem recordFailure_exec (sup : Supervisor) (env : Env) (exc : PyExc) (x : TaskRecord)
    (k : State) :
    (∃ e y, ((recordFailure sup exc).exec env.machine x k).1 = some (.error e, y)) ∨
      exc.text.isSome = true ∧
        (saves k.history).length <
          (saves ((recordFailure sup exc).exec env.machine x k).2.history).length := by
  unfold recordFailure
  simp only [exec_bind, exec_object, exec_ofExcept, Result.next]
  cases inputFingerprint sup.sha256Hex x.input with
  | error e => exact .inl ⟨e, x, rfl⟩
  | ok fingerprint =>
      rw [PyExc.str]
      cases exc.text with
      | none => exact .inl ⟨_, x, rfl⟩
      | some text => exact .inr ⟨rfl, Nat.lt_succ_self _⟩

theorem handleFailure_saving :
    Saving env (handleFailure sup startedAt history exc) := by
  intro x k
  unfold handleFailure
  rw [exec_bind]
  rcases recordFailure_exec sup env exc x k with ⟨e, y, hraised⟩ | ⟨-, hsaved⟩
  · generalize (recordFailure sup exc).exec env.machine x k = r at hraised ⊢
    obtain ⟨ended, k'⟩ := r
    cases hraised
    exact .inl ⟨e, y, rfl⟩
  · obtain ⟨new, hnew⟩ := Result.next_history env.machine
      ((recordFailure sup exc).exec env.machine x k) _
    right
    rw [hnew, saves_append, List.length_append]
    exact Nat.lt_add_left _ hsaved

/-- What the handler leaves standing as `last_exc` has a text. -/
def Flow.Told (flow : Flow) : Prop :=
  ∀ exc history, flow = .stop (some exc) history → exc.text.isSome = true

/-- The loop is over and nothing stands. -/
def Flow.Over (flow : Flow) : Prop :=
  ∃ history, flow = .stop none history

theorem escalate_versus {reason : Option String} :
    Coupled env.machine (Versus Flow.Told Flow.Over)
      (do
        doEscalate sup history startedAt exc reason
        pure (.stop none history))
      (do
        doEscalate sup.alone history startedAt exc reason
        pure (.stop none history)) := by
  apply Versus.bind doEscalate_versus
  · intro _ _
    apply Versus.pure
    rintro exc history ⟨⟩
  · intro _ _
    exact ⟨_, ⟨history, rfl⟩, rfl, rfl⟩

theorem giveUp_versus {decision : RetryDecision} (htext : exc.text.isSome = true) :
    Coupled env.machine (Versus Flow.Told Flow.Over)
      (giveUp sup startedAt exc history decision)
      (giveUp sup.alone startedAt exc history decision) := by
  unfold giveUp
  refine Versus.bind_same fun escalate => ?_
  by_cases hescalate : escalate = true
  · rw [if_pos hescalate, if_pos hescalate]
    exact escalate_versus
  · rw [if_neg hescalate, if_neg hescalate]
    apply Versus.pure
    rintro _ _ ⟨⟩
    exact htext

theorem retry_versus {decision : RetryDecision} :
    Coupled env.machine (Versus Flow.Told Flow.Over)
      (retry sup startedAt exc history decision)
      (retry sup.alone startedAt exc history decision) := by
  unfold retry
  refine Versus.bind_same fun _ => Versus.bind_same fun escalate => ?_
  by_cases hescalate : escalate = true
  · rw [if_pos hescalate, if_pos hescalate]
    exact escalate_versus
  · rw [if_neg hescalate, if_neg hescalate]
    refine Versus.bind_same fun task => Versus.bind_same fun error =>
      Versus.bind_same fun _ => Versus.bind_same fun _ => Versus.bind_same fun _ =>
      Versus.bind_same fun _ => ?_
    apply Versus.pure
    rintro _ _ ⟨⟩

theorem handleFailure_versus :
    Coupled env.machine (Versus Flow.Told Flow.Over)
      (handleFailure sup startedAt history exc)
      (handleFailure sup.alone startedAt history exc) := by
  have hrecorded : Coupled env.machine
      (Versus (fun _ => exc.text.isSome = true) fun _ => False)
      (recordFailure sup exc) (recordFailure sup.alone exc) := by
    apply Versus.same
    intro x k failure y hreturned
    rcases recordFailure_exec sup env exc x k with ⟨e, z, hraised⟩ | ⟨htext, -⟩
    · rw [hreturned] at hraised
      cases hraised
    · exact htext
  unfold handleFailure
  refine Versus.bind hrecorded (fun failure htext => ?_) (fun _ hends => hends.elim)
  refine Versus.bind_same fun task => Versus.bind_same fun decision => ?_
  by_cases hretry : decision.shouldRetry = true
  · rw [if_pos hretry, if_pos hretry]
    exact retry_versus
  · rw [if_neg hretry, if_neg hretry]
    exact giveUp_versus htext

theorem attemptRound_versus :
    Coupled env.machine (Versus Flow.Told Flow.Over)
      (attemptRound sup capability controls startedAt history)
      (attemptRound sup.alone capability controls startedAt history) := by
  unfold attemptRound
  apply Versus.tryExcept
  · apply Versus.bind attempt_versus
    · intro _ _
      apply Versus.pure
      rintro exc history ⟨⟩
    · intro _ _
      exact ⟨_, ⟨history, rfl⟩, rfl, rfl⟩
  · intro exc
    exact handleFailure_versus
  · intro exc
    exact handleFailure_saving

/-- The loop keeps its two runs together until the first report. -/
theorem attemptLoop_versus (fuel : Nat) :
    Coupled env.machine
      (Versus (fun ended => ∀ exc, ended.1 = some exc → exc.text.isSome = true)
        fun ended => ended.1 = none)
      (attemptLoop sup capability controls startedAt fuel history)
      (attemptLoop sup.alone capability controls startedAt fuel history) := by
  induction fuel generalizing history with
  | zero =>
      apply Versus.same
      rintro _ _ _ _ ⟨⟩
  | succ fuel ih =>
      unfold attemptLoop
      apply Versus.bind attemptRound_versus
      · intro flow htold
        cases flow with
        | stop lastExc history =>
            apply Versus.pure
            intro exc hexc
            exact htold exc history (congrArg (Flow.stop · history) hexc)
        | again history => exact ih
      · rintro _ ⟨history, rfl⟩
        exact ⟨(none, history), rfl, rfl, rfl⟩

/-! ### The whole call -/

/-- The bus raises nothing that `except Exception` does not catch. -/
def Env.BusContained (env : Env) : Prop :=
  ∀ h event e, env.emit h event = .error e → e.isException = true

/-- An event is emitted, and the bus's answer forgotten. -/
theorem emitEvent_returns (hbus : env.BusContained) (x : TaskRecord) (k : State)
    (eventType : EventType) (error : Option String) (metadata : Dict) :
    (emitEvent eventType error metadata).exec env.machine x k =
      (some (.ok (), x), (env.machine.step (env.machine.step k .now).2
        (.emit x (taskEvent x eventType (env.now k.history) error metadata))).2) := by
  let k₁ := (env.machine.step k .now).2
  let event := taskEvent x eventType (env.now k.history) error metadata
  have hemit : (do
      let timestamp ← now
      let task ← object
      ask (.emit task (taskEvent task eventType timestamp error metadata)) :
        TaskBlock Unit).exec env.machine x k =
      (some (env.emit k₁.history event, x), (env.machine.step k₁ (.emit x event)).2) := rfl
  unfold emitEvent
  rw [exec_tryExcept, hemit]
  cases hanswer : env.emit k₁.history event with
  | ok emitted => rfl
  | error e =>
      dsimp only
      rw [if_pos (hbus _ _ e hanswer)]
      rfl

theorem emitEvent_exec (hbus : env.BusContained) (x : TaskRecord) (k : State)
    (eventType : EventType) (error : Option String) (metadata : Dict) :
    ∃ k', (emitEvent eventType error metadata).exec env.machine x k = (some (.ok (), x), k') ∧
      saves k'.history = saves k.history ∧ executions k'.history = executions k.history ∧
        failedReports k'.history = failedReports k.history :=
  ⟨_, emitEvent_returns hbus x k eventType error metadata, rfl, rfl, rfl⟩

/-- The record that fails with a text, without its timestamps. -/
def TaskRecord.failedWith (x : TaskRecord) (text : String) (startedAt failedAt : Time) :
    TaskRecord :=
  { x with
    result := some ⟨false, .none, some text, [], some startedAt, some failedAt⟩ }.transitioned
      .failed "supervisor" "failed" [("attempt", .int x.attempt)] failedAt

/-- The statements after the loop, apart from the report: they end the task as
failed wherever they are run. -/
theorem failTask_exec (sup : Supervisor) (history : List FailureContext) (startedAt : Time)
    (hbus : env.BusContained) {text : String} (htext : exc.text = some text) (x : TaskRecord)
    (k : State) :
    ∃ failedAt k', (failTask sup.alone history startedAt exc).exec env.machine x k =
        (some (.ok (), x.failedWith text startedAt failedAt), k') ∧
      saves k'.history = x.failedWith text startedAt failedAt :: saves k.history ∧
      executions k'.history = executions k.history ∧
      failedReports k'.history = failedReports k.history := by
  let failedAt := env.now k.history
  let y := x.failedWith text startedAt failedAt
  let k₁ := (env.machine.step k .now).2
  obtain ⟨k', hemit, hsaves, hexecutions, hfailed⟩ := emitEvent_exec hbus y
    (env.machine.step k₁ (.storeSave y)).2 .taskFailed (some text) [("attempt", .int x.attempt)]
  refine ⟨failedAt, k', ?_, hsaves, hexecutions, hfailed⟩
  rw [← hemit]
  unfold failTask
  rw [PyExc.str, htext]
  rfl

theorem TaskRecord.timeless_failedWith (x : TaskRecord) (text : String)
    (startedAt failedAt failedAt' : Time) :
    (x.failedWith text startedAt failedAt).timeless =
      (x.failedWith text startedAt failedAt').timeless := by
  simp [failedWith, transitioned, timeless]

/-- With a knowledge base the statements after the loop report first. -/
theorem failTask_reports (env : Env) (history : List FailureContext) (startedAt : Time)
    (exc : PyExc) (hguild : sup.guildKnowledge = true) (x : TaskRecord) (k : State) :
    ∃ answer : Except PyExc Unit, ∃ k₁ : State,
      (failTask sup history startedAt exc).exec env.machine x k =
        (Result.next (some (answer, x), k₁) fun _ =>
          (failTask sup.alone history startedAt exc).exec env.machine) ∧
      saves k₁.history = saves k.history ∧ executions k₁.history = executions k.history ∧
      failedReports k₁.history = failedReports k.history + if answer.isOk then 0 else 1 := by
  let report : Call := .publish x.capability history "All retries exhausted — task failed"
  let answer := env.publish k.history x.capability history "All retries exhausted — task failed"
  refine ⟨answer, ⟨⟨report, answer⟩ :: k.history, k.state⟩, ?_, rfl, rfl,
    failedReports_publish answer⟩
  unfold failTask
  rw [exec_bind, publishFailures, if_pos hguild]
  rfl

theorem failTask_compared (hbus : env.BusContained) (htext : exc.text.isSome = true)
    (x : TaskRecord) (k : State) :
    Compared (returned ((failTask sup history startedAt exc).exec env.machine x k))
      (returned ((failTask sup.alone history startedAt exc).exec env.machine x k)) := by
  by_cases hguild : sup.guildKnowledge = true
  · obtain ⟨text, htext⟩ := Option.isSome_iff_exists.mp htext
    have hends := failTask_exec sup history startedAt hbus htext x
    obtain ⟨failedAt, k', halone, hsaves, hexecutions, hfailed⟩ := hends k
    obtain ⟨answer, k₁, hreport, hsaves₁, hexecutions₁, hcounted⟩ :=
      failTask_reports env history startedAt exc hguild x k
    rw [hreport, halone]
    cases answer with
    | error e =>
        right
        constructor
        · intro hsame
          cases hsame.ended
        · change failedReports k'.history < failedReports k₁.history
          rw [hfailed, hcounted]
          exact Nat.lt_succ_self _
    | ok reported =>
        obtain ⟨failedAt', k₂, hreported, hsaves', hexecutions', hfailed'⟩ := hends k₁
        simp only [Result.next]
        rw [hreported]
        have htimeless := x.timeless_failedWith text startedAt failedAt' failedAt
        left
        constructor
        · constructor
          · exact congrArg (some ∘ Except.ok) htimeless
          · change (saves k₂.history).map _ = (saves k'.history).map _
            rw [hsaves, hsaves', hsaves₁, List.map_cons, List.map_cons, htimeless]
          · change (executions k₂.history).length = (executions k'.history).length
            rw [hexecutions, hexecutions', hexecutions₁]
        · change failedReports k₂.history = failedReports k'.history
          rw [hfailed, hfailed', hcounted]
          rfl
  · have hsame : failTask sup history startedAt exc = failTask sup.alone history startedAt exc := by
      unfold failTask publishFailures
      rw [if_neg hguild]
      rfl
    rw [hsame]
    exact .refl _

theorem runAttempts_compared {fuel : Nat} (hbus : env.BusContained) (x : TaskRecord) (k : State) :
    Compared
      (returned ((runAttempts sup fuel capability controls startedAt).exec env.machine x k))
      (returned
        ((runAttempts sup.alone fuel capability controls startedAt).exec env.machine x k)) := by
  unfold runAttempts
  rw [exec_bind, exec_bind]
  have hloop : Versus _ _
      ((attemptLoop sup capability controls startedAt fuel []).exec env.machine x k)
      ((attemptLoop sup.alone capability controls startedAt fuel []).exec env.machine x k) :=
    attemptLoop_versus fuel x k
  generalize (attemptLoop sup capability controls startedAt fuel []).exec env.machine x k = r
    at hloop ⊢
  generalize (attemptLoop sup.alone capability controls startedAt fuel []).exec env.machine x k = r'
    at hloop ⊢
  cases hloop with
  | alike _ hgood =>
      rcases r with ⟨_ | ⟨e | ⟨lastExc, history⟩, x'⟩, k'⟩
      · exact .refl _
      · exact .refl _
      · cases lastExc with
        | none => exact .refl _
        | some exc => exact failTask_compared hbus (hgood _ x' rfl exc rfl) x' k'
  | reported ended x k k' hends hsaves hexecutions hfailed =>
      obtain ⟨lastExc, history⟩ := ended
      cases hends
      exact .inl ⟨⟨rfl, congrArg (List.map _) hsaves, congrArg List.length hexecutions⟩, hfailed⟩
  | apart _ ended x k' hends hapart =>
      obtain ⟨lastExc, history⟩ := ended
      cases hends
      exact (hapart.next _).compared x

theorem executeTask_compared {fuel : Nat} (hbus : env.BusContained) :
    Coupled env.machine (fun r r' => Compared (returned r) (returned r'))
      (executeTask sup fuel capability) (executeTask sup.alone fuel capability) := by
  unfold executeTask
  refine Coupled.bind_same (fun _ => .refl _) fun _ =>
    Coupled.bind_same (fun _ => .refl _) fun started => ?_
  exact runAttempts_compared hbus

theorem runLoadedTask_compared {fuel : Nat} (hbus : env.BusContained) :
    Coupled env.machine (fun r r' => Compared (returned r) (returned r'))
      (runLoadedTask sup fuel) (runLoadedTask sup.alone fuel) := by
  unfold runLoadedTask
  refine Coupled.bind_same (fun _ => .refl _) fun task => ?_
  by_cases hpending : task.status = .pending
  · rw [if_pos hpending, if_pos hpending]
    refine Coupled.bind_same (fun _ => .refl _) fun capability =>
      Coupled.bind_same (fun _ => .refl _) fun _ =>
      Coupled.bind_same (fun _ => .refl _) fun gated => ?_
    split
    · exact executeTask_compared hbus
    · exact fun _ _ => .refl _
  · rw [if_neg hpending, if_neg hpending]
    split
    · refine Coupled.bind_same (fun _ => .refl _) fun capability => ?_
      exact executeTask_compared hbus
    · exact fun _ _ => .refl _

theorem runTask_compared {fuel : Nat} {taskId : TaskId} (hbus : env.BusContained) (k : State) :
    Compared (sup.runTaskOn env fuel taskId k) (sup.alone.runTaskOn env fuel taskId k) := by
  have hcoupled : Coupled env.machine
      (fun r r' => Compared (r.1.map Prod.fst, r.2) (r'.1.map Prod.fst, r'.2))
      (runTask sup fuel taskId) (runTask sup.alone fuel taskId) := by
    unfold runTask
    refine Coupled.bind_same (fun _ => .refl _) fun _ =>
      Coupled.bind_same (fun _ => .refl _) fun task => ?_
    intro x k
    rw [exec_bind, exec_bind, exec_on, exec_on]
    have hran : Compared (returned ((runLoadedTask sup fuel).exec env.machine task k))
        (returned ((runLoadedTask sup.alone fuel).exec env.machine task k)) :=
      runLoadedTask_compared hbus task k
    generalize (runLoadedTask sup fuel).exec env.machine task k = r at hran ⊢
    generalize (runLoadedTask sup.alone fuel).exec env.machine task k = r' at hran ⊢
    rcases r with ⟨_ | ⟨_ | _, _⟩, _⟩ <;> rcases r' with ⟨_ | ⟨_ | _, _⟩, _⟩ <;> exact hran
  exact hcoupled () k

/-- Without a knowledge base nothing is reported. -/
theorem alone_reports_nothing {fuel : Nat} {taskId : TaskId} {k : State}
    (hkeyed : k.state.store.Keyed) :
    failedReports (sup.alone.runTaskOn env fuel taskId k).2.history = failedReports k.history := by
  have hdisciplined : ((runTask sup.alone fuel taskId).run ()).wp (discipline false).logic
      (fun ended d' => onReturn (fun t _ d' => Reached (desk k.history) t d') ended.1 ended.2 d')
      ((discipline false).view k.history) := by
    rw [view_discipline]
    exact (runTask_spec : (runTask sup.alone fuel taskId).wp (L sup.alone) _ () _)
  obtain ⟨new, hnew, hallowed⟩ := Prog.exec_allows (M := env.machine)
    (I := fun k => k.state.store.Keyed) (fun k c => keyed_step env k c)
    (fun k c hk => sound_of_keyed env hk c) hkeyed hdisciplined
  have hnone : failedReports new = 0 := by
    apply List.countP_eq_zero.mpr
    rintro ⟨c, answer⟩ hmem
    obtain ⟨d, hpermitted⟩ := hallowed _ hmem
    cases c with
    | publish | publishSuccess => cases hpermitted
    | _ => exact Bool.false_ne_true
  change failedReports ((runTask sup.alone fuel taskId).run () |>.exec env.machine k).2.history = _
  rw [hnew, failedReports_append, hnone, Nat.zero_add]

/-- Without a knowledge base the call ends, with fuel for its attempts. -/
theorem alone_ends {strategy : RetryStrategy Trace} {policy : Option ThresholdEscalationPolicy}
    (hsetup : Setup.Configures ⟨strategy, policy, false⟩ sup env)
    (huninterrupted : env.Uninterrupted) {k : State} (hkeyed : k.state.store.Keyed)
    {taskId : TaskId} {fuel : Nat}
    (hfuel : ∀ task, k.state.store.get taskId = some task → attemptBudget task ≤ fuel) :
    (sup.alone.runTaskOn env fuel taskId k).1.isSome = true := by
  by_cases hfresh : ∃ task, k.state.store.get taskId = some task ∧ task.status.attempted = false
  · obtain ⟨task, hstored, hstatus⟩ := hfresh
    have halone : Setup.Configures ⟨strategy, policy, false⟩ sup.alone env :=
      ⟨hsetup.decide, hsetup.escalationPolicy, hsetup.shouldEscalate, hsetup.buildRecord⟩
    obtain ⟨outcome, x, k', hexec, -⟩ := runTask_ends halone huninterrupted
      (fun h => by cases h) (fun h => by cases h) hkeyed hstored hstatus (hfuel task hstored)
    simp only [Supervisor.runTaskOn, exec, hexec]
    rfl
  · -- There is no task to start: it is not found, or it was started before.
    let k₁ := (env.machine.step k (.runTaskEntered taskId)).2
    have hfound : env.machine.step k₁ (.storeGet taskId) =
        (.ok (k.state.store.get taskId), (env.machine.step k₁ (.storeGet taskId)).2) := rfl
    have hreturns : (runTask sup.alone fuel taskId).wp (env.machine.logic fun _ => False)
        (fun _ _ _ => True) () k := by
      simp only [runTask, getTask, wp_bind, wp_ask, wp_on]
      apply Machine.call_of_step (rfl : env.machine.step k (.runTaskEntered taskId) = (.ok (), k₁))
      apply Machine.call_of_step hfound
      cases hstored : k.state.store.get taskId with
      | none => trivial
      | some task =>
          have hnot : ¬ Executable task := fun hexecutable =>
            hfresh ⟨task, hstored, hexecutable.not_attempted⟩
          obtain ⟨hpending, happroved⟩ := not_or.mp hnot
          simp only [wp_pure, runLoadedTask, wp_bind, wp_object, if_neg hpending, if_neg happroved]
    obtain ⟨ended, k', hexec, -⟩ := Machine.exec_of_wp hreturns
    simp only [Supervisor.runTaskOn, exec, hexec]
    rfl

/-- With a knowledge base `run_task` saves, executes and ends as without one
exactly if none of its reports raises. -/
theorem guild_same_run_iff (sup : Supervisor) (env : Env) (k : State) (taskId : TaskId)
    (fuel : Nat) (hbus : env.BusContained) (hkeyed : k.state.store.Keyed) :
    (SameRun (sup.runTaskOn env fuel taskId k) (sup.alone.runTaskOn env fuel taskId k) ↔
        failedReports (sup.runTaskOn env fuel taskId k).2.history = failedReports k.history) ∧
      ∀ strategy policy, Setup.Configures ⟨strategy, policy, false⟩ sup env → env.Uninterrupted →
        (∀ task, k.state.store.get taskId = some task → attemptBudget task ≤ fuel) →
          (sup.alone.runTaskOn env fuel taskId k).1.isSome = true := by
  constructor
  · have hcompared : Compared (sup.runTaskOn env fuel taskId k)
        (sup.alone.runTaskOn env fuel taskId k) := runTask_compared hbus k
    have hnone : failedReports (sup.alone.runTaskOn env fuel taskId k).2.history =
        failedReports k.history := alone_reports_nothing hkeyed
    rcases hcompared with ⟨hsame, hreports⟩ | ⟨hdiffer, hreports⟩
    · exact iff_of_true hsame (hreports.trans hnone)
    · rw [hnone] at hreports
      exact iff_of_false hdiffer hreports.ne'
  · intro strategy policy hsetup huninterrupted hfuel
    exact alone_ends hsetup huninterrupted hkeyed hfuel

/-- A supervisor with a knowledge base. -/
def Supervisor.reporting : Supervisor :=
  { Supervisor.unconfigured ["echo"] with guildKnowledge := true }

theorem guild_same_run_iff_returning :
    (SameRun (Supervisor.reporting.runTaskOn .returning 2 "t" retriedOnce)
          (Supervisor.reporting.alone.runTaskOn .returning 2 "t" retriedOnce) ↔
        failedReports (Supervisor.reporting.runTaskOn .returning 2 "t" retriedOnce).2.history = 0) ∧
      ∀ strategy policy, Setup.Configures ⟨strategy, policy, false⟩ .reporting .returning →
        Env.returning.Uninterrupted →
          (∀ task, retriedOnce.state.store.get "t" = some task → attemptBudget task ≤ 2) →
            (Supervisor.reporting.alone.runTaskOn .returning 2 "t" retriedOnce).1.isSome = true :=
  guild_same_run_iff .reporting .returning retriedOnce "t" 2 (fun _ _ _ h => by cases h)
    (worldWith_keyed _)

/-- Collaborators of which the knowledge base cannot write to its store. -/
def Env.fullDisk : Env :=
  { Env.returning with
    publishSuccess := fun _ _ _ => .error (.exception "OSError" "No space left on device") }

/-- The completed task is executed once more and then stored as failed. -/
theorem full_disk_reruns :
    ¬ SameRun (Supervisor.reporting.runTaskOn .fullDisk 2 "t" retriedOnce)
        (Supervisor.reporting.alone.runTaskOn .fullDisk 2 "t" retriedOnce) ∧
      (saves (Supervisor.reporting.runTaskOn .fullDisk 2 "t" retriedOnce).2.history).map
        (·.status) = [.failed, .completed, .completed, .completed, .completed, .completed,
          .running, .pending] := by
  have htwice : (executions (Supervisor.reporting.runTaskOn .fullDisk 2 "t"
      retriedOnce).2.history).length = 2 := by decide +kernel
  have honce : (executions (Supervisor.reporting.alone.runTaskOn .fullDisk 2 "t"
      retriedOnce).2.history).length = 1 := by decide +kernel
  constructor
  · intro hsame
    have hexecutions := hsame.executions
    rw [htwice, honce] at hexecutions
    cases hexecutions
  · decide +kernel

end Conductor
