/-
How `run_task` ends.  One specification for each method, from the clock up to
the whole call: an attempt leaves the task as it was or completed, a round of
the loop that is not the last one uses up one attempt of the budget, and the
loop ends within the budget.
-/
import Conductor.Supervisor.Progress

namespace Conductor

open Effects Block

variable {σ α : Type} {p q : Progress} {task x : TaskRecord} {setup : Setup}
  {sup : Supervisor}

/-! ### Leaf calls -/

/-- The logic of the attempts, for programs that end. -/
abbrev T (setup : Setup) (sup : Supervisor) : Logic Progress Call Answer :=
  (setup.monitor sup.guildKnowledge).totalLogic

theorem monotone_T : (T setup sup).Monotone :=
  (setup.monitor sup.guildKnowledge).totalLogic_monotone

theorem call_T (c : Call) (post : Answer c → Progress → Prop) :
    (T setup sup).call p c post =
      ∀ answer, setup.Answers sup.guildKnowledge c answer → post answer (p.after c answer) := by
  change (True ∧ ∀ answer, setup.Answers sup.guildKnowledge c answer → _) = _
  simp only [true_and]
  rfl

theorem wp_now_T {x : σ} (post : Except PyExc Time → σ → Progress → Prop) :
    (now : Block Call Response PyExc σ Time).wp (T setup sup) post x p =
      ∀ ts, post (.ok ts) x p := by
  simp only [now, wp_ask, call_T, Setup.Answers, Progress.after, eq_iff_iff]
  constructor
  · intro h ts
    exact h (.ok ts) ⟨ts, rfl⟩
  · rintro h answer ⟨ts, rfl⟩
    exact h ts

theorem wp_storeSave_T {x : σ}
    (post : Except PyExc (Response (.storeSave task)) → σ → Progress → Prop) :
    @Block.wp Call Response PyExc σ (no_index (Response (.storeSave task))) Progress (T setup sup)
        (ask (.storeSave task)) post x p = post (.ok ()) x (p.wrote task) := by
  simp only [wp_ask, call_T, Setup.Answers, Progress.after, eq_iff_iff]
  constructor
  · exact fun h => h (.ok ()) rfl
  · rintro h answer rfl
    exact h

/-- The progress that an event announces. -/
def Progress.announced (p : Progress) (eventType : EventType) : Progress :=
  if eventType = .taskStarted then p.started else p

theorem wp_emitEvent_T {post : Except PyExc Unit → TaskRecord → Progress → Prop}
    {eventType : EventType} {error : Option String} {metadata : Dict}
    (hpost : post (.ok ()) task (p.announced eventType)) :
    (emitEvent eventType error metadata).wp (T setup sup) post task p := by
  simp only [emitEvent, wp_tryExcept, wp_bind, wp_now_T, wp_object, wp_ask, call_T]
  intro ts answer hanswer
  have hannounced (ts : Time) : p.after (.emit task (taskEvent task eventType ts error metadata))
      answer = p.announced eventType := rfl
  rw [hannounced]
  cases answer with
  | ok value => exact hpost
  | error e =>
      have hcaught : e.isException = true := hanswer e rfl
      simp only [hcaught, if_true]
      exact hpost

theorem wp_transitionStatus_T {post : Except PyExc Unit → TaskRecord → Progress → Prop}
    {toStatus : TaskStatus} {actor action : String} {eventType : EventType} {metadata : Dict}
    {error : Option String} {timestamp : Option Time}
    (hpost : ∀ ts, post (.ok ()) (task.transitioned toStatus actor action metadata ts)
      ((p.wrote (task.transitioned toStatus actor action metadata ts)).announced eventType)) :
    (transitionStatus toStatus actor action eventType metadata error timestamp).wp
      (T setup sup) post task p := by
  cases timestamp with
  | some ts =>
      simp only [transitionStatus, appendAudit, saveTask, timestampOrNow, wp_bind, wp_pure,
        wp_object, wp_mutate, wp_storeSave_T]
      exact wp_emitEvent_T (hpost ts)
  | none =>
      simp only [transitionStatus, appendAudit, saveTask, timestampOrNow, wp_bind, wp_now_T,
        wp_pure, wp_object, wp_mutate, wp_storeSave_T]
      intro ts
      exact wp_emitEvent_T (hpost ts)

theorem wp_appendAudit_T {post : Except PyExc Unit → TaskRecord → Progress → Prop}
    {actor action : String} {fromStatus toStatus : Option TaskStatus} {metadata : Dict} :
    (appendAudit actor action fromStatus toStatus metadata none).wp (T setup sup) post task p =
      ∀ ts, post (.ok ()) { task with auditTrail := task.auditTrail ++
        [⟨ts, actor, action, fromStatus, toStatus, metadata⟩] } p := by
  simp only [appendAudit, timestampOrNow, wp_bind, wp_now_T, wp_mutate]

theorem wp_saveTask_T {post : Except PyExc Unit → TaskRecord → Progress → Prop} :
    (saveTask none).wp (T setup sup) post task p =
      ∀ ts, post (.ok ()) { task with updatedAt := ts }
        (p.wrote { task with updatedAt := ts }) := by
  simp only [saveTask, timestampOrNow, wp_bind, wp_now_T, wp_mutate, wp_object, wp_storeSave_T]

@[simp] theorem TaskRecord.failures_transitioned (task : TaskRecord) (toStatus : TaskStatus)
    (actor action : String) (metadata : Dict) (ts : Time) :
    (task.transitioned toStatus actor action metadata ts).failures =
      task.failures + if action = "failure_recorded" then 1 else 0 := by
  simp [failures, transitioned, List.countP_singleton]

@[simp] theorem TaskRecord.failures_noted (task : TaskRecord) (entry : AuditEntry)
    (saved : Time) :
    (task.noted entry saved).failures =
      task.failures + if entry.action = "failure_recorded" then 1 else 0 := by
  simp [failures, noted, List.countP_singleton]

/-- The task is about to be tried, after the failures of the history. -/
structure Trying (setup : Setup) (task : TaskRecord) (history : List FailureContext)
    (x : TaskRecord) (p : Progress) : Prop where
  taskId : x.taskId = task.taskId
  status : x.status = .running
  maxRetries : x.maxRetries = task.maxRetries
  attempt : x.attempt = task.attempt + history.length + 1
  failures : x.failures = task.failures + history.length
  retries : setup.Retries task history.length
  progress : p = ⟨some x, some (List.replicate history.length false), true⟩

/-- The task has failed once more after `n` failures, and the failure is
recorded. -/
structure Failing (setup : Setup) (task : TaskRecord) (n : Nat) (x : TaskRecord)
    (p : Progress) : Prop where
  taskId : x.taskId = task.taskId
  status : x.status = .running
  maxRetries : x.maxRetries = task.maxRetries
  attempt : x.attempt = task.attempt + n + 1
  failures : x.failures = task.failures + (n + 1)
  retries : setup.Retries task n
  progress : p = ⟨some x, some (List.replicate (n + 1) false), true⟩

theorem Trying.stuck {history : List FailureContext} {guild : Bool}
    (htrying : Trying setup task history x p) (e : PyExc) :
    Ending setup guild task (.error e) x p.stuck := by
  rw [htrying.progress]
  exact .stuck e x x _ _ htrying.taskId htrying.status (.inl rfl)

theorem Failing.stuck {n : Nat} {guild : Bool} (hfailing : Failing setup task n x p) (e : PyExc) :
    Ending setup guild task (.error e) x p.stuck := by
  rw [hfailing.progress]
  exact .stuck e x x _ _ hfailing.taskId hfailing.status (.inl rfl)

/-- The failure is neither retried nor escalated. -/
structure GivenUp (setup : Setup) (task : TaskRecord) (exc : PyExc) (n : Nat) (x : TaskRecord)
    (p : Progress) : Prop where
  failing : Failing setup task n x p
  budget : attemptBudget task = n + 1
  escalates : ¬ setup.Escalates (task.attempt + n + 1)
  triggers : ¬ setup.Triggers (n + 1)
  text : exc.text.isSome

/-- How a round of the loop can end after `n` failures. -/
def RoundEnds (setup : Setup) (guild : Bool) (task : TaskRecord) (n : Nat) :
    Except PyExc Flow → TaskRecord → Progress → Prop
  | .ok (.stop none _), x, p => Ending setup guild task (.ok ()) x p
  | .ok (.stop (some exc) _), x, p => ∃ n, GivenUp setup task exc n x p
  | .ok (.again history), x, p => history.length = n + 1 ∧ Trying setup task history x p
  | .error e, x, p => Ending setup guild task (.error e) x p

/-- How the loop can end. -/
def LoopEnds (setup : Setup) (guild : Bool) (task : TaskRecord) :
    Except PyExc (Option PyExc × List FailureContext) → TaskRecord → Progress → Prop
  | .ok (none, _), x, p => Ending setup guild task (.ok ()) x p
  | .ok (some exc, _), x, p => ∃ n, GivenUp setup task exc n x p
  | .error e, x, p => Ending setup guild task (.error e) x p

variable {capability : String} {controls : CapabilityExecutionControls} {startedAt : Time}
  {history : List FailureContext} {exc : PyExc} {n : Nat}

/-- An attempt completes the task, or fails and leaves it as it was. -/
theorem attempt_ends (htrying : Trying setup task history x p) :
    (attempt sup capability controls startedAt).wp (T setup sup)
      (fun outcome y q => match outcome with
        | .ok _ => Ending setup sup.guildKnowledge task (.ok ()) y q
        | .error e => e.isException = true ∧ y = x ∧ q = p.failed x.input e) x p := by
  simp only [attempt, wp_bind, wp_object, wp_ask, call_T, wp_now_T, wp_mutate]
  rintro (e | payload) hvalidated
  · exact ⟨hvalidated e rfl, trivial, rfl⟩
  rintro (e | result) hexecuted
  · exact ⟨hexecuted e rfl, trivial, rfl⟩
  intro completedAt
  apply wp_transitionStatus_T
  intro ts
  have hcompleted : ∀ t : TaskRecord, t = { x with result := some ⟨true, result.output, none,
      result.metadata, some startedAt, some completedAt⟩ }.transitioned .completed "supervisor"
      "completed" [("attempt", .int x.attempt)] ts →
      Ending setup sup.guildKnowledge task (.ok ()) t (p.succeeded.wrote t) := by
    rintro t rfl
    rw [htrying.progress]
    refine .completed _ history.length htrying.taskId htrying.retries rfl htrying.attempt ?_
    rw [TaskRecord.failures_transitioned]
    exact htrying.failures
  dsimp only
  split
  · rename_i hguild
    simp only [wp_bind, wp_object, wp_ask, call_T]
    intro answer hanswer
    rw [hanswer hguild]
    exact hcompleted _ rfl
  · exact hcompleted _ rfl

/-! ### A failed attempt -/

theorem manageable_iff {input : Dict} :
    manageable input exc = true ↔ JsonSerialisable input ∧ exc.text.isSome := by
  simp only [manageable, JsonSerialisable, Bool.and_eq_true]
  cases jsonDumps (.dict input) with
  | error e => simp [Except.isOk, Except.toBool]
  | ok text => simp [Except.isOk, Except.toBool]

/-- The progress after a failed attempt. -/
theorem Trying.failed (htrying : Trying setup task history x p) :
    p.failed x.input exc =
      ⟨some x, some (List.replicate (history.length + 1) false), manageable x.input exc⟩ := by
  rw [htrying.progress]
  simp [Progress.failed, List.replicate_succ]

/-- Recording a failure raises only if the failure is not manageable. -/
theorem recordFailure_ends (htrying : Trying setup task history x p) :
    (recordFailure sup exc).wp (T setup sup)
      (fun outcome y q => match outcome with
        | .ok failure => failure.attempt = task.attempt + history.length + 1 ∧
            failure.maxRetries = task.maxRetries ∧ exc.text.isSome ∧
            Failing setup task history.length y q
        | .error _ => manageable x.input exc = false ∧ q = p.failed x.input exc)
      x (p.failed x.input exc) := by
  simp only [recordFailure, wp_bind, wp_object, wp_ofExcept]
  cases hprint : inputFingerprint sup.sha256Hex x.input with
  | error e =>
      refine ⟨?_, trivial⟩
      by_contra hmanageable
      obtain ⟨hinput, -⟩ := manageable_iff.mp (Bool.eq_true_of_not_eq_false hmanageable)
      obtain ⟨fingerprint, hok⟩ := inputFingerprint_eq_ok sup.sha256Hex hinput
      rw [hprint] at hok
      cases hok
  | ok fingerprint =>
      cases htext : exc.text with
      | none =>
          simp only [PyExc.str, htext]
          exact ⟨by simp [manageable, htext], trivial⟩
      | some text =>
          simp only [PyExc.str, htext, wp_appendAudit_T, wp_saveTask_T, wp_pure]
          intro ts saved
          refine ⟨htrying.attempt, htrying.maxRetries, rfl, ?_⟩
          have hmanageable : manageable x.input exc = true := by
            refine manageable_iff.mpr ⟨?_, by rw [htext]; rfl⟩
            cases hdumps : jsonDumps (.dict x.input) with
            | error e => simp [inputFingerprint, hdumps] at hprint; cases hprint
            | ok text => exact ⟨text, hdumps⟩
          rw [htrying.failed, hmanageable]
          refine ⟨htrying.taskId, htrying.status, htrying.maxRetries, htrying.attempt, ?_,
            htrying.retries, rfl⟩
          have hfailures := htrying.failures
          simp only [TaskRecord.failures, List.countP_append, List.countP_singleton] at *
          simp only [beq_self_eq_true, if_true]
          omega

/-- What the escalation policy is asked, if there is one, is whether it triggers. -/
theorem policyEscalates_ends (hpolicy : sup.escalationPolicy = setup.policy.isSome)
    {post : Except PyExc Bool → TaskRecord → Progress → Prop}
    (hpost : ∀ escalate, (escalate = true ↔ setup.Triggers history.length) →
      post (.ok escalate) x p) :
    (policyEscalates sup history).wp (T setup sup) post x p := by
  unfold policyEscalates
  rw [hpolicy]
  cases hsome : setup.policy with
  | none =>
      apply hpost
      simp [Setup.Triggers, hsome]
  | some policy =>
      simp only [Option.isSome_some, if_true, wp_bind, wp_object, wp_ask, call_T]
      intro answer hanswer
      rw [hanswer policy hsome]
      apply hpost
      simp [Setup.Triggers, hsome, ThresholdEscalationPolicy.shouldEscalate]

theorem buildEscalationRecord_ends (hpolicy : sup.escalationPolicy = setup.policy.isSome)
    {post : Except PyExc (Option EscalationRecord) → TaskRecord → Progress → Prop}
    (hpost : ∀ record, (∀ r ∈ record, r.totalAttempts = x.attempt ∧ r.failureHistory = history) →
      post (.ok record) x p) :
    (buildEscalationRecord sup history).wp (T setup sup) post x p := by
  unfold buildEscalationRecord
  rw [hpolicy]
  cases hsome : setup.policy with
  | none => exact hpost none (by simp)
  | some policy =>
      simp only [Option.isSome_some, if_true, wp_bind, wp_object, wp_ask, call_T, wp_pure]
      intro answer hanswer
      obtain ⟨ts, rfl⟩ := hanswer policy hsome
      apply hpost
      rintro r ⟨⟩
      exact ⟨rfl, rfl⟩

/-- Failures are reported to a guild that may refuse them. -/
theorem publishFailures_ends {hint : String}
    {post : Except PyExc Unit → TaskRecord → Progress → Prop} (hok : post (.ok ()) x p)
    (herror : ∀ e, sup.guildKnowledge = true → setup.dependable = false → post (.error e) x p) :
    (publishFailures sup history hint).wp (T setup sup) post x p := by
  unfold publishFailures
  split
  · rename_i hguild
    simp only [wp_bind, wp_object, wp_ask, call_T]
    rintro (e | published) hanswer
    · refine herror e hguild (Bool.eq_false_iff.mpr ?_)
      intro hdependable
      cases hanswer hdependable hguild
    · exact hok
  · exact hok

theorem doEscalate_ends (hpolicy : sup.escalationPolicy = setup.policy.isSome)
    (htext : exc.text.isSome) {reason : Option String} :
    (doEscalate sup history startedAt exc reason).wp (T setup sup)
      (fun outcome y q => (setup.dependable = true → outcome = .ok ()) ∧
        y.taskId = x.taskId ∧ y.status = .escalated ∧ y.attempt = x.attempt ∧
        y.failures = x.failures ∧ y.EscalationTells history.length ∧ q = p.wrote y) x p := by
  obtain ⟨text, htext⟩ := Option.isSome_iff_exists.mp htext
  simp only [doEscalate, wp_bind, wp_now_T]
  intro escalatedAt
  apply buildEscalationRecord_ends hpolicy
  intro record hrecord
  simp only [PyExc.str, htext, wp_ofExcept, wp_mutate, wp_object]
  apply wp_transitionStatus_T
  intro ts
  have htells : ({ x with result := some ⟨false, .none, some text,
      escalationMetadata record reason, some startedAt, some escalatedAt⟩ }.transitioned .escalated
      "supervisor" "escalated" [("attempt", .int x.attempt),
        ("total_failures", .int history.length)] ts).EscalationTells history.length := by
    rintro result ⟨⟩ value hvalue
    cases record with
    | none => cases reason <;> simp [escalationMetadata, List.lookup_cons] at hvalue
    | some record =>
        simp only [escalationMetadata, List.lookup_cons_self, Option.some.injEq] at hvalue
        obtain ⟨htotal, hhistory⟩ := hrecord record rfl
        exact ⟨record, hvalue.symm, htotal, by rw [hhistory]⟩
  dsimp only
  apply publishFailures_ends
  · exact ⟨fun _ => rfl, rfl, rfl, rfl, by rw [TaskRecord.failures_transitioned]; rfl, htells, rfl⟩
  · intro e _ hdependable
    exact ⟨fun h => by simp [hdependable] at h, rfl, rfl, rfl,
      by rw [TaskRecord.failures_transitioned]; rfl, htells, rfl⟩

/-- The delay of a retry returns, or its failure is noticed. -/
theorem retryDelay_ends {decision : RetryDecision}
    {post : Except PyExc Unit → TaskRecord → Progress → Prop} (hok : post (.ok ()) x p)
    (herror : ∀ e, post (.error e) x p.stuck) :
    (retryDelay decision).wp (T setup sup) post x p := by
  unfold retryDelay
  split
  · split
    · rw [wp_ask, call_T]
      rintro (e | slept) -
      · exact herror e
      · exact hok
    · exact hok
  · exact hok

theorem giveUp_ends (hpolicy : sup.escalationPolicy = setup.policy.isSome)
    (hfailing : Failing setup task n x p) (hbudget : attemptBudget task = n + 1)
    (hhistory : history.length = n + 1) (htext : exc.text.isSome) {decision : RetryDecision}
    (hdecision : decision.escalate = true ↔ setup.Escalates (task.attempt + n + 1)) :
    (giveUp sup startedAt exc history decision).wp (T setup sup)
      (RoundEnds setup sup.guildKnowledge task n) x p := by
  have hescalated {reason : Option String}
      (hwhy : setup.Escalates (task.attempt + n + 1) ∨ setup.Triggers (n + 1)) :
      (do doEscalate sup history startedAt exc reason; pure (Flow.stop none history)).wp
        (T setup sup) (RoundEnds setup sup.guildKnowledge task n) x p := by
    rw [wp_bind]
    refine wp_mono monotone_T ?_ (doEscalate_ends hpolicy htext)
    rintro outcome y q ⟨houtcome, hid, hstatus, hattempt, hfailures, htells, rfl⟩
    have hends : Ending setup sup.guildKnowledge task outcome y
        ⟨some y, some (List.replicate (n + 1) false), true⟩ :=
      .escalated outcome y n (hid.trans hfailing.taskId) hfailing.retries hbudget hwhy hstatus
        (hattempt.trans hfailing.attempt) (hfailures.trans hfailing.failures)
        (hhistory ▸ htells) houtcome
    rw [hfailing.progress]
    cases outcome <;> exact hends
  simp only [giveUp, escalates, wp_bind]
  by_cases hescalate : decision.escalate = true
  · simp only [hescalate, if_true, wp_pure]
    exact hescalated (.inl (hdecision.mp hescalate))
  simp only [hescalate]
  apply policyEscalates_ends hpolicy
  intro escalate htriggers
  rw [hhistory] at htriggers
  cases escalate with
  | true => exact hescalated (.inr (htriggers.mp rfl))
  | false =>
      refine ⟨n, hfailing, hbudget, fun h => hescalate (hdecision.mpr h), ?_, htext⟩
      exact fun h => Bool.false_ne_true (htriggers.mpr h)

/-- A retry makes the task ready for its next attempt. -/
theorem Failing.retried (hfailing : Failing setup task n x p) (hbudget : n + 1 < attemptBudget task)
    (htriggers : ¬ setup.Triggers (n + 1)) (hhistory : history.length = n + 1) (input : Dict)
    (ts saved : Time) (metadata : Dict) :
    Trying setup task history
      ({ x with attempt := x.attempt + 1, input := input }.noted
        ⟨ts, "supervisor", "retry", some .running, some .running, metadata⟩ saved)
      (p.wrote ({ x with attempt := x.attempt + 1, input := input }.noted
        ⟨ts, "supervisor", "retry", some .running, some .running, metadata⟩ saved)) where
  taskId := hfailing.taskId
  status := hfailing.status
  maxRetries := hfailing.maxRetries
  attempt := by
    have hattempt := hfailing.attempt
    simp only [TaskRecord.noted, hhistory]
    omega
  failures := by
    rw [TaskRecord.failures_noted, hhistory]
    exact hfailing.failures
  retries := by
    rw [hhistory]
    exact ⟨hbudget, .inr htriggers⟩
  progress := by
    rw [hfailing.progress, hhistory]
    rfl

theorem retry_ends (hpolicy : sup.escalationPolicy = setup.policy.isSome)
    (hfailing : Failing setup task n x p) (hbudget : n + 1 < attemptBudget task)
    (hhistory : history.length = n + 1) (htext : exc.text.isSome) {decision : RetryDecision} :
    (retry sup startedAt exc history decision).wp (T setup sup)
      (RoundEnds setup sup.guildKnowledge task n) x p := by
  simp only [retry, wp_bind, wp_mutate]
  apply policyEscalates_ends hpolicy
  intro escalate htriggers
  rw [hhistory] at htriggers
  have hattempt : x.attempt + 1 = task.attempt + n + 2 := by
    have hbefore := hfailing.attempt
    omega
  cases escalate with
  | true =>
      simp only [if_true, wp_bind]
      refine wp_mono monotone_T ?_ (doEscalate_ends hpolicy htext)
      rintro outcome y q ⟨houtcome, hid, hstatus, hafter, hfailures, htells, rfl⟩
      have hends : Ending setup sup.guildKnowledge task outcome y
          ⟨some y, some (List.replicate (n + 1) false), true⟩ :=
        .cutOff outcome y n (hid.trans hfailing.taskId) hfailing.retries hbudget
          (htriggers.mp rfl) hstatus (hafter.trans hattempt)
          (hfailures.trans hfailing.failures) (hhistory ▸ htells) houtcome
      rw [hfailing.progress]
      cases outcome <;> exact hends
  | false =>
      obtain ⟨text, htext⟩ := Option.isSome_iff_exists.mp htext
      simp only [Bool.false_eq_true, if_false, wp_bind, wp_object, PyExc.str, htext, wp_ofExcept,
        wp_appendAudit_T, wp_saveTask_T]
      intro ts saved
      apply wp_emitEvent_T
      have hnext := hfailing.retried hbudget (fun h => Bool.false_ne_true (htriggers.mpr h))
        hhistory (decision.adjustedInput.getD x.input) ts saved
      apply retryDelay_ends
      · exact ⟨hhistory, hnext _⟩
      · intro e
        exact (hnext _).stuck e

/-- What a shipped strategy decides depends on the budget only. -/
theorem Setup.Retries.decision (hretries : setup.Retries task n) {failure : FailureContext}
    (hattempt : failure.attempt = task.attempt + n + 1)
    (hmaxRetries : failure.maxRetries = task.maxRetries)
    {h : Trace} {decision : RetryDecision}
    (hdecide : setup.strategy.decide h failure = .ok decision) :
    decision.shouldRetry = true ∧ n + 1 < attemptBudget task ∨
      decision.shouldRetry = false ∧ attemptBudget task = n + 1 ∧
        (decision.escalate = true ↔ setup.Escalates (task.attempt + n + 1)) := by
  have hbudget := hretries.1
  simp only [attemptBudget] at hbudget ⊢
  by_cases hexhausted : failure.maxRetries < failure.attempt
  · right
    rw [setup.strategy.decide_of_exhausted h hexhausted] at hdecide
    cases hdecide
    refine ⟨rfl, by omega, ?_⟩
    simp only [exhaustedDecision, Setup.Escalates, hattempt]
    cases setup.strategy.escalationThreshold <;> simp
  · left
    refine ⟨(setup.strategy.decide_of_budget h (by omega) hdecide).1, by omega⟩

/-- The `except` clause either ends the call, or leaves a task that is about to
be tried again. -/
theorem handleFailure_ends (hpolicy : sup.escalationPolicy = setup.policy.isSome)
    (htrying : Trying setup task history x p) :
    (handleFailure sup startedAt history exc).wp (T setup sup)
      (RoundEnds setup sup.guildKnowledge task history.length) x (p.failed x.input exc) := by
  simp only [handleFailure, wp_bind]
  refine wp_mono monotone_T ?_ (recordFailure_ends htrying)
  rintro (e | failure) y q houtcome
  · obtain ⟨hunmanageable, rfl⟩ := houtcome
    rw [htrying.failed, hunmanageable]
    exact .stuck e y x _ _ htrying.taskId htrying.status (.inl rfl)
  · obtain ⟨hattempt, hmaxRetries, htext, hfailing⟩ := houtcome
    simp only [wp_object, wp_ask, call_T]
    rintro (e | decision) ⟨h, hdecide⟩
    · exact hfailing.stuck e
    · have hlength : (history ++ [failure]).length = history.length + 1 := by simp
      rcases htrying.retries.decision hattempt hmaxRetries hdecide.symm with
        ⟨hretry, hbudget⟩ | ⟨hretry, hbudget, hescalates⟩
      · simp only [hretry, if_true]
        exact retry_ends hpolicy hfailing hbudget hlength htext
      · simp only [hretry]
        exact giveUp_ends hpolicy hfailing hbudget hlength htext hescalates

theorem attemptRound_ends (hpolicy : sup.escalationPolicy = setup.policy.isSome)
    (htrying : Trying setup task history x p) :
    (attemptRound sup capability controls startedAt history).wp (T setup sup)
      (RoundEnds setup sup.guildKnowledge task history.length) x p := by
  simp only [attemptRound, wp_tryExcept, wp_bind, wp_pure]
  refine wp_mono monotone_T ?_ (attempt_ends htrying)
  rintro (e | completed) y q houtcome
  · obtain ⟨hcaught, rfl, rfl⟩ := houtcome
    simp only [hcaught, if_true]
    exact handleFailure_ends hpolicy htrying
  · exact houtcome

/-- With fuel for the attempts that are left the loop ends. -/
theorem attemptLoop_ends (hpolicy : sup.escalationPolicy = setup.policy.isSome) {fuel : Nat}
    (hfuel : attemptBudget task ≤ fuel + history.length)
    (htrying : Trying setup task history x p) :
    (attemptLoop sup capability controls startedAt fuel history).wp (T setup sup)
      (LoopEnds setup sup.guildKnowledge task) x p := by
  induction fuel generalizing history x p with
  | zero =>
      have hbudget := htrying.retries.1
      omega
  | succ fuel ih =>
      simp only [attemptLoop, wp_bind]
      refine wp_mono monotone_T ?_ (attemptRound_ends hpolicy htrying)
      rintro (e | ⟨_ | exc, _⟩ | history') y q houtcome
      · exact houtcome
      · exact houtcome
      · exact houtcome
      · obtain ⟨hlength, htrying'⟩ := houtcome
        exact ih (by omega) htrying'

theorem failTask_ends {exc : PyExc} (hgivenUp : GivenUp setup task exc n x p) :
    (failTask sup history startedAt exc).wp (T setup sup)
      (fun outcome y q => Ending setup sup.guildKnowledge task outcome y q) x p := by
  obtain ⟨text, htext⟩ := Option.isSome_iff_exists.mp hgivenUp.text
  have hfailing := hgivenUp.failing
  simp only [failTask, wp_bind]
  apply publishFailures_ends
  · simp only [wp_now_T, PyExc.str, htext, wp_ofExcept, wp_mutate, wp_object]
    intro failedAt
    apply wp_transitionStatus_T
    intro ts
    rw [hfailing.progress]
    refine .failed _ n hfailing.taskId hfailing.retries hgivenUp.budget hgivenUp.escalates
      hgivenUp.triggers rfl hfailing.attempt ?_
    rw [TaskRecord.failures_transitioned]
    exact hfailing.failures
  · intro e hguild hdependable
    rw [hfailing.progress]
    exact .stuck e x x _ _ hfailing.taskId hfailing.status (.inr ⟨hguild, hdependable⟩)

theorem runAttempts_ends (hpolicy : sup.escalationPolicy = setup.policy.isSome) {fuel : Nat}
    (hfuel : attemptBudget task ≤ fuel) (htrying : Trying setup task [] x p) :
    (runAttempts sup fuel capability controls startedAt).wp (T setup sup)
      (fun outcome y q => Ending setup sup.guildKnowledge task outcome y q) x p := by
  simp only [runAttempts, wp_bind]
  refine wp_mono monotone_T ?_ (attemptLoop_ends hpolicy (by simpa using hfuel) htrying)
  rintro (e | ⟨_ | exc, history⟩) y q houtcome
  · exact houtcome
  · exact houtcome
  · obtain ⟨n, hgivenUp⟩ := houtcome
    exact failTask_ends hgivenUp

/-! ### Before the first attempt -/

/-- The task is not started, whatever else was done about it. -/
structure Waiting (setup : Setup) (task x : TaskRecord) (p : Progress) : Prop where
  taskId : x.taskId = task.taskId
  status : x.status.attempted = false
  maxRetries : x.maxRetries = task.maxRetries
  attempt : x.attempt = task.attempt
  failures : x.failures = task.failures
  progress : p = ⟨some x, none, true⟩

theorem Waiting.ends {guild : Bool} (hwaiting : Waiting setup task x p)
    (outcome : Except PyExc Unit) : Ending setup guild task outcome x p := by
  rw [hwaiting.progress]
  exact .unstarted outcome x x hwaiting.taskId hwaiting.status

/-- A version of a waiting task in which nothing changed that the attempts
depend on. -/
theorem Waiting.wrote (hwaiting : Waiting setup task x p) {y : TaskRecord}
    (hid : y.taskId = x.taskId) (hstatus : y.status.attempted = false)
    (hmaxRetries : y.maxRetries = x.maxRetries) (hattempt : y.attempt = x.attempt)
    (hfailures : y.failures = x.failures) :
    Waiting setup task y (p.wrote y) where
  taskId := hid.trans hwaiting.taskId
  status := hstatus
  maxRetries := hmaxRetries.trans hwaiting.maxRetries
  attempt := hattempt.trans hwaiting.attempt
  failures := hfailures.trans hwaiting.failures
  progress := by
    rw [hwaiting.progress]
    rfl

/-- No progress is made before the task is started. -/
theorem Progress.stuck_of_waiting (hattempts : p.attempts = none) : p.stuck = p := by
  obtain ⟨latest, attempts, handled⟩ := p
  obtain rfl : attempts = none := hattempts
  simp [Progress.stuck]

theorem Progress.failed_of_waiting (hattempts : p.attempts = none) (input : Dict) (exc : PyExc) :
    p.failed input exc = p := by
  obtain ⟨latest, attempts, handled⟩ := p
  obtain rfl : attempts = none := hattempts
  simp [Progress.failed]

theorem validateTaskSubmission_waits {submission : TaskSubmission} {x : σ}
    (hattempts : p.attempts = none) :
    (validateTaskSubmission sup submission).wp (T setup sup) (fun _ y q => x = y ∧ q = p) x p := by
  unfold validateTaskSubmission
  split
  · exact ⟨rfl, rfl⟩
  · split
    · exact ⟨rfl, rfl⟩
    · split
      · exact ⟨rfl, rfl⟩
      · rw [wp_bind, wp_ask, call_T]
        rintro (e | payload) -
        · exact ⟨rfl, Progress.failed_of_waiting hattempts _ _⟩
        · exact ⟨rfl, rfl⟩

theorem waitForExecutionWindow_waits {x : σ} (hattempts : p.attempts = none) :
    (waitForExecutionWindow sup capability).wp (T setup sup) (fun _ y q => x = y ∧ q = p) x p := by
  have hstarted (start : Rat) : @Block.wp Call Response PyExc σ (no_index (Response
      (.setLastStart capability start))) Progress (T setup sup)
      (ask (.setLastStart capability start)) (fun _ y q => x = y ∧ q = p) x p := by
    rw [wp_ask, call_T]
    exact fun _ _ => ⟨rfl, rfl⟩
  unfold waitForExecutionWindow
  rw [wp_bind, wp_ofExcept]
  cases sup.registry.executionControls capability with
  | error e => exact ⟨rfl, rfl⟩
  | ok controls =>
      dsimp only
      split
      · exact ⟨rfl, rfl⟩
      · rw [wp_bind, wp_ask, call_T]
        rintro (e | now) -
        · exact ⟨rfl, rfl⟩
        dsimp only
        rw [wp_bind, wp_ask, call_T]
        rintro (e | previousStart) -
        · exact ⟨rfl, rfl⟩
        dsimp only
        split
        · exact hstarted _
        · split
          · rw [wp_bind, wp_ask, call_T]
            rintro (e | slept) -
            · exact ⟨rfl, Progress.stuck_of_waiting hattempts⟩
            dsimp only
            rw [wp_bind, wp_ask, call_T]
            rintro (e | now) -
            · exact ⟨rfl, rfl⟩
            · exact hstarted _
          · exact hstarted _

theorem applyPeerSuggestion_waits (hwaiting : Waiting setup task x p) :
    (applyPeerSuggestion sup).wp (T setup sup) (fun _ y q => Waiting setup task y q) x p := by
  unfold applyPeerSuggestion
  split
  · simp only [wp_bind, wp_object, wp_ask, call_T]
    rintro (e | _ | ⟨best, rest⟩) -
    · exact hwaiting
    · exact hwaiting
    · simp only [wp_bind, wp_mutate, wp_appendAudit_T, wp_saveTask_T]
      intro ts saved
      refine hwaiting.wrote rfl hwaiting.status rfl rfl ?_
      simp [TaskRecord.failures]
  · exact hwaiting

theorem startTask_ends (hwaiting : Waiting setup task x p) :
    (startTask sup).wp (T setup sup)
      (fun outcome y q => match outcome with
        | .ok _ => Trying setup task [] y q
        | .error _ => Waiting setup task y q) x p := by
  have hattempts : p.attempts = none := by rw [hwaiting.progress]
  simp only [startTask, wp_bind, wp_object, wp_ofExcept]
  cases sup.registry.executionControls x.capability with
  | error e => exact hwaiting
  | ok controls =>
      refine wp_mono monotone_T ?_ (waitForExecutionWindow_waits hattempts)
      rintro (e | waited) _ _ ⟨rfl, rfl⟩
      · exact hwaiting
      · simp only [wp_now_T, wp_mutate]
        intro startedAt
        apply wp_transitionStatus_T
        intro ts
        have hbudget : 0 < attemptBudget task := Nat.succ_pos _
        refine ⟨hwaiting.taskId, rfl, hwaiting.maxRetries, ?_, ?_, ⟨hbudget, .inl rfl⟩, ?_⟩
        · simp [TaskRecord.transitioned, hwaiting.attempt]
        · rw [TaskRecord.failures_transitioned]
          exact hwaiting.failures
        · rw [hwaiting.progress]
          rfl

theorem executeTask_ends (hpolicy : sup.escalationPolicy = setup.policy.isSome) {fuel : Nat}
    (hfuel : attemptBudget task ≤ fuel) (hwaiting : Waiting setup task x p) :
    (executeTask sup fuel capability).wp (T setup sup)
      (fun outcome y q => Ending setup sup.guildKnowledge task outcome y q) x p := by
  simp only [executeTask, wp_bind]
  refine wp_mono monotone_T ?_ (applyPeerSuggestion_waits hwaiting)
  rintro (e | suggested) y q hwaiting
  · exact hwaiting.ends _
  refine wp_mono monotone_T ?_ (startTask_ends hwaiting)
  rintro (e | started) y q hstarted
  · exact Waiting.ends hstarted _
  · exact runAttempts_ends hpolicy hfuel hstarted

theorem applyPolicy_waits {decision : PolicyDecision} (hwaiting : Waiting setup task x p) :
    (applyPolicy sup decision).wp (T setup sup) (fun _ y q => Waiting setup task y q) x p := by
  unfold applyPolicy
  cases decision.decision with
  | deny =>
      simp only [wp_bind, wp_now_T, wp_mutate]
      intro deniedAt
      apply wp_transitionStatus_T
      intro ts
      refine hwaiting.wrote rfl rfl rfl rfl ?_
      rw [TaskRecord.failures_transitioned]
      rfl
  | requireApproval =>
      apply wp_transitionStatus_T
      intro ts
      refine hwaiting.wrote rfl rfl rfl rfl ?_
      rw [TaskRecord.failures_transitioned]
      rfl
  | allow =>
      simp only [wp_bind, wp_appendAudit_T, wp_saveTask_T]
      intro ts saved
      refine hwaiting.wrote rfl hwaiting.status rfl rfl ?_
      simp [TaskRecord.failures]

theorem gatePending_waits (hwaiting : Waiting setup task x p) :
    (gatePending sup capability).wp (T setup sup) (fun _ y q => Waiting setup task y q) x p := by
  simp only [gatePending, wp_bind, wp_ask, call_T]
  rintro (e | descriptor) -
  · exact hwaiting
  dsimp only
  split
  · simp only [wp_bind, wp_object]
    apply wp_transitionStatus_T
    intro ts
    refine hwaiting.wrote rfl rfl rfl rfl ?_
    rw [TaskRecord.failures_transitioned]
    rfl
  · simp only [wp_bind, wp_object, wp_ask, call_T]
    rintro (e | descriptor) -
    · exact hwaiting
    rintro (e | decision) -
    · exact hwaiting
    · exact applyPolicy_waits hwaiting

theorem runLoadedTask_ends (hpolicy : sup.escalationPolicy = setup.policy.isSome) {fuel : Nat}
    (hfuel : attemptBudget task ≤ fuel) (hwaiting : Waiting setup task x p) :
    (runLoadedTask sup fuel).wp (T setup sup)
      (fun outcome y q => Ending setup sup.guildKnowledge task outcome y q) x p := by
  have hattempts {y : TaskRecord} {q : Progress} (hwaiting : Waiting setup task y q) :
      q.attempts = none := by rw [hwaiting.progress]
  simp only [runLoadedTask, wp_bind, wp_object]
  split
  · simp only [wp_bind]
    refine wp_mono monotone_T ?_ (validateTaskSubmission_waits (hattempts hwaiting))
    rintro (e | capability) _ _ ⟨rfl, rfl⟩
    · exact hwaiting.ends _
    refine wp_mono monotone_T ?_ (gatePending_waits hwaiting)
    rintro (e | gated) y q hwaiting
    · exact Waiting.ends hwaiting _
    simp only [wp_object]
    split
    · exact executeTask_ends hpolicy hfuel hwaiting
    · exact Waiting.ends hwaiting _
  · split
    · simp only [wp_bind]
      refine wp_mono monotone_T ?_ (validateTaskSubmission_waits (hattempts hwaiting))
      rintro (e | capability) _ _ ⟨rfl, rfl⟩
      · exact hwaiting.ends _
      · exact executeTask_ends hpolicy hfuel hwaiting
    · exact hwaiting.ends _

/-- How `run_task` ends on a stored task that is not started: with fuel for
its attempts it does end. -/
theorem runTask_ends {env : Env} (hsetup : setup.Configures sup env)
    (huninterrupted : env.Uninterrupted) (hsafe : GuildSafe sup env)
    (hlistens : setup.dependable = true → GuildListens sup env)
    {k : State} (hkeyed : k.state.store.Keyed) {taskId : TaskId}
    (hstored : k.state.store.get taskId = some task) (hstatus : task.status.attempted = false)
    {fuel : Nat} (hfuel : attemptBudget task ≤ fuel) :
    ∃ outcome x k', ((runTask sup fuel taskId).run ()).exec env.machine k =
        (some (outcome.map fun _ => x, ()), k') ∧
      Ending setup sup.guildKnowledge task outcome x (progress k'.history) ∧ Current k' := by
  have hwaiting : Waiting setup task task ⟨some task, none, true⟩ :=
    ⟨rfl, hstatus, rfl, rfl, rfl, rfl⟩
  have hloaded : env.machine.step (env.machine.step k (.runTaskEntered taskId)).2
      (.storeGet taskId) = (.ok (some task), ⟨⟨.storeGet taskId, .ok (some task)⟩ ::
        ⟨.runTaskEntered taskId, .ok ()⟩ :: k.history, k.state⟩) := by
    change (Except.ok (k.state.store.get taskId), _) = _
    rw [← hstored]
    rfl
  have hcurrent : Current ⟨⟨.storeGet taskId, .ok (some task)⟩ ::
      ⟨.runTaskEntered taskId, .ok ()⟩ :: k.history, k.state⟩ := by
    refine ⟨hkeyed, ?_⟩
    rintro t ⟨⟩
    rwa [hkeyed taskId task hstored]
  have hends : (runLoadedTask sup fuel).wp (env.machine.logic fun _ => False)
      (fun outcome y k' => Ending setup sup.guildKnowledge task outcome y (progress k'.history) ∧
        Current k') task ⟨⟨.storeGet taskId, .ok (some task)⟩ ::
          ⟨.runTaskEntered taskId, .ok ()⟩ :: k.history, k.state⟩ := by
    have hspec := runLoadedTask_ends hsetup.escalationPolicy hfuel hwaiting
    have hmachine := Prog.wp_machine (I := Current) (m := setup.monitor sup.guildKnowledge)
      (fun _ c hk => hk.step c)
      (fun k c _ => hsetup.answers huninterrupted hsafe hlistens k c)
      hcurrent hspec
    simp only [view_monitor] at hmachine
    exact hmachine
  have hruns : (runTask sup fuel taskId).wp (env.machine.logic fun _ => False)
      (fun outcome _ k' => ∃ ended x, outcome = ended.map (fun _ => x) ∧
        Ending setup sup.guildKnowledge task ended x (progress k'.history) ∧ Current k') () k := by
    simp only [runTask, getTask, wp_bind, wp_ask, wp_on]
    apply Machine.call_of_step (rfl : env.machine.step k (.runTaskEntered taskId) = (.ok (), _))
    apply Machine.call_of_step hloaded
    dsimp only [wp_pure]
    refine wp_mono (Machine.logic_monotone _ _) ?_ hends
    rintro (e | ran) y k' ⟨hending, hcurrent⟩
    · exact ⟨.error e, y, rfl, hending, hcurrent⟩
    · exact ⟨.ok ran, y, rfl, hending, hcurrent⟩
  obtain ⟨⟨outcome, ⟨⟩⟩, k', hexec, ended, x, rfl, hending, hcurrent⟩ :=
    Machine.exec_of_wp hruns
  exact ⟨ended, x, k', hexec, hending, hcurrent⟩

end Conductor
