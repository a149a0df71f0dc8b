/-
The attempts of one `run_task` call.  A monitor follows the version of the task
that was last read or saved, how the attempts came out, and whether the
`except` clause could cope with each failure; `Ending` lists the ways in which
the call can end.
-/
import Conductor.Supervisor.Sequential

namespace Conductor

open Effects Block

/-- Both texts that the `except` clause derives from a failure exist: the
fingerprint of the input and `str(exc)`. -/
def manageable (input : Dict) (exc : PyExc) : Bool :=
  (jsonDumps (.dict input)).isOk && exc.text.isSome

/-- How far a `run_task` call has come.  `latest` is the version of the task
last read or saved and `attempts` how its attempts came out, the last one
first, from the start of the task on.  A started task is `handled` as long as
each failure is manageable and neither the retry strategy nor a delay raises. -/
structure Progress where
  latest : Option TaskRecord
  attempts : Option (List Bool)
  handled : Bool

namespace Progress

def entered : Progress := ⟨none, none, true⟩

def wrote (p : Progress) (task : TaskRecord) : Progress := { p with latest := some task }

def started (p : Progress) : Progress := { p with attempts := some [] }

def succeeded (p : Progress) : Progress :=
  { p with attempts := p.attempts.map (true :: ·) }

def failed (p : Progress) (input : Dict) (exc : PyExc) : Progress :=
  { p with
    attempts := p.attempts.map (false :: ·)
    handled := p.handled && (p.attempts.isNone || manageable input exc) }

def stuck (p : Progress) : Progress := { p with handled := p.handled && p.attempts.isNone }

/-- The progress after one more call. -/
def after (p : Progress) : (c : Call) → Answer c → Progress
  | .runTaskEntered _, _ => entered
  | .storeGet _, .ok (some task) => p.wrote task
  | .storeSave task, _ => p.wrote task
  | .emit _ event, _ => if event.eventType = .taskStarted then p.started else p
  | .validateInput _ input, .error exc => p.failed input exc
  | .execute _ _ _ _ _, .ok _ => p.succeeded
  | .execute _ task _ _ _, .error exc => p.failed task.input exc
  | .decide _ _, .error _ => p.stuck
  | .sleep _, .error _ => p.stuck
  | _, _ => p

end Progress

/-- The retry strategy and the escalation policy of a supervisor, and whether
its guild can be depended on to take the reports of failures. -/
structure Setup where
  strategy : RetryStrategy Trace
  policy : Option ThresholdEscalationPolicy
  dependable : Bool

/-- What the collaborators answer.  The capability and the event bus raise
nothing but `Exception`s, and a guild takes the reports of successes; one that
can be depended on takes those of failures too. -/
def Setup.Answers (setup : Setup) (guild : Bool) : (c : Call) → Answer c → Prop
  | .now, answer => ∃ ts, answer = .ok ts
  | .storeSave _, answer => answer = .ok ()
  | .emit _ _, answer => ∀ e, answer = .error e → e.isException = true
  | .validateInput _ _, answer => ∀ e, answer = .error e → e.isException = true
  | .execute _ _ _ _ _, answer => ∀ e, answer = .error e → e.isException = true
  | .decide _ failure, answer => ∃ h, answer = setup.strategy.decide h failure
  | .shouldEscalate _ history, answer =>
      ∀ policy ∈ setup.policy, answer = .ok (policy.shouldEscalate history)
  | .buildRecord task history, answer =>
      ∀ policy ∈ setup.policy, ∃ ts, answer = .ok (policy.buildRecord task history ts)
  | .publish _ _ _, answer => setup.dependable = true → guild = true → answer = .ok ()
  | .publishSuccess _ _, answer => guild = true → answer = .ok ()
  | _, _ => True

/-- Every call is allowed: the monitor only watches. -/
def Setup.monitor (setup : Setup) (guild : Bool) : Monitor Progress Call Answer where
  initial := .entered
  next := Progress.after
  allows _ _ := True
  answers := setup.Answers guild

/-- The progress that a history tells. -/
def progress : Trace → Progress
  | [] => .entered
  | e :: h => (progress h).after e.call e.answer

@[simp] theorem progress_nil : progress [] = .entered := rfl

@[simp] theorem progress_cons (e : Event Call Answer) (h : Trace) :
    progress (e :: h) = (progress h).after e.call e.answer := rfl

@[simp] theorem view_monitor (setup : Setup) (guild : Bool) (h : Trace) :
    (setup.monitor guild).view h = progress h := by
  induction h with
  | nil => rfl
  | cons e h ih =>
      rw [Monitor.view_cons, ih]
      rfl

/-- The supervisor uses this strategy and this policy, where there is one. -/
structure Setup.Configures (setup : Setup) (sup : Supervisor) (env : Env) : Prop where
  decide : ∀ h task failure, env.decide h task failure = setup.strategy.decide h failure
  escalationPolicy : sup.escalationPolicy = setup.policy.isSome
  shouldEscalate : ∀ policy ∈ setup.policy, ∀ h task history,
    env.shouldEscalate h task history = .ok (policy.shouldEscalate history)
  buildRecord : ∀ policy ∈ setup.policy, ∀ h task history,
    env.buildRecord h task history = .ok (policy.buildRecord task history (env.localNow h))

/-- A supervisor configured with a shipped strategy and no policy. -/
theorem Setup.configures_withRetryStrategy (strategy : RetryStrategy Trace) (dependable : Bool)
    {sup : Supervisor} (env : Env) (hpolicy : sup.escalationPolicy = false) :
    Setup.Configures ⟨strategy, none, dependable⟩ sup (env.withRetryStrategy strategy) where
  decide _ _ _ := rfl
  escalationPolicy := hpolicy
  shouldEscalate _ hnone := by cases hnone
  buildRecord _ hnone := by cases hnone

/-- The same supervisor with a threshold policy. -/
theorem Setup.Configures.withEscalationPolicy {strategy : RetryStrategy Trace} {dependable : Bool}
    {sup : Supervisor} {env : Env}
    (hsetup : Setup.Configures ⟨strategy, none, dependable⟩ sup env)
    (policy : ThresholdEscalationPolicy) :
    Setup.Configures ⟨strategy, some policy, dependable⟩ { sup with escalationPolicy := true }
      (env.withEscalationPolicy policy) where
  decide := hsetup.decide
  escalationPolicy := rfl
  shouldEscalate := by
    rintro _ ⟨⟩ _ _ _
    rfl
  buildRecord := by
    rintro _ ⟨⟩ _ _ _
    rfl

/-- No interrupt: what the capability and the event bus raise is caught by
`except Exception`. -/
structure Env.Uninterrupted (env : Env) : Prop where
  validateInput : ∀ h capability input e,
    env.validateInput h capability input = .error e → e.isException = true
  execute : ∀ h capability payload context timeout e,
    env.execute h capability payload context timeout = .error e → e.isException = true
  emit : ∀ h event e, env.emit h event = .error e → e.isException = true

/-- The guild, where there is one, takes every report of failures. -/
def GuildListens (sup : Supervisor) (env : Env) : Prop :=
  sup.guildKnowledge = true →
    ∀ h capability failures hint, env.publish h capability failures hint = .ok ()

variable {setup : Setup} {sup : Supervisor} {env : Env}

theorem Setup.Configures.answers (hsetup : setup.Configures sup env)
    (huninterrupted : env.Uninterrupted) (hsafe : GuildSafe sup env)
    (hlistens : setup.dependable = true → GuildListens sup env) (k : State) (c : Call) :
    setup.Answers sup.guildKnowledge c (env.machine.step k c).1 := by
  cases c with
  | now => exact ⟨_, rfl⟩
  | storeSave task => rfl
  | emit task event => exact fun e he => huninterrupted.emit _ _ _ he
  | validateInput capability input => exact fun e he => huninterrupted.validateInput _ _ _ _ he
  | execute capability task payload context timeout =>
      exact fun e he => huninterrupted.execute _ _ _ _ _ _ he
  | decide task failure => exact ⟨k.history, hsetup.decide _ _ _⟩
  | shouldEscalate task history => exact fun policy hp => hsetup.shouldEscalate policy hp _ _ _
  | buildRecord task history =>
      exact fun policy hp => ⟨_, hsetup.buildRecord policy hp _ _ _⟩
  | publish capability failures hint =>
      exact fun hdependable hguild => hlistens hdependable hguild _ _ _ _
  | publishSuccess capability input => exact fun h => hsafe h _ _ _
  | _ => trivial

/-- What the call last read or saved is what is stored. -/
def Current (k : State) : Prop :=
  k.state.store.Keyed ∧
    ∀ t, (progress k.history).latest = some t → k.state.store.get t.taskId = some t

/-- Only reading and saving change the version in hand. -/
theorem Progress.latest_after (p : Progress) {c : Call} (answer : Answer c)
    (hget : ∀ taskId, c ≠ .storeGet taskId) (hsave : ∀ task, c ≠ .storeSave task)
    {t : TaskRecord} (hlatest : (p.after c answer).latest = some t) : p.latest = some t := by
  cases c with
  | runTaskEntered taskId => cases hlatest
  | storeGet taskId => exact absurd rfl (hget taskId)
  | storeSave task => exact absurd rfl (hsave task)
  | emit task event =>
      simp only [Progress.after] at hlatest
      split at hlatest <;> exact hlatest
  | _ => cases answer <;> exact hlatest

theorem Current.step {k : State} (hcurrent : Current k) (c : Call) :
    Current (env.machine.step k c).2 := by
  obtain ⟨hkeyed, hstored⟩ := hcurrent
  refine ⟨keyed_step env k c hkeyed, ?_⟩
  intro t hlatest
  by_cases hget : ∃ taskId, c = .storeGet taskId
  · obtain ⟨taskId, rfl⟩ := hget
    change ((progress k.history).after (.storeGet taskId)
      (.ok (k.state.store.get taskId))).latest = some t at hlatest
    change k.state.store.get t.taskId = some t
    cases hfound : k.state.store.get taskId with
    | none =>
        rw [hfound] at hlatest
        exact hstored t hlatest
    | some found =>
        rw [hfound] at hlatest
        cases hlatest
        rw [hkeyed taskId t hfound, hfound]
  by_cases hsave : ∃ task, c = .storeSave task
  · obtain ⟨task, rfl⟩ := hsave
    cases hlatest
    change (k.state.store.save t).get t.taskId = some t
    simp
  have hget : ∀ taskId, c ≠ .storeGet taskId := fun taskId h => hget ⟨taskId, h⟩
  have hsave : ∀ task, c ≠ .storeSave task := fun task h => hsave ⟨task, h⟩
  rw [store_step_of_not_save env k hsave]
  exact hstored t (Progress.latest_after _ _ hget hsave hlatest)

/-- The statuses of a task that was started. -/
def TaskStatus.attempted : TaskStatus → Bool
  | .running | .completed | .failed | .escalated => true
  | _ => false

/-- The failures that the audit trail records. -/
def TaskRecord.failures (task : TaskRecord) : Nat :=
  task.auditTrail.countP fun entry => entry.action == "failure_recorded"

/-- The attempts after which every shipped strategy gives the task up. -/
def attemptBudget (task : TaskRecord) : Nat := (task.maxRetries - task.attempt).toNat + 1

/-- The escalation policy escalates after this many failures. -/
def Setup.Triggers (setup : Setup) (failures : Nat) : Prop :=
  ∃ policy ∈ setup.policy, policy.config.maxRetriesBeforeEscalate ≤ failures

/-- The strategy escalates when it gives up at this attempt. -/
def Setup.Escalates (setup : Setup) (attempt : Int) : Prop :=
  setup.strategy.enableEscalation = true ∧
    ∀ threshold ∈ setup.strategy.escalationThreshold, threshold ≤ attempt

/-- After this many failures there is another attempt. -/
def Setup.Retries (setup : Setup) (task : TaskRecord) (failures : Nat) : Prop :=
  failures < attemptBudget task ∧ (failures = 0 ∨ ¬ setup.Triggers failures)

/-- An escalation record in the result of the task tells the attempt counter
and this many failures. -/
def TaskRecord.EscalationTells (task : TaskRecord) (failures : Nat) : Prop :=
  ∀ result ∈ task.result, ∀ value, result.metadata.lookup "escalation_record" = some value →
    ∃ record : EscalationRecord, value = .dict record.modelDump ∧
      record.totalAttempts = task.attempt ∧ record.failureHistory.length = failures

/-- How `run_task` on a task can end: the outcome, the record in hand and the
progress of the call. -/
inductive Ending (setup : Setup) (guild : Bool) (task : TaskRecord) :
    Except PyExc Unit → TaskRecord → Progress → Prop
  | unstarted (outcome : Except PyExc Unit) (x t : TaskRecord) (hid : t.taskId = task.taskId)
      (hstatus : t.status.attempted = false) :
      Ending setup guild task outcome x ⟨some t, none, true⟩
  | completed (t : TaskRecord) (n : Nat) (hid : t.taskId = task.taskId)
      (hretries : setup.Retries task n) (hstatus : t.status = .completed)
      (hattempt : t.attempt = task.attempt + n + 1)
      (hfailures : t.failures = task.failures + n) :
      Ending setup guild task (.ok ()) t ⟨some t, some (true :: List.replicate n false), true⟩
  /-- The policy escalates a task that the strategy would retry. -/
  | cutOff (outcome : Except PyExc Unit) (t : TaskRecord) (n : Nat)
      (hid : t.taskId = task.taskId) (hretries : setup.Retries task n)
      (hbudget : n + 1 < attemptBudget task) (htriggers : setup.Triggers (n + 1))
      (hstatus : t.status = .escalated) (hattempt : t.attempt = task.attempt + n + 2)
      (hfailures : t.failures = task.failures + (n + 1)) (htells : t.EscalationTells (n + 1))
      (houtcome : setup.dependable = true → outcome = .ok ()) :
      Ending setup guild task outcome t ⟨some t, some (List.replicate (n + 1) false), true⟩
  | escalated (outcome : Except PyExc Unit) (t : TaskRecord) (n : Nat)
      (hid : t.taskId = task.taskId) (hretries : setup.Retries task n)
      (hbudget : attemptBudget task = n + 1)
      (hescalates : setup.Escalates (task.attempt + n + 1) ∨ setup.Triggers (n + 1))
      (hstatus : t.status = .escalated) (hattempt : t.attempt = task.attempt + n + 1)
      (hfailures : t.failures = task.failures + (n + 1)) (htells : t.EscalationTells (n + 1))
      (houtcome : setup.dependable = true → outcome = .ok ()) :
      Ending setup guild task outcome t ⟨some t, some (List.replicate (n + 1) false), true⟩
  | failed (t : TaskRecord) (n : Nat) (hid : t.taskId = task.taskId)
      (hretries : setup.Retries task n) (hbudget : attemptBudget task = n + 1)
      (hescalates : ¬ setup.Escalates (task.attempt + n + 1)) (htriggers : ¬ setup.Triggers (n + 1))
      (hstatus : t.status = .failed) (hattempt : t.attempt = task.attempt + n + 1)
      (hfailures : t.failures = task.failures + (n + 1)) :
      Ending setup guild task (.ok ()) t ⟨some t, some (List.replicate (n + 1) false), true⟩
  /-- The handling of a failure raises: the failure was not manageable, or the
  guild would not take it. -/
  | stuck (e : PyExc) (x t : TaskRecord) (attempts : List Bool) (handled : Bool)
      (hid : t.taskId = task.taskId) (hstatus : t.status = .running)
      (hhandled : handled = false ∨ guild = true ∧ setup.dependable = false) :
      Ending setup guild task (.error e) x ⟨some t, some attempts, handled⟩

theorem Ending.taskId {guild : Bool} {task : TaskRecord} {outcome : Except PyExc Unit}
    {x : TaskRecord} {p : Progress} (hending : Ending setup guild task outcome x p) :
    ∀ t, p.latest = some t → t.taskId = task.taskId := by
  cases hending <;> rintro t ⟨⟩ <;> assumption

theorem Ending.latest {guild : Bool} {task : TaskRecord} {outcome : Except PyExc Unit}
    {x : TaskRecord} {p : Progress} (hending : Ending setup guild task outcome x p) :
    ∃ t, p.latest = some t := by
  cases hending <;> exact ⟨_, rfl⟩

end Conductor
