/-
What the attempts of `run_task` amount to.  The strategy sets a limit and the
escalation policy a point of escalation; with the first success they determine
how many attempts there are and how the task ends.
-/
import Conductor.Effects.Trials
import Conductor.Supervisor.Starts

namespace Conductor

open Effects

variable {strategy : RetryStrategy Trace} {policy : Option ThresholdEscalationPolicy}
  {setup : Setup} {sup : Supervisor} {env : Env} {task t : TaskRecord} {n : Nat}

/-- The last attempt that the strategy allows. -/
def attemptLimit (maxRetries : Int) : Nat := (max maxRetries 0).toNat + 1

/-- The number of failures at which the policy escalates. -/
def escalationPoint : Option ThresholdEscalationPolicy → ℕ∞
  | none => ⊤
  | some policy => (max 1 policy.config.maxRetriesBeforeEscalate).toNat

theorem attemptBudget_eq (hattempt : task.attempt = 0) :
    attemptBudget task = attemptLimit task.maxRetries := by
  unfold attemptBudget attemptLimit
  omega

theorem escalationPoint_le_iff (hn : 1 ≤ n) :
    escalationPoint setup.policy ≤ n ↔ setup.Triggers n := by
  unfold Setup.Triggers
  cases setup.policy with
  | none => simp [escalationPoint]
  | some policy =>
      simp only [escalationPoint, Option.mem_def, Option.some.injEq, exists_eq_left', Nat.cast_le]
      omega

theorem one_le_escalationPoint (policy : Option ThresholdEscalationPolicy) :
    1 ≤ escalationPoint policy := by
  cases policy with
  | none => exact le_top
  | some policy =>
      have hone : 1 ≤ (max 1 policy.config.maxRetriesBeforeEscalate).toNat := by omega
      exact Nat.one_le_cast.mpr hone

/-- There is another attempt as long as neither limit is reached. -/
theorem Setup.Retries.lt_escalationPoint (hretries : setup.Retries task n) :
    (n : ℕ∞) < escalationPoint setup.policy := by
  rcases Nat.eq_zero_or_pos n with rfl | hn
  · exact lt_of_lt_of_le (by simp) (one_le_escalationPoint setup.policy)
  · rcases hretries.2 with hzero | htriggers
    · omega
    · exact not_le.mp (mt (escalationPoint_le_iff hn).mp htriggers)

theorem Setup.Retries.succ_le_escalationPoint (hretries : setup.Retries task n) :
    ((n + 1 : ℕ) : ℕ∞) ≤ escalationPoint setup.policy :=
  (ENat.add_one_le_iff (ENat.natCast_ne_top n)).mpr hretries.lt_escalationPoint

open Classical in
/-- The status that the attempts lead to, by the number of the first success,
the limit of the strategy and the point of escalation. -/
noncomputable def finalStatus (strategy : RetryStrategy Trace)
    (policy : Option ThresholdEscalationPolicy) (maxRetries : Int) (success : ℕ∞) : TaskStatus :=
  if success ≤ attemptLimit maxRetries ∧ success ≤ escalationPoint policy then .completed
  else if escalationPoint policy ≤ attemptLimit maxRetries ∨
      strategy.enableEscalation = true ∧
        ∀ threshold ∈ strategy.escalationThreshold, threshold ≤ attemptLimit maxRetries then
    .escalated
  else .failed

/-- The attempts end with the first success or at the first limit. -/
structure RetryLaw (strategy : RetryStrategy Trace) (policy : Option ThresholdEscalationPolicy)
    (maxRetries : Int) (success : ℕ∞) (attempts : Nat) (status : TaskStatus) : Prop where
  attempts : (attempts : ℕ∞) = min success (min (attemptLimit maxRetries) (escalationPoint policy))
  status : status = finalStatus strategy policy maxRetries success

theorem escalates_at_limit (hattempt : task.attempt = 0)
    (hlimit : attemptLimit task.maxRetries = n + 1) :
    setup.Escalates (task.attempt + n + 1) ↔ setup.strategy.enableEscalation = true ∧
      ∀ threshold ∈ setup.strategy.escalationThreshold,
        threshold ≤ attemptLimit task.maxRetries := by
  simp only [Setup.Escalates, hattempt, hlimit, Nat.cast_add, Nat.cast_one, zero_add]

theorem RetryLaw.of_ending {dependable guild : Bool} {outcome : Except PyExc Unit} {p : Progress}
    (hending : Ending ⟨strategy, policy, dependable⟩ guild task outcome t p)
    (hdependable : dependable = true) (hattempt : task.attempt = 0) {log : List Bool}
    (hlog : p.attempts = some log) (hhandled : p.handled = true) {pattern : Nat → Bool}
    (hplays : Plays pattern log) :
    outcome = .ok () ∧ p.latest = some t ∧
      RetryLaw strategy policy task.maxRetries (firstSuccess pattern) log.length t.status := by
  have hlimit := attemptBudget_eq hattempt
  cases hending with
  | unstarted => cases hlog
  | completed t n hid hretries hstatus =>
      cases hlog
      have hpoint := hretries.succ_le_escalationPoint
      have hbelow : ((n + 1 : ℕ) : ℕ∞) ≤ attemptLimit task.maxRetries := by
        rw [← hlimit]
        exact Nat.cast_le.mpr hretries.1
      refine ⟨rfl, rfl, ?_, ?_⟩ <;> rw [firstSuccess_eq_of_plays hplays]
      · rw [min_eq_left (le_min hbelow hpoint)]
        simp
      · rw [hstatus, finalStatus, if_pos ⟨hbelow, hpoint⟩]
  | cutOff outcome t n hid hretries hbudget htriggers hstatus _ _ _ houtcome =>
      cases hlog
      have hlater := lt_firstSuccess_of_plays hplays
      have hpoint : escalationPoint policy = (n + 1 : ℕ) :=
        le_antisymm ((escalationPoint_le_iff (Nat.le_add_left 1 n)).mpr htriggers)
          hretries.succ_le_escalationPoint
      have hbelow : escalationPoint policy ≤ attemptLimit task.maxRetries := by
        rw [hpoint, ← hlimit]
        exact Nat.cast_le.mpr hbudget.le
      rw [← hpoint] at hlater
      refine ⟨houtcome hdependable, rfl, ?_, ?_⟩
      · rw [min_eq_right hbelow, min_eq_right hlater.le, hpoint]
        simp
      · rw [hstatus, finalStatus, if_neg fun h => absurd h.2 (not_le.mpr hlater),
          if_pos (.inl hbelow)]
  | escalated outcome t n hid hretries hbudget hescalates hstatus _ _ _ houtcome =>
      cases hlog
      rw [hlimit] at hbudget
      have hlater := lt_firstSuccess_of_plays hplays
      have hpoint := hretries.succ_le_escalationPoint
      rw [escalates_at_limit hattempt hbudget,
        ← escalationPoint_le_iff (Nat.le_add_left 1 n), ← hbudget, or_comm] at hescalates
      rw [← hbudget] at hlater hpoint
      refine ⟨houtcome hdependable, rfl, ?_, ?_⟩
      · rw [min_eq_left hpoint, min_eq_right hlater.le, hbudget]
        simp
      · rw [hstatus, finalStatus, if_neg fun h => absurd h.1 (not_le.mpr hlater),
          if_pos hescalates]
  | failed t n hid hretries hbudget hescalates htriggers hstatus =>
      cases hlog
      rw [hlimit] at hbudget
      have hlater := lt_firstSuccess_of_plays hplays
      have hpoint := hretries.succ_le_escalationPoint
      rw [escalates_at_limit hattempt hbudget] at hescalates
      rw [← escalationPoint_le_iff (Nat.le_add_left 1 n), ← hbudget] at htriggers
      rw [← hbudget] at hlater hpoint
      refine ⟨rfl, rfl, ?_, ?_⟩
      · rw [min_eq_left hpoint, min_eq_right hlater.le, hbudget]
        simp
      · rw [hstatus, finalStatus, if_neg fun h => absurd h.1 (not_le.mpr hlater),
          if_neg fun h => h.elim htriggers hescalates]
  | stuck e x t attempts handled hid hstatus hunhandled =>
      rcases hunhandled with hunhandled | ⟨-, hundependable⟩
      · exact absurd (hunhandled.symm.trans hhandled) Bool.false_ne_true
      · exact absurd (hundependable.symm.trans hdependable) Bool.false_ne_true

/-- A task that `run_task` would start. -/
def Executable (task : TaskRecord) : Prop :=
  task.status = .pending ∨ task.status = .approved

theorem Executable.not_attempted (hexecutable : Executable task) :
    task.status.attempted = false := by
  rcases hexecutable with hstatus | hstatus <;> rw [hstatus] <;> rfl

/-- The outcomes of the attempts since the last start of a task, the last one
first. -/
def attemptLog (h : Trace) : List Bool := (progress h).attempts.getD []

/-- Collaborators of an unconfigured supervisor whose capability fails in its
first `n` attempts. -/
def Env.failingUntil (n : Nat) : Env :=
  .unconfigured fun h _ _ _ _ =>
    if (attemptLog h).length < n then .error (.exception "RuntimeError" "boom")
    else .ok ⟨.none, []⟩

theorem failingUntil_configures (n : Nat) (dependable : Bool) :
    Setup.Configures ⟨.default ⟨false, none⟩, none, dependable⟩ (.unconfigured ["echo"])
      (.failingUntil n) :=
  Setup.configures_withRetryStrategy (.default ⟨false, none⟩) dependable (.failingUntil n) rfl

theorem failingUntil_error {n : Nat} {h : Trace} {capability : String} {payload : Value}
    {context : CapabilityContext} {timeout : Option Rat} {e : PyExc}
    (herror : (Env.failingUntil n).execute h capability payload context timeout = .error e) :
    e = .exception "RuntimeError" "boom" := by
  simp only [Env.failingUntil, Env.unconfigured] at herror
  split at herror <;> cases herror
  rfl

theorem failingUntil_uninterrupted (n : Nat) : (Env.failingUntil n).Uninterrupted where
  validateInput _ _ _ _ h := by cases h
  execute _ _ _ _ _ _ h := by
    rw [failingUntil_error h]
    rfl
  emit _ _ _ h := by cases h

/-- A task that may be retried once, in an otherwise empty store. -/
def retriedOnce : State := ⟨[], worldWith { foundTask .pending with maxRetries := 1 }⟩

/-- The retry outcome law.  With any shipped strategy, with or without a
threshold policy, `run_task` ends, and on a task that everybody lets through it
comes to the attempts.  If the failures of the run could be handled, with inputs
that can be serialised and no delay that overflows, it makes as many attempts
and leaves the status that the law says, for every pattern that the attempts
came out by. -/
theorem retry_outcome_law (strategy : RetryStrategy Trace)
    (policy : Option ThresholdEscalationPolicy) (sup : Supervisor) (env : Env) (k : State)
    (taskId : TaskId) (task : TaskRecord) (fuel : Nat)
    (hsetup : Setup.Configures ⟨strategy, policy, true⟩ sup env)
    (huninterrupted : env.Uninterrupted) (hsafe : GuildSafe sup env)
    (hlistens : GuildListens sup env) (hkeyed : k.state.store.Keyed)
    (hstored : k.state.store.get taskId = some task) (hexecutable : Executable task)
    (hattempt : task.attempt = 0) (hfuel : attemptLimit task.maxRetries ≤ fuel) :
    ∃ outcome k', ((runTask sup fuel taskId).run ()).exec env.machine k =
        (some (outcome, ()), k') ∧
      (env.Starts sup task → (progress k'.history).attempts.isSome = true) ∧
      ∀ log, (progress k'.history).attempts = some log → (progress k'.history).handled = true →
        ∀ pattern, Plays pattern log →
          ∃ r, outcome = .ok r ∧ k'.state.store.get taskId = some r ∧
            RetryLaw strategy policy task.maxRetries (firstSuccess pattern) log.length
              r.status := by
  rw [← attemptBudget_eq hattempt] at hfuel
  obtain ⟨outcome, r, k', hexec, hending, hcurrent⟩ := runTask_ends hsetup huninterrupted hsafe
    (fun _ => hlistens) hkeyed hstored hexecutable.not_attempted hfuel
  refine ⟨_, k', hexec, ?_, ?_⟩
  · intro hstarts
    have hbegun := runTask_starts hstarts huninterrupted hstored fuel hexecutable
    exact ((env.machine.wp_iff_exec _ _ _ _).mp hbegun).1 _ _ hexec
  · intro log hlog hhandled pattern hplays
    have hid := hending.taskId
    obtain ⟨rfl, hlatest, hlaw⟩ :=
      RetryLaw.of_ending hending rfl hattempt hlog hhandled hplays
    refine ⟨r, rfl, ?_, hlaw⟩
    rw [← hkeyed taskId task hstored, ← hid r hlatest]
    exact hcurrent.2 r hlatest

/-- The backoff strategy as it is configured by default. -/
def defaultBackoff : RetryStrategy Trace := .exponentialBackoff ⟨1, 2, 60, false, none⟩

theorem backingOff_starts (n : Nat) :
    ((Env.failingUntil n).withRetryStrategy defaultBackoff).Starts (.unconfigured ["echo"])
      { foundTask .pending with maxRetries := 1 } where
  admits := by
    refine ⟨?_, ?_, ?_⟩ <;> decide +kernel
  validateInput _ _ := ⟨_, rfl⟩
  descriptor _ _ _ := ⟨_, rfl, rfl⟩
  evaluate _ _ _ _ := ⟨_, rfl, rfl⟩
  suggest hsuggests := by cases hsuggests
  sleep _ _ _ := rfl

theorem retry_outcome_law_backingOff :
    ∃ outcome k' log, ((runTask (.unconfigured ["echo"]) 2 "t").run ()).exec
        ((Env.failingUntil 1).withRetryStrategy defaultBackoff).machine retriedOnce =
          (some (outcome, ()), k') ∧
      (progress k'.history).attempts = some log ∧ ∀ pattern, Plays pattern log →
        ∃ r, outcome = .ok r ∧ k'.state.store.get "t" = some r ∧
          RetryLaw defaultBackoff none 1 (firstSuccess pattern) log.length r.status := by
  have huninterrupted := failingUntil_uninterrupted 1
  obtain ⟨outcome, k', hexec, hbegun, hlaw⟩ := retry_outcome_law defaultBackoff none
    (.unconfigured ["echo"]) ((Env.failingUntil 1).withRetryStrategy defaultBackoff) retriedOnce
    "t" { foundTask .pending with maxRetries := 1 } 2
    (Setup.configures_withRetryStrategy defaultBackoff true (.failingUntil 1) rfl)
    ⟨huninterrupted.validateInput, huninterrupted.execute, huninterrupted.emit⟩
    (fun h => by cases h) (fun h => by cases h) (worldWith_keyed _) rfl (.inl rfl) rfl (by decide)
  obtain ⟨log, hlog⟩ := Option.isSome_iff_exists.mp (hbegun (backingOff_starts 1))
  have hhandled : (progress (((runTask (.unconfigured ["echo"]) 2 "t").run ()).exec
      ((Env.failingUntil 1).withRetryStrategy defaultBackoff).machine
        retriedOnce).2.history).handled = true := by decide +kernel
  rw [hexec] at hhandled
  exact ⟨outcome, k', log, hexec, hlog, hlaw log hlog hhandled⟩

/-- The attempt counter, the failures on record and the escalation record agree
with the number of attempts. -/
structure CountsAttempts (task : TaskRecord) (attempts : Nat) : Prop where
  attempt : task.attempt = attempts
  failures : task.failures + (if task.status = .completed then 1 else 0) = attempts
  escalation : ∀ result ∈ task.result, ∀ record : EscalationRecord, task.status = .escalated →
    result.metadata.lookup "escalation_record" = some (.dict record.modelDump) →
      record.totalAttempts = record.failureHistory.length

theorem TaskRecord.EscalationTells.counts (htells : t.EscalationTells n)
    (hattempt : t.attempt = n) : ∀ result ∈ t.result, ∀ record : EscalationRecord,
      t.status = .escalated →
      result.metadata.lookup "escalation_record" = some (.dict record.modelDump) →
        record.totalAttempts = record.failureHistory.length := by
  intro result hresult record _ hrecord
  obtain ⟨told, htold, htotal, hlength⟩ := htells result hresult _ hrecord
  have hsame : record.totalAttempts = told.totalAttempts ∧
      record.failureHistory.length = told.failureHistory.length := by
    simp only [EscalationRecord.modelDump, Value.dict.injEq, List.cons.injEq, Prod.mk.injEq,
      Value.int.injEq, Value.list.injEq, true_and] at htold
    refine ⟨htold.2.2.1, ?_⟩
    simpa using congrArg List.length htold.2.2.2.1
  rw [hsame.1, hsame.2, htotal, hlength, hattempt]

theorem CountsAttempts.iff_of_ending {dependable guild : Bool} {outcome : Except PyExc Unit}
    {x : TaskRecord} {p : Progress}
    (hending : Ending ⟨strategy, policy, dependable⟩ guild task outcome x p)
    (hattempt : task.attempt = 0) (hfailures : task.failures = 0) (hlatest : p.latest = some t)
    (hended : t.status = .completed ∨ t.status = .failed ∨ t.status = .escalated)
    {pattern : Nat → Bool} (hplays : Plays pattern (p.attempts.getD [])) :
    CountsAttempts t (p.attempts.getD []).length ↔
      ¬ (escalationPoint policy < attemptLimit task.maxRetries ∧
        escalationPoint policy < firstSuccess pattern) := by
  have hlimit := attemptBudget_eq hattempt
  cases hending with
  | unstarted outcome x t hid hstatus =>
      cases hlatest
      rcases hended with hended | hended | hended <;> rw [hended] at hstatus <;> cases hstatus
  | completed t n hid hretries hstatus hcounter hrecorded =>
      cases hlatest
      refine iff_of_true ⟨?_, ?_, ?_⟩ fun h => ?_
      · simp [hcounter, hattempt]
      · simp [hrecorded, hfailures, hstatus]
      · intro _ _ _ hescalated
        rw [hstatus] at hescalated
        cases hescalated
      · rw [firstSuccess_eq_of_plays hplays] at h
        exact absurd hretries.succ_le_escalationPoint (not_le.mpr h.2)
  | cutOff outcome t n hid hretries hbudget htriggers hstatus hcounter =>
      cases hlatest
      have hpoint : escalationPoint policy = (n + 1 : ℕ) :=
        le_antisymm ((escalationPoint_le_iff (Nat.le_add_left 1 n)).mpr htriggers)
          hretries.succ_le_escalationPoint
      refine iff_of_false ?_ (not_not.mpr ⟨?_, ?_⟩)
      · intro hcounts
        have hcount := hcounts.attempt
        simp only [Option.getD_some, List.length_replicate] at hcount
        omega
      · rw [hpoint, ← hlimit]
        exact Nat.cast_lt.mpr hbudget
      · rw [hpoint]
        exact lt_firstSuccess_of_plays hplays
  | escalated outcome t n hid hretries hbudget hescalates hstatus hcounter hrecorded htells =>
      cases hlatest
      have hpoint := hretries.succ_le_escalationPoint
      rw [← hbudget, hlimit] at hpoint
      refine iff_of_true ⟨?_, ?_, ?_⟩ fun h => absurd hpoint (not_le.mpr h.1)
      · simp [hcounter, hattempt]
      · simp [hrecorded, hfailures, hstatus]
      · exact htells.counts (by simp [hcounter, hattempt])
  | failed t n hid hretries hbudget hescalates htriggers hstatus hcounter hrecorded =>
      cases hlatest
      have hpoint := hretries.succ_le_escalationPoint
      rw [← hbudget, hlimit] at hpoint
      refine iff_of_true ⟨?_, ?_, ?_⟩ fun h => absurd hpoint (not_le.mpr h.1)
      · simp [hcounter, hattempt]
      · simp [hrecorded, hfailures, hstatus]
      · intro _ _ _ hescalated
        rw [hstatus] at hescalated
        cases hescalated
  | stuck e x t attempts handled hid hstatus =>
      cases hlatest
      rw [hstatus] at hended
      rcases hended with hended | hended | hended <;> cases hended

/-- The attempt counter counts the attempts exactly when the escalation policy
does not stop a task that the strategy would retry: `retry` counts the attempt
that the policy then prevents. -/
theorem attempt_counter_iff (strategy : RetryStrategy Trace)
    (policy : Option ThresholdEscalationPolicy) (sup : Supervisor) (env : Env) (k : State)
    (taskId : TaskId) (task : TaskRecord) (fuel : Nat)
    (hsetup : Setup.Configures ⟨strategy, policy, false⟩ sup env)
    (huninterrupted : env.Uninterrupted) (hsafe : GuildSafe sup env)
    (hkeyed : k.state.store.Keyed) (hstored : k.state.store.get taskId = some task)
    (hexecutable : Executable task) (hattempt : task.attempt = 0) (hfailures : task.failures = 0)
    (hfuel : attemptLimit task.maxRetries ≤ fuel) :
    ∃ outcome k', ((runTask sup fuel taskId).run ()).exec env.machine k =
        (some (outcome, ()), k') ∧
      ∀ r, k'.state.store.get taskId = some r →
        r.status = .completed ∨ r.status = .failed ∨ r.status = .escalated →
          ∀ pattern, Plays pattern (attemptLog k'.history) →
            (CountsAttempts r (attemptLog k'.history).length ↔
              ¬ (escalationPoint policy < attemptLimit task.maxRetries ∧
                escalationPoint policy < firstSuccess pattern)) := by
  rw [← attemptBudget_eq hattempt] at hfuel
  obtain ⟨outcome, x, k', hexec, hending, hcurrent⟩ := runTask_ends hsetup huninterrupted hsafe
    (fun h => by cases h) hkeyed hstored hexecutable.not_attempted hfuel
  refine ⟨_, k', hexec, ?_⟩
  intro r hr hended pattern hplays
  have hlatest : (progress k'.history).latest = some r := by
    obtain ⟨t, ht⟩ := hending.latest
    have hget := hcurrent.2 t ht
    rw [hending.taskId t ht, hkeyed taskId task hstored, hr] at hget
    rw [ht, hget]
  exact CountsAttempts.iff_of_ending hending hattempt hfailures hlatest hended hplays

/-- An unconfigured supervisor but for its escalation policy. -/
def Supervisor.escalating : Supervisor :=
  { Supervisor.unconfigured ["echo"] with escalationPolicy := true }

theorem attempt_counter_iff_failingUntil :
    ∃ outcome k', ((runTask .escalating 2 "t").run ()).exec
        ((Env.failingUntil 1).withEscalationPolicy ⟨⟨3, none⟩⟩).machine retriedOnce =
          (some (outcome, ()), k') ∧
      ∀ r, k'.state.store.get "t" = some r →
        r.status = .completed ∨ r.status = .failed ∨ r.status = .escalated →
          ∀ pattern, Plays pattern (attemptLog k'.history) →
            (CountsAttempts r (attemptLog k'.history).length ↔
              ¬ (escalationPoint (some ⟨⟨3, none⟩⟩) < attemptLimit 1 ∧
                escalationPoint (some ⟨⟨3, none⟩⟩) < firstSuccess pattern)) := by
  have huninterrupted := failingUntil_uninterrupted 1
  exact attempt_counter_iff (.default ⟨false, none⟩) (some ⟨⟨3, none⟩⟩) .escalating
    ((Env.failingUntil 1).withEscalationPolicy ⟨⟨3, none⟩⟩) retriedOnce "t"
    { foundTask .pending with maxRetries := 1 } 2
    ((failingUntil_configures 1 false).withEscalationPolicy ⟨⟨3, none⟩⟩)
    ⟨huninterrupted.validateInput, huninterrupted.execute, huninterrupted.emit⟩
    (fun h => by cases h) (worldWith_keyed _) rfl (.inl rfl) rfl rfl (by decide)

/-- A task that fails, escalated after one failure although it might be retried. -/
def cutOffRun : State :=
  (((runTask .escalating 2 "t").run ()).exec
    ((Env.failingUntil 2).withEscalationPolicy ⟨⟨1, none⟩⟩).machine retriedOnce).2

/-- One attempt was made and the counter stands at two. -/
theorem cut_off_overcounts :
    ∃ r, cutOffRun.state.store.get "t" = some r ∧ r.status = .escalated ∧
      ¬ CountsAttempts r (attemptLog cutOffRun.history).length := by
  have hlog : (attemptLog cutOffRun.history).length = 1 := by decide +kernel
  have hstored : (cutOffRun.state.store.get "t").map (fun r => (r.status, r.attempt)) =
      some (.escalated, 2) := by decide +kernel
  obtain ⟨r, hr, hfields⟩ := Option.map_eq_some_iff.mp hstored
  obtain ⟨hstatus, hattempt⟩ := Prod.mk.inj hfields
  refine ⟨r, hr, hstatus, ?_⟩
  intro hcounts
  have hcount := hcounts.attempt
  rw [hlog, hattempt] at hcount
  cases hcount

/-- A call without a guild leaves the task in `RUNNING` exactly if a failure of
its run could not be handled: the input could not be serialised, `str(exc)` was
no text, or the retry strategy or the delay it asked for raised. -/
theorem not_left_running_iff (strategy : RetryStrategy Trace)
    (policy : Option ThresholdEscalationPolicy) (sup : Supervisor) (env : Env) (k : State)
    (taskId : TaskId) (task : TaskRecord) (fuel : Nat)
    (hsetup : Setup.Configures ⟨strategy, policy, false⟩ sup env)
    (huninterrupted : env.Uninterrupted) (hguild : sup.guildKnowledge = false)
    (hkeyed : k.state.store.Keyed) (hstored : k.state.store.get taskId = some task)
    (hexecutable : Executable task) (hfuel : attemptBudget task ≤ fuel) :
    ∃ outcome k', ((runTask sup fuel taskId).run ()).exec env.machine k =
        (some (outcome, ()), k') ∧
      ∃ r, k'.state.store.get taskId = some r ∧
        (r.status ≠ .running ↔ (progress k'.history).handled = true) := by
  have hsafe : GuildSafe sup env := fun h => by simp [hguild] at h
  obtain ⟨outcome, x, k', hexec, hending, hcurrent⟩ := runTask_ends hsetup huninterrupted hsafe
    (fun h => by cases h) hkeyed hstored hexecutable.not_attempted hfuel
  refine ⟨_, k', hexec, ?_⟩
  obtain ⟨r, hlatest⟩ := hending.latest
  refine ⟨r, ?_, ?_⟩
  · rw [← hkeyed taskId task hstored, ← hending.taskId r hlatest]
    exact hcurrent.2 r hlatest
  · generalize progress k'.history = p at hending hlatest
    cases hending with
    | unstarted outcome x t hid hstatus =>
        cases hlatest
        refine iff_of_true ?_ rfl
        intro hrunning
        rw [hrunning] at hstatus
        cases hstatus
    | stuck e x t attempts handled hid hstatus hhandled =>
        cases hlatest
        rw [hguild] at hhandled
        obtain rfl : handled = false := hhandled.resolve_right fun h => Bool.false_ne_true h.1
        exact iff_of_false (fun h => h hstatus) Bool.false_ne_true
    | completed t n _ _ hstatus | failed t n _ _ _ _ _ hstatus =>
        cases hlatest
        simp [hstatus]
    | cutOff outcome t n _ _ _ _ hstatus | escalated outcome t n _ _ _ _ hstatus =>
        cases hlatest
        simp [hstatus]

theorem not_left_running_iff_failingUntil :
    ∃ outcome k', ((runTask (.unconfigured ["echo"]) 2 "t").run ()).exec
        (Env.failingUntil 1).machine retriedOnce = (some (outcome, ()), k') ∧
      ∃ r, k'.state.store.get "t" = some r ∧
        (r.status ≠ .running ↔ (progress k'.history).handled = true) :=
  not_left_running_iff (.default ⟨false, none⟩) none (.unconfigured ["echo"]) (.failingUntil 1)
    retriedOnce "t" { foundTask .pending with maxRetries := 1 } 2 (failingUntil_configures 1 false)
    (failingUntil_uninterrupted 1) rfl (worldWith_keyed _) rfl (.inl rfl) (by decide)

/-- A task whose input holds a set, and whose capability fails. -/
def unserialisableRun : State :=
  (((runTask (.unconfigured ["echo"]) 1 "t").run ()).exec (Env.failingUntil 1).machine
    ⟨[], worldWith { foundTask .pending with input := [("x", .object "set")] }⟩).2

/-- The fingerprint cannot be computed, and the task stays in `RUNNING`. -/
theorem unserialisable_left_running :
    ¬ ∀ r, unserialisableRun.state.store.get "t" = some r → r.status ≠ .running := by
  have hstored : (unserialisableRun.state.store.get "t").map (·.status) = some .running := by
    decide +kernel
  obtain ⟨r, hr, hstatus⟩ := Option.map_eq_some_iff.mp hstored
  intro hnever
  exact hnever r hr hstatus

end Conductor
