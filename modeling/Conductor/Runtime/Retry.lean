/-
The shipped retry strategies and the threshold escalation policy.  Delays are
exact rationals.  Random sources and input adjusters may depend on the calls made before, which
are of an arbitrary type `H` here.
-/
import Conductor.Interfaces
import Conductor.Python.Floats

namespace Conductor

/-- Retry while attempts remain; optionally escalate when exhausted. -/
structure DefaultRetryStrategy where
  enableEscalation : Bool
  escalationThreshold : Option Int

/-- Retry with exponentially increasing delays between attempts. -/
structure ExponentialBackoffRetryStrategy where
  baseDelay : Rat
  multiplier : Rat
  maxDelay : Rat
  enableEscalation : Bool
  escalationThreshold : Option Int

/-- Exponential backoff with full jitter. -/
structure JitteredBackoffRetryStrategy (H : Type) where
  baseDelay : Rat
  multiplier : Rat
  maxDelay : Rat
  enableEscalation : Bool
  escalationThreshold : Option Int
  randomFn : H → Rat

/-- A caller-supplied function from failure contexts to replacement inputs. -/
abbrev Adjuster (H : Type) := H → FailureContext → Except PyExc (Option Dict)

/-- The shipped strategies.  `inputAdjusting` without a base retries without a
delay; `inputAdjustingOver` takes delay and reason from its base. -/
inductive RetryStrategy (H : Type) where
  | default (strategy : DefaultRetryStrategy)
  | exponentialBackoff (strategy : ExponentialBackoffRetryStrategy)
  | jitteredBackoff (strategy : JitteredBackoffRetryStrategy H)
  | inputAdjusting (adjuster : Adjuster H) (enableEscalation : Bool)
      (escalationThreshold : Option Int)
  | inputAdjustingOver (adjuster : Adjuster H) (base : RetryStrategy H)
      (enableEscalation : Bool) (escalationThreshold : Option Int)

variable {H : Type}

/-- The branch that every strategy takes once `failure.attempt > failure.max_retries`. -/
def exhaustedDecision (enableEscalation : Bool) (escalationThreshold : Option Int)
    (failure : FailureContext) : RetryDecision where
  shouldRetry := false
  delaySeconds := none
  adjustedInput := none
  reason := some "Retry attempts exhausted"
  escalate := enableEscalation && match escalationThreshold with
    | none => true
    | some threshold => decide (threshold ≤ failure.attempt)

/-- `Retry <attempt> of <max_retries>`, the head of every retry reason. -/
def retryOf (failure : FailureContext) : String :=
  "Retry " ++ toString failure.attempt ++ " of " ++ toString failure.maxRetries

def DefaultRetryStrategy.decide (s : DefaultRetryStrategy)
    (failure : FailureContext) : Except PyExc RetryDecision :=
  if failure.attempt > failure.maxRetries then
    .ok (exhaustedDecision s.enableEscalation s.escalationThreshold failure)
  else
    .ok ⟨true, none, none, some (retryOf failure), false⟩

def ExponentialBackoffRetryStrategy.computeDelay
    (s : ExponentialBackoffRetryStrategy) (attempt : Int) : Except PyExc Rat :=
  (floatPow s.multiplier (attempt - 1)).map fun power =>
    min (s.baseDelay * power) s.maxDelay

def ExponentialBackoffRetryStrategy.decide (s : ExponentialBackoffRetryStrategy)
    (failure : FailureContext) : Except PyExc RetryDecision :=
  if failure.attempt > failure.maxRetries then
    .ok (exhaustedDecision s.enableEscalation s.escalationThreshold failure)
  else
    (s.computeDelay failure.attempt).map fun delay =>
      ⟨true, some delay, none,
        some (retryOf failure ++ " after " ++ formatFixed 2 delay ++ "s"), false⟩

def JitteredBackoffRetryStrategy.computeDelay
    (s : JitteredBackoffRetryStrategy H) (h : H) (attempt : Int) : Except PyExc Rat :=
  (floatPow s.multiplier (attempt - 1)).map fun power =>
    s.randomFn h * min (s.baseDelay * power) s.maxDelay

def JitteredBackoffRetryStrategy.decide (s : JitteredBackoffRetryStrategy H) (h : H)
    (failure : FailureContext) : Except PyExc RetryDecision :=
  if failure.attempt > failure.maxRetries then
    .ok (exhaustedDecision s.enableEscalation s.escalationThreshold failure)
  else
    (s.computeDelay h failure.attempt).map fun delay =>
      ⟨true, some delay, none,
        some (retryOf failure ++ " after " ++ formatFixed 3 delay ++ "s (jittered)"), false⟩

namespace RetryStrategy

def decide (h : H) (failure : FailureContext) :
    RetryStrategy H → Except PyExc RetryDecision
  | default strategy => strategy.decide failure
  | exponentialBackoff strategy => strategy.decide failure
  | jitteredBackoff strategy => strategy.decide h failure
  | inputAdjusting adjuster enableEscalation escalationThreshold =>
      if failure.attempt > failure.maxRetries then
        .ok (exhaustedDecision enableEscalation escalationThreshold failure)
      else
        (adjuster h failure).map fun adjusted =>
          ⟨true, none, adjusted, some (retryOf failure ++ " (adjusted input)"), false⟩
  | inputAdjustingOver adjuster base enableEscalation escalationThreshold =>
      if failure.attempt > failure.maxRetries then
        .ok (exhaustedDecision enableEscalation escalationThreshold failure)
      else
        match base.decide h failure with
        | .error e => .error e
        | .ok baseDecision =>
            (adjuster h failure).map fun adjusted =>
              ⟨true, baseDecision.delaySeconds, adjusted, baseDecision.reason, false⟩

/-- The escalation flag of the outermost strategy. -/
def enableEscalation : RetryStrategy H → Bool
  | default strategy => strategy.enableEscalation
  | exponentialBackoff strategy => strategy.enableEscalation
  | jitteredBackoff strategy => strategy.enableEscalation
  | inputAdjusting _ enableEscalation _ => enableEscalation
  | inputAdjustingOver _ _ enableEscalation _ => enableEscalation

/-- The escalation threshold of the outermost strategy. -/
def escalationThreshold : RetryStrategy H → Option Int
  | default strategy => strategy.escalationThreshold
  | exponentialBackoff strategy => strategy.escalationThreshold
  | jitteredBackoff strategy => strategy.escalationThreshold
  | inputAdjusting _ _ threshold => threshold
  | inputAdjustingOver _ _ _ threshold => threshold

/-- Past the budget every strategy stops, and never raises. -/
theorem decide_of_exhausted (strategy : RetryStrategy H) (h : H)
    {failure : FailureContext} (hattempt : failure.maxRetries < failure.attempt) :
    strategy.decide h failure = .ok
      (exhaustedDecision strategy.enableEscalation strategy.escalationThreshold failure) := by
  cases strategy <;>
    simp [decide, enableEscalation, escalationThreshold, hattempt,
      DefaultRetryStrategy.decide, ExponentialBackoffRetryStrategy.decide,
      JitteredBackoffRetryStrategy.decide]

/-- Within the budget every strategy that does not raise retries. -/
theorem decide_of_budget (strategy : RetryStrategy H) (h : H)
    {failure : FailureContext} (hattempt : failure.attempt ≤ failure.maxRetries)
    {decision : RetryDecision} (hdecide : strategy.decide h failure = .ok decision) :
    decision.shouldRetry = true ∧ decision.escalate = false := by
  have hbudget : ¬ failure.attempt > failure.maxRetries := Int.not_lt.mpr hattempt
  cases strategy with
  | default strategy =>
      simp only [decide, DefaultRetryStrategy.decide, hbudget, if_false] at hdecide
      cases hdecide
      exact ⟨rfl, rfl⟩
  | exponentialBackoff strategy =>
      simp only [decide, ExponentialBackoffRetryStrategy.decide, hbudget, if_false] at hdecide
      cases hdelay : strategy.computeDelay failure.attempt <;> rw [hdelay] at hdecide <;>
        cases hdecide
      exact ⟨rfl, rfl⟩
  | jitteredBackoff strategy =>
      simp only [decide, JitteredBackoffRetryStrategy.decide, hbudget, if_false] at hdecide
      cases hdelay : strategy.computeDelay h failure.attempt <;> rw [hdelay] at hdecide <;>
        cases hdecide
      exact ⟨rfl, rfl⟩
  | inputAdjusting adjuster _ _ =>
      simp only [decide, hbudget, if_false] at hdecide
      cases hadjust : adjuster h failure <;> rw [hadjust] at hdecide <;> cases hdecide
      exact ⟨rfl, rfl⟩
  | inputAdjustingOver adjuster base _ _ =>
      simp only [decide, hbudget, if_false] at hdecide
      cases hbase : base.decide h failure <;> rw [hbase] at hdecide
      · cases hdecide
      · cases hadjust : adjuster h failure <;> simp only [hadjust] at hdecide <;> cases hdecide
        exact ⟨rfl, rfl⟩

end RetryStrategy

structure EscalationConfig where
  maxRetriesBeforeEscalate : Int
  escalationReason : Option String

/-- Escalates when accumulated failures reach the configured threshold. -/
structure ThresholdEscalationPolicy where
  config : EscalationConfig

namespace ThresholdEscalationPolicy

def shouldEscalate (policy : ThresholdEscalationPolicy)
    (history : List FailureContext) : Bool :=
  decide (policy.config.maxRetriesBeforeEscalate ≤ history.length)

def buildRecord (policy : ThresholdEscalationPolicy) (task : TaskRecord)
    (history : List FailureContext) (escalatedAt : Time) : EscalationRecord where
  taskId := task.taskId
  capability := task.capability
  totalAttempts := task.attempt
  failureHistory := history
  escalatedAt := escalatedAt
  reason :=
    let threshold := "Escalation threshold reached after " ++
      toString history.length ++ " failure(s)"
    some (match policy.config.escalationReason with
      | some reason => if reason.isEmpty then threshold else reason
      | none => threshold)

end ThresholdEscalationPolicy

end Conductor
