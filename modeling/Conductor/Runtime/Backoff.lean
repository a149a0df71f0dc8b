/-
The delays of the backoff strategies.  The power is computed before it is
capped, so the cap does not keep it from overflowing.
-/
import Conductor.Runtime.Retry

namespace Conductor

/-- The checks that both constructors make. -/
def checkBackoff (baseDelay multiplier maxDelay : Rat) : Except PyExc Unit :=
  if baseDelay ≤ 0 then .error (.valueError "base_delay must be > 0")
  else if multiplier < 1 then .error (.valueError "multiplier must be >= 1.0")
  else if maxDelay < baseDelay then .error (.valueError "max_delay must be >= base_delay")
  else .ok ()

def ExponentialBackoffRetryStrategy.construct (baseDelay multiplier maxDelay : Rat)
    (enableEscalation : Bool) (escalationThreshold : Option Int) :
    Except PyExc ExponentialBackoffRetryStrategy :=
  (checkBackoff baseDelay multiplier maxDelay).map fun _ =>
    ⟨baseDelay, multiplier, maxDelay, enableEscalation, escalationThreshold⟩

def JitteredBackoffRetryStrategy.construct {H : Type} (baseDelay multiplier maxDelay : Rat)
    (enableEscalation : Bool) (escalationThreshold : Option Int) (randomFn : H → Rat) :
    Except PyExc (JitteredBackoffRetryStrategy H) :=
  (checkBackoff baseDelay multiplier maxDelay).map fun _ =>
    ⟨baseDelay, multiplier, maxDelay, enableEscalation, escalationThreshold, randomFn⟩

/-- What the constructors accept. -/
structure BackoffBounds (baseDelay multiplier maxDelay : Rat) : Prop where
  base_pos : 0 < baseDelay
  one_le : 1 ≤ multiplier
  base_le : baseDelay ≤ maxDelay

theorem checkBackoff_ok {baseDelay multiplier maxDelay : Rat} {u : Unit}
    (hcheck : checkBackoff baseDelay multiplier maxDelay = .ok u) :
    BackoffBounds baseDelay multiplier maxDelay := by
  unfold checkBackoff at hcheck
  split at hcheck
  · cases hcheck
  · next hbase =>
      split at hcheck
      · cases hcheck
      · next hone =>
          split at hcheck
          · cases hcheck
          · next hmax => exact ⟨not_le.mp hbase, not_lt.mp hone, not_lt.mp hmax⟩

/-- The strategy retries after this delay, which lies within the maximum. -/
def RetriesAfter (maxDelay : Rat) (outcome : Except PyExc RetryDecision) (delay : Rat) : Prop :=
  ∃ decision, outcome = .ok decision ∧ decision.shouldRetry = true ∧
    decision.delaySeconds = some delay ∧ 0 ≤ delay ∧ delay ≤ maxDelay

/-- The delay after a failure is at least the base delay and no delay after an
earlier attempt is longer. -/
def ExponentialBackoffRetryStrategy.Safe (s : ExponentialBackoffRetryStrategy)
    (failure : FailureContext) : Prop :=
  ∃ delay, RetriesAfter s.maxDelay (s.decide failure) delay ∧ s.baseDelay ≤ delay ∧
    ∀ earlier : FailureContext, 1 ≤ earlier.attempt → earlier.attempt ≤ failure.attempt →
      earlier.attempt ≤ earlier.maxRetries →
      ∃ delay', RetriesAfter s.maxDelay (s.decide earlier) delay' ∧ delay' ≤ delay

/-- The jittered delay is no longer than that of the exponential strategy. -/
def JitteredBackoffRetryStrategy.Safe {H : Type} (j : JitteredBackoffRetryStrategy H)
    (s : ExponentialBackoffRetryStrategy) (h : H) (failure : FailureContext) : Prop :=
  ∃ delay full, RetriesAfter j.maxDelay (j.decide h failure) delay ∧
    RetriesAfter s.maxDelay (s.decide failure) full ∧ delay ≤ full

/-- The power by which the base delay is multiplied. -/
def backoffPower (multiplier : Rat) (attempt : Int) : Rat := multiplier ^ (attempt - 1).toNat

/-- The exponential delay, where its power does not overflow. -/
def cappedDelay (baseDelay multiplier maxDelay : Rat) (attempt : Int) : Rat :=
  min (baseDelay * backoffPower multiplier attempt) maxDelay

section Delays

variable {baseDelay multiplier maxDelay : Rat} {attempt earlier : Int}

theorem floatPow_backoff (hbounds : BackoffBounds baseDelay multiplier maxDelay)
    (hattempt : 1 ≤ attempt) :
    floatPow multiplier (attempt - 1) =
      if backoffPower multiplier attempt < 2 ^ 1024 then .ok (backoffPower multiplier attempt)
      else .error (.exception "OverflowError" "(34, 'Numerical result out of range')") := by
  have hone := hbounds.one_le
  have hnonneg : 0 ≤ attempt - 1 := by omega
  have hbase : ¬ (multiplier = 0 ∧ attempt - 1 < 0) := by omega
  have hpower : 0 ≤ multiplier ^ (attempt - 1).toNat := by positivity
  unfold floatPow backoffPower
  rw [if_neg hbase, if_pos hnonneg]
  dsimp only
  rw [abs_of_nonneg hpower]
  simp only [← not_lt, ite_not]

theorem one_le_backoffPower (hbounds : BackoffBounds baseDelay multiplier maxDelay)
    (attempt : Int) : 1 ≤ backoffPower multiplier attempt :=
  one_le_pow₀ hbounds.one_le

theorem backoffPower_mono (hbounds : BackoffBounds baseDelay multiplier maxDelay)
    (hle : earlier ≤ attempt) : backoffPower multiplier earlier ≤ backoffPower multiplier attempt :=
  pow_le_pow_right₀ hbounds.one_le (by omega)

theorem base_le_cappedDelay (hbounds : BackoffBounds baseDelay multiplier maxDelay)
    (attempt : Int) : baseDelay ≤ cappedDelay baseDelay multiplier maxDelay attempt := by
  apply le_min
  · exact le_mul_of_one_le_right hbounds.base_pos.le (one_le_backoffPower hbounds attempt)
  · exact hbounds.base_le

theorem cappedDelay_mono (hbounds : BackoffBounds baseDelay multiplier maxDelay)
    (hle : earlier ≤ attempt) : cappedDelay baseDelay multiplier maxDelay earlier ≤
      cappedDelay baseDelay multiplier maxDelay attempt := by
  apply min_le_min_right
  exact mul_le_mul_of_nonneg_left (backoffPower_mono hbounds hle) hbounds.base_pos.le

end Delays

def powerOverflow : PyExc := .exception "OverflowError" "(34, 'Numerical result out of range')"

/-- A decision that carries its delay, unless the delay could not be computed. -/
theorem retriesAfter_map {maxDelay value : Rat} {p : Prop} [Decidable p]
    {decision : Rat → RetryDecision} (hretry : ∀ delay, (decision delay).shouldRetry = true)
    (hdelay : ∀ delay, (decision delay).delaySeconds = some delay) (hnonneg : 0 ≤ value)
    (hmax : value ≤ maxDelay) (delay : Rat) :
    RetriesAfter maxDelay
        (Except.map decision (if p then .ok value else .error powerOverflow)) delay ↔
      p ∧ delay = value := by
  by_cases hp : p
  · rw [if_pos hp]
    constructor
    · intro hafter
      obtain ⟨_, hdecision, _, hsome, _⟩ := hafter
      cases hdecision
      rw [hdelay] at hsome
      exact ⟨hp, (Option.some.inj hsome).symm⟩
    · intro hvalue
      rw [hvalue.2]
      exact ⟨_, rfl, hretry value, hdelay value, hnonneg, hmax⟩
  · rw [if_neg hp]
    constructor
    · intro hafter
      obtain ⟨_, hdecision, _⟩ := hafter
      cases hdecision
    · exact fun hvalue => absurd hvalue.1 hp

section Decisions

variable {H : Type} {failure : FailureContext} {h : H}

theorem ExponentialBackoffRetryStrategy.retriesAfter_iff {s : ExponentialBackoffRetryStrategy}
    (hbounds : BackoffBounds s.baseDelay s.multiplier s.maxDelay) (hone : 1 ≤ failure.attempt)
    (hbudget : failure.attempt ≤ failure.maxRetries) (delay : Rat) :
    RetriesAfter s.maxDelay (s.decide failure) delay ↔
      backoffPower s.multiplier failure.attempt < 2 ^ 1024 ∧
        delay = cappedDelay s.baseDelay s.multiplier s.maxDelay failure.attempt := by
  have hcompute : s.computeDelay failure.attempt =
      if backoffPower s.multiplier failure.attempt < 2 ^ 1024 then
        .ok (cappedDelay s.baseDelay s.multiplier s.maxDelay failure.attempt)
      else .error powerOverflow := by
    rw [ExponentialBackoffRetryStrategy.computeDelay, floatPow_backoff hbounds hone]
    split <;> rfl
  rw [ExponentialBackoffRetryStrategy.decide, if_neg (not_lt.mpr hbudget), hcompute]
  apply retriesAfter_map
  · exact fun _ => rfl
  · exact fun _ => rfl
  · exact hbounds.base_pos.le.trans (base_le_cappedDelay hbounds failure.attempt)
  · exact min_le_right _ _

theorem JitteredBackoffRetryStrategy.retriesAfter_iff {j : JitteredBackoffRetryStrategy H}
    (hbounds : BackoffBounds j.baseDelay j.multiplier j.maxDelay)
    (hrandom : 0 ≤ j.randomFn h ∧ j.randomFn h < 1) (hone : 1 ≤ failure.attempt)
    (hbudget : failure.attempt ≤ failure.maxRetries) (delay : Rat) :
    RetriesAfter j.maxDelay (j.decide h failure) delay ↔
      backoffPower j.multiplier failure.attempt < 2 ^ 1024 ∧ delay =
        j.randomFn h * cappedDelay j.baseDelay j.multiplier j.maxDelay failure.attempt := by
  have hcapped := hbounds.base_pos.le.trans (base_le_cappedDelay hbounds failure.attempt)
  have hcompute : j.computeDelay h failure.attempt =
      if backoffPower j.multiplier failure.attempt < 2 ^ 1024 then
        .ok (j.randomFn h * cappedDelay j.baseDelay j.multiplier j.maxDelay failure.attempt)
      else .error powerOverflow := by
    rw [JitteredBackoffRetryStrategy.computeDelay, floatPow_backoff hbounds hone]
    split <;> rfl
  rw [JitteredBackoffRetryStrategy.decide, if_neg (not_lt.mpr hbudget), hcompute]
  apply retriesAfter_map
  · exact fun _ => rfl
  · exact fun _ => rfl
  · exact mul_nonneg hrandom.1 hcapped
  · exact (mul_le_of_le_one_left hcapped hrandom.2.le).trans (min_le_right _ _)

theorem ExponentialBackoffRetryStrategy.safe_iff {s : ExponentialBackoffRetryStrategy}
    (hbounds : BackoffBounds s.baseDelay s.multiplier s.maxDelay) (hone : 1 ≤ failure.attempt)
    (hbudget : failure.attempt ≤ failure.maxRetries) :
    s.Safe failure ↔ backoffPower s.multiplier failure.attempt < 2 ^ 1024 := by
  constructor
  · intro hsafe
    obtain ⟨delay, hretries, _⟩ := hsafe
    exact ((s.retriesAfter_iff hbounds hone hbudget delay).mp hretries).1
  · intro hsmall
    refine ⟨_, (s.retriesAfter_iff hbounds hone hbudget _).mpr ⟨hsmall, rfl⟩,
      base_le_cappedDelay hbounds _, ?_⟩
    intro earlier hone' hle hbudget'
    have hsmall' := (backoffPower_mono hbounds hle).trans_lt hsmall
    exact ⟨_, (s.retriesAfter_iff hbounds hone' hbudget' _).mpr ⟨hsmall', rfl⟩,
      cappedDelay_mono hbounds hle⟩

theorem JitteredBackoffRetryStrategy.safe_iff {j : JitteredBackoffRetryStrategy H}
    {s : ExponentialBackoffRetryStrategy}
    (hbounds : BackoffBounds s.baseDelay s.multiplier s.maxDelay)
    (hbase : j.baseDelay = s.baseDelay) (hmultiplier : j.multiplier = s.multiplier)
    (hmax : j.maxDelay = s.maxDelay) (hrandom : 0 ≤ j.randomFn h ∧ j.randomFn h < 1)
    (hone : 1 ≤ failure.attempt) (hbudget : failure.attempt ≤ failure.maxRetries) :
    j.Safe s h failure ↔ backoffPower s.multiplier failure.attempt < 2 ^ 1024 := by
  have hbounds' : BackoffBounds j.baseDelay j.multiplier j.maxDelay := by
    rw [hbase, hmultiplier, hmax]
    exact hbounds
  constructor
  · intro hsafe
    obtain ⟨delay, full, _, hretries, _⟩ := hsafe
    exact ((s.retriesAfter_iff hbounds hone hbudget full).mp hretries).1
  · intro hsmall
    have hcapped := hbounds.base_pos.le.trans (base_le_cappedDelay hbounds failure.attempt)
    refine ⟨_, _, (j.retriesAfter_iff hbounds' hrandom hone hbudget _).mpr ⟨?_, rfl⟩,
      (s.retriesAfter_iff hbounds hone hbudget _).mpr ⟨hsmall, rfl⟩, ?_⟩
    · rw [hmultiplier]
      exact hsmall
    · rw [hbase, hmultiplier, hmax]
      exact mul_le_of_le_one_left hcapped hrandom.2.le

end Decisions

/-- Within the budget both backoff strategies of accepted parameters are safe at an
attempt just where the power of that attempt does not overflow. -/
theorem backoff_safe_iff {H : Type} {baseDelay multiplier maxDelay : Rat}
    {enableEscalation enableEscalation' : Bool}
    {escalationThreshold escalationThreshold' : Option Int} (randomFn : H → Rat)
    {s : ExponentialBackoffRetryStrategy} {j : JitteredBackoffRetryStrategy H}
    (hs : ExponentialBackoffRetryStrategy.construct baseDelay multiplier maxDelay enableEscalation
      escalationThreshold = .ok s)
    (hj : JitteredBackoffRetryStrategy.construct baseDelay multiplier maxDelay enableEscalation'
      escalationThreshold' randomFn = .ok j)
    (hrandom : ∀ h, 0 ≤ randomFn h ∧ randomFn h < 1) (h : H) {failure : FailureContext}
    (hone : 1 ≤ failure.attempt) (hbudget : failure.attempt ≤ failure.maxRetries) :
    (s.Safe failure ↔ multiplier ^ (failure.attempt - 1).toNat < 2 ^ 1024) ∧
      (j.Safe s h failure ↔ multiplier ^ (failure.attempt - 1).toNat < 2 ^ 1024) := by
  unfold ExponentialBackoffRetryStrategy.construct at hs
  unfold JitteredBackoffRetryStrategy.construct at hj
  cases hcheck : checkBackoff baseDelay multiplier maxDelay with
  | error e => rw [hcheck] at hs; cases hs
  | ok u =>
      have hbounds := checkBackoff_ok hcheck
      rw [hcheck] at hs hj
      cases hs
      cases hj
      exact ⟨ExponentialBackoffRetryStrategy.safe_iff hbounds hone hbudget,
        JitteredBackoffRetryStrategy.safe_iff hbounds rfl rfl rfl (hrandom h) hone hbudget⟩

/-- The failure of a task that may be retried often. -/
def failureAt (attempt : Int) : FailureContext :=
  ⟨"t", "echo", attempt, 2000, "RuntimeError", "", none, []⟩

theorem backoff_safe_iff_third :
    ((⟨1, 2, 60, false, none⟩ : ExponentialBackoffRetryStrategy).Safe (failureAt 3) ↔
        (2 : Rat) ^ 2 < 2 ^ 1024) ∧
      ((⟨1, 2, 60, false, none, fun _ => 1 / 2⟩ : JitteredBackoffRetryStrategy Unit).Safe
          ⟨1, 2, 60, false, none⟩ () (failureAt 3) ↔ (2 : Rat) ^ 2 < 2 ^ 1024) := by
  have hs : ExponentialBackoffRetryStrategy.construct 1 2 60 false none =
      .ok ⟨1, 2, 60, false, none⟩ := rfl
  have hj : JitteredBackoffRetryStrategy.construct 1 2 60 false none (fun _ : Unit => 1 / 2) =
      .ok ⟨1, 2, 60, false, none, fun _ => 1 / 2⟩ := rfl
  exact backoff_safe_iff (fun _ => 1 / 2) hs hj (by norm_num) () (by decide) (by decide)

/-- After attempt 1025 the power of the default multiplier overflows. -/
theorem backoff_overflows :
    ¬ ∀ (baseDelay multiplier maxDelay : Rat) (s : ExponentialBackoffRetryStrategy)
      (failure : FailureContext),
      ExponentialBackoffRetryStrategy.construct baseDelay multiplier maxDelay false none = .ok s →
        1 ≤ failure.attempt → failure.attempt ≤ failure.maxRetries → s.Safe failure := by
  intro hall
  have hsafe := hall 1 2 60 ⟨1, 2, 60, false, none⟩ (failureAt 1025) rfl (by decide) (by decide)
  have hbounds : BackoffBounds 1 2 60 := ⟨by norm_num, by norm_num, by norm_num⟩
  have hsmall := (ExponentialBackoffRetryStrategy.safe_iff hbounds (by decide) (by decide)).mp hsafe
  exact lt_irrefl _ hsmall

end Conductor
