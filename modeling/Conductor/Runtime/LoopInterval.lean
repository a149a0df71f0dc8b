/-
The bounds of the sleep interval.  The backoff is clamped before the jitter is
added, so the jitter may lead past the maximum.
-/
import Conductor.Runtime.LoopRunner

namespace Conductor

namespace TriggerSchedulerLoopRunner

variable {runner : TriggerSchedulerLoopRunner Rat}

/-- For every draw the computed interval lies within the configured bounds. -/
def WithinBounds (runner : TriggerSchedulerLoopRunner Rat) : Prop :=
  ∀ (idle : Nat) (env : LoopEnv Rat) (h : LoopTrace Rat), (∀ i, 0 ≤ env.random i) →
    (∀ i, env.random i < 1) →
      ∃ seconds, ((runner.computeIntervalSeconds .exact idle).exec env.machine () ⟨h, ()⟩).1 =
          some (.ok seconds, ()) ∧
        runner.basePollIntervalSeconds ≤ seconds ∧ seconds ≤ runner.maxPollIntervalSeconds

theorem InBounds.withinBounds_iff_drawn (hbounds : runner.InBounds) :
    runner.WithinBounds ↔ ∀ idle draw, 0 ≤ draw → draw < 1 →
      runner.basePollIntervalSeconds ≤ runner.drawnInterval idle draw ∧
        runner.drawnInterval idle draw ≤ runner.maxPollIntervalSeconds := by
  constructor
  · intro hwithin idle draw hdraw hdraw'
    obtain ⟨seconds, hseconds, hin⟩ := hwithin idle
      ⟨fun _ => false, fun _ => .firstMoment, fun _ => [], fun _ => draw⟩ [] (fun _ => hdraw)
      (fun _ => hdraw')
    rw [computeIntervalSeconds_exact hbounds.jitter_nonneg] at hseconds
    cases hseconds
    exact hin
  · intro hdrawn idle env h hnonneg hlt
    exact ⟨_, computeIntervalSeconds_exact hbounds.jitter_nonneg idle env h,
      hdrawn idle _ (hnonneg _) (hlt _)⟩

/-- The jitter only ever adds. -/
theorem InBounds.base_le_drawnInterval (hbounds : runner.InBounds) (idle : Nat) {draw : Rat}
    (hdraw : 0 ≤ draw) : runner.basePollIntervalSeconds ≤ runner.drawnInterval idle draw := by
  have hbackoff := (hbounds.backoff_mem idle).1
  have hpos := hbounds.base_pos.le.trans hbackoff
  have hjitter := mul_nonneg (mul_nonneg hpos hbounds.jitter_nonneg) hdraw
  unfold drawnInterval
  linarith

theorem backoff_of_multiplier_one (hbounds : runner.InBounds) (hone : runner.backoffMultiplier = 1)
    (idle : Nat) : runner.backoff idle = runner.basePollIntervalSeconds := by
  cases idle with
  | zero => rfl
  | succ k => rw [backoff, hone, one_pow, mul_one, min_eq_left hbounds.base_le_max]

/-- A backoff that grows comes to the maximum. -/
theorem InBounds.exists_backoff_eq_max (hbounds : runner.InBounds)
    (hgrows : 1 < runner.backoffMultiplier) :
    ∃ idle, runner.backoff idle = runner.maxPollIntervalSeconds := by
  obtain ⟨k, hk⟩ := pow_unbounded_of_one_lt
    (runner.maxPollIntervalSeconds / runner.basePollIntervalSeconds) hgrows
  refine ⟨k + 1, min_eq_right ?_⟩
  rw [div_lt_iff₀ hbounds.base_pos] at hk
  linarith

/-- Within the bounds for each draw below one, hence up to one. -/
theorem base_mul_le_max_of_draws {base jitter limit : Rat} (hbase : base ≤ limit)
    (hpos : 0 < base * jitter)
    (hdraws : ∀ draw, 0 ≤ draw → draw < 1 → base + base * jitter * draw ≤ limit) :
    base * (1 + jitter) ≤ limit := by
  by_contra hover
  rw [not_le] at hover
  -- Half way between the draw that leads to the limit and one.
  let least := (limit - base) / (base * jitter)
  have hleast : base + base * jitter * least = limit := by
    rw [mul_div_cancel₀ _ hpos.ne']
    ring
  have hnonneg : 0 ≤ least := div_nonneg (sub_nonneg.mpr hbase) hpos.le
  have hlt : least < 1 := by
    rw [div_lt_one hpos]
    linarith
  have hdraw := hdraws ((least + 1) / 2) (by linarith) (by linarith)
  have hstrict := mul_lt_mul_of_pos_left (show least < (least + 1) / 2 by linarith) hpos
  linarith

/-- The interval stays within its bounds just if there is no jitter, or the
backoff does not grow and the base with its whole jitter is within them. -/
theorem interval_within_bounds_iff (runner : TriggerSchedulerLoopRunner Rat)
    (haccepted : runner.Accepted .exact) :
    runner.WithinBounds ↔
      runner.jitterRatio = 0 ∨
        runner.backoffMultiplier = 1 ∧
          runner.basePollIntervalSeconds * (1 + runner.jitterRatio) ≤
            runner.maxPollIntervalSeconds := by
  have hbounds := accepted_exact_iff.mp haccepted
  rw [hbounds.withinBounds_iff_drawn]
  constructor
  · intro hdrawn
    by_cases hzero : runner.jitterRatio = 0
    · exact .inl hzero
    right
    have hjitter := lt_of_le_of_ne hbounds.jitter_nonneg (Ne.symm hzero)
    have hone : runner.backoffMultiplier = 1 := by
      by_contra hne
      obtain ⟨idle, hmax⟩ := hbounds.exists_backoff_eq_max
        (lt_of_le_of_ne hbounds.one_le_multiplier (Ne.symm hne))
      have hhalf := (hdrawn idle (1 / 2) (by norm_num) (by norm_num)).2
      have hpos := mul_pos (hbounds.base_pos.trans_le hbounds.base_le_max) hjitter
      rw [drawnInterval, hmax] at hhalf
      linarith
    refine ⟨hone, base_mul_le_max_of_draws hbounds.base_le_max
      (mul_pos hbounds.base_pos hjitter) ?_⟩
    intro draw hdraw hdraw'
    exact (hdrawn 0 draw hdraw hdraw').2
  · intro hcondition idle draw hdraw hdraw'
    refine ⟨hbounds.base_le_drawnInterval idle hdraw, ?_⟩
    unfold drawnInterval
    rcases hcondition with hzero | ⟨hone, hmax⟩
    · have hbackoff := (hbounds.backoff_mem idle).2
      rw [hzero]
      linarith
    · rw [backoff_of_multiplier_one hbounds hone]
      have hpos := mul_nonneg hbounds.base_pos.le hbounds.jitter_nonneg
      have hless := mul_le_of_le_one_right hpos hdraw'.le
      linarith

/-- A runner with the default bounds and this much jitter. -/
def jittered (jitterRatio : Rat) : TriggerSchedulerLoopRunner Rat where
  basePollIntervalSeconds := 1
  maxPollIntervalSeconds := 30
  backoffMultiplier := 2
  jitterRatio := jitterRatio
  stopSignal := false
  nowFn := false

theorem interval_within_bounds_iff_default : (jittered 0).WithinBounds :=
  (interval_within_bounds_iff (jittered 0)
    (accepted_exact_iff.mpr ⟨by norm_num [jittered], by norm_num [jittered],
      by norm_num [jittered], le_rfl⟩)).mpr (.inl rfl)

/-- After six idle cycles, a tenth of jitter and a draw of a half: 31.5 seconds
where the maximum is 30. -/
theorem jitter_past_maximum :
    ¬ ∀ runner : TriggerSchedulerLoopRunner Rat, runner.Accepted .exact →
      runner.WithinBounds := by
  intro hclaim
  have hbounds : (jittered (1 / 10)).InBounds :=
    ⟨by norm_num [jittered], by norm_num [jittered], by norm_num [jittered],
      by norm_num [jittered]⟩
  have hdrawn := hbounds.withinBounds_iff_drawn.mp
    (hclaim (jittered (1 / 10)) (accepted_exact_iff.mpr hbounds))
  have hsix := (hdrawn 6 (1 / 2) (by norm_num) (by norm_num)).2
  norm_num [drawnInterval, backoff, jittered] at hsix

end TriggerSchedulerLoopRunner

end Conductor
