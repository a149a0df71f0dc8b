/-
How a run of the loop runner ends.  The power of the backoff is taken before it
is clamped, so a long streak of idle cycles overflows it and the run dies.
-/
import Conductor.Runtime.LoopLaw

namespace Conductor

open Effects Block

def overflowError : PyExc := .exception "OverflowError" "(34, 'Numerical result out of range')"

/-- The least power that is out of the range of the floats. -/
def floatLimit : Rat := (Nat.pow 2 1024 : Nat)

namespace FloatOps

variable {F : Type}

/-- What is asked of the floats, by the exact values of the finite ones: the
comparison is exact, and a power raises just if it is out of range. -/
structure Floats (ops : FloatOps F) (value : F → Option Rat) : Prop where
  one : value ops.one = some 1
  lt : ∀ a b x y, value a = some x → value b = some y → (ops.lt a b = true ↔ x < y)
  pow : ∀ b x, value b = some x → 1 ≤ x → ∀ k e,
    ops.pow b k = .error e ↔ e = overflowError ∧ floatLimit ≤ x ^ k

/-- Arithmetic that is exact as far as the power is in range. -/
def ranged : FloatOps Rat where
  lt a b := a < b
  le a b := a ≤ b
  add a b := a + b
  mul a b := a * b
  pow b k := if floatLimit ≤ b ^ k then .error overflowError else .ok (b ^ k)
  zero := 0
  one := 1

theorem floats_ranged : ranged.Floats some where
  one := rfl
  lt a b x y hx hy := by
    cases hx
    cases hy
    exact decide_eq_true_iff
  pow b x hx _ k e := by
    cases hx
    unfold ranged
    by_cases hover : floatLimit ≤ b ^ k
    · simp [hover, eq_comm]
    · simp [hover]

end FloatOps

namespace TriggerSchedulerLoopRunner

variable {F : Type} {ops : FloatOps F} {value : F → Option Rat}
  {runner : TriggerSchedulerLoopRunner F} {env : LoopEnv F} {maxCycles : Option Nat}
  {multiplier : Rat} {n : Nat}

/-- The run ends, if it does, by returning its cycles, and this for `max_cycles`
or for the stop signal. -/
def NeverDies (ops : FloatOps F) (runner : TriggerSchedulerLoopRunner F) (env : LoopEnv F)
    (maxCycles : Option Nat) : Prop :=
  ∀ fuel outcome k, (runner.run ops (maxCycles.map Int.ofNat) fuel).exec env.machine () ⟨[], ()⟩ =
      (some (outcome, ()), k) →
    ∃ c, outcome = .ok c ∧ (maxCycles = some c ∨ LoopTrace.sawStop k.history = true)

/-- Each streak of idle cycles that a wait follows has its power in range. -/
def StreaksFit (runner : TriggerSchedulerLoopRunner F) (env : LoopEnv F) (maxCycles : Option Nat)
    (multiplier : Rat) : Prop :=
  ∀ n, (∀ j ≤ n, runner.GoesOn env (maxCycles.map Int.ofNat) j) →
    multiplier ^ (env.idleStreak (n + 1) - 1) < floatLimit

theorem cast_two_pow (n : Nat) : ((Nat.pow 2 n : Nat) : Rat) = 2 ^ n := Nat.cast_pow 2 n

theorem one_lt_floatLimit : 1 < floatLimit := by
  decide +kernel

theorem one_le_multiplier (hfloats : ops.Floats value) (haccepted : runner.Accepted ops)
    (hmultiplier : value runner.backoffMultiplier = some multiplier) : 1 ≤ multiplier := by
  by_contra hless
  have hlt := (hfloats.lt _ _ _ _ hmultiplier hfloats.one).mpr (not_le.mp hless)
  unfold Accepted init at haccepted
  rw [if_pos hlt] at haccepted
  split_ifs at haccepted

/-- The wait raises just if the power of the streak is out of range. -/
theorem wait_eq_error_iff (hfloats : ops.Floats value)
    (hmultiplier : value runner.backoffMultiplier = some multiplier) (hone : 1 ≤ multiplier) :
    (∃ e, runner.wait ops env n = .error e) ↔
      floatLimit ≤ multiplier ^ (env.idleStreak (n + 1) - 1) := by
  unfold wait
  cases env.idleStreak (n + 1) with
  | zero =>
      constructor
      · intro herror
        obtain ⟨e, he⟩ := herror
        cases he
      · intro hover
        rw [Nat.zero_sub, pow_zero] at hover
        exact absurd one_lt_floatLimit (not_lt.mpr hover)
  | succ k =>
      have hpow := hfloats.pow _ _ hmultiplier hone k
      rw [backoffInterval, Nat.add_sub_cancel]
      cases hresult : ops.pow runner.backoffMultiplier k with
      | error e =>
          rw [hresult] at hpow
          exact ⟨fun _ => ((hpow e).mp rfl).2, fun _ => ⟨e, rfl⟩⟩
      | ok power =>
          rw [hresult] at hpow
          constructor
          · intro herror
            obtain ⟨e, he⟩ := herror
            cases he
          · intro hover
            exact absurd ((hpow overflowError).mpr ⟨rfl, hover⟩) nofun

theorem exists_waits (hwaits : ∀ j < n, ¬ ∃ e, runner.wait ops env j = .error e) :
    ∃ seconds : Nat → F, ∀ j < n, runner.wait ops env j = .ok (seconds j) := by
  have hexists (j : Nat) : ∃ seconds, j < n → runner.wait ops env j = .ok seconds := by
    cases hwait : runner.wait ops env j with
    | error e => exact ⟨ops.zero, fun hj => absurd ⟨e, hwait⟩ (hwaits j hj)⟩
    | ok seconds => exact ⟨seconds, fun _ => rfl⟩
  choose seconds hseconds using hexists
  exact ⟨seconds, hseconds⟩

/-- A run whose waits are all computed up to one that raises. -/
theorem exec_run_dies {e : PyExc}
    (hgoes : ∀ j ≤ n, runner.GoesOn env (maxCycles.map Int.ofNat) j)
    (hwaits : ∀ j < n, ¬ ∃ e, runner.wait ops env j = .error e)
    (herror : runner.wait ops env n = .error e) :
    ∃ k, (runner.run ops (maxCycles.map Int.ofNat) (n + 1)).exec env.machine () ⟨[], ()⟩ =
      (some (.error e, ()), k) := by
  obtain ⟨seconds, hseconds⟩ := exists_waits hwaits
  have hlast := hgoes n le_rfl
  rw [run_eq_loop, exec_loop_iterations 1 (fun j hj => hgoes j hj.le) hseconds,
    exec_loop_cycle (counted_after seconds n) hlast.1, if_neg (by rw [hlast.2]; decide), herror]
  exact ⟨_, rfl⟩

/-- A run none of whose waits raises ends as it should, if it does. -/
theorem neverDies_of_waits
    (hwaits : ∀ n, (∀ j ≤ n, runner.GoesOn env (maxCycles.map Int.ofNat) j) →
      ¬ ∃ e, runner.wait ops env n = .error e) :
    runner.NeverDies ops env maxCycles := by
  intro fuel outcome k hexec
  rw [run_eq_loop] at hexec
  by_cases hall : ∀ j < fuel, runner.GoesOn env (maxCycles.map Int.ofNat) j
  · obtain ⟨seconds, hseconds⟩ := exists_waits fun j hj =>
      hwaits j fun i hi => hall i (hi.trans_lt hj)
    have hrun := exec_loop_iterations 0 hall hseconds
    rw [Nat.add_zero, hexec] at hrun
    cases hrun
  · push Not at hall
    have hfind := Nat.find_spec hall
    have hmin (j : Nat) (hj : j < Nat.find hall) :
        runner.GoesOn env (maxCycles.map Int.ofNat) j := by
      by_contra hnot
      exact Nat.find_min hall hj ⟨hj.trans hfind.1, hnot⟩
    generalize Nat.find hall = n at *
    obtain ⟨seconds, hseconds⟩ := exists_waits fun j hj =>
      hwaits j fun i hi => hmin i (hi.trans_lt hj)
    have hrun := exec_loop_ends (fuel - (n + 1)) hmin hseconds hfind.2
    rw [show n + (fuel - (n + 1) + 1) = fuel by omega, hexec] at hrun
    have hbelow (j : Nat) (hj : j < n) : reached (maxCycles.map Int.ofNat) j = false :=
      (Bool.or_eq_false_iff.mp (hmin j hj).1).2
    by_cases hfirst : (runner.stopped env (2 * n) || reached (maxCycles.map Int.ofNat) n) = true
    · rw [if_pos hfirst] at hrun
      cases hrun
      refine ⟨n, rfl, ?_⟩
      rcases (Bool.or_eq_true _ _).mp hfirst with hstopped | hreached
      · right
        rw [sawStop_checkCalls, hstopped, Bool.true_or]
      · left
        exact eq_some_of_reached hreached hbelow
    · rw [if_neg hfirst] at hrun
      cases hrun
      refine ⟨n + 1, rfl, ?_⟩
      rw [Bool.not_eq_true] at hfirst
      have hsecond : (runner.stopped env (2 * n + 1) ||
          reached (maxCycles.map Int.ofNat) (n + 1)) = true := by
        by_contra hfalse
        exact hfind.2 ⟨hfirst, Bool.eq_false_of_not_eq_true hfalse⟩
      rcases (Bool.or_eq_true _ _).mp hsecond with hstopped | hreached
      · right
        rw [sawStop_upToCheck, hstopped, Bool.true_or]
      · left
        apply eq_some_of_reached hreached
        intro j hj
        rcases Nat.lt_succ_iff_lt_or_eq.mp hj with hlt | rfl
        · exact hbelow j hlt
        · exact (Bool.or_eq_false_iff.mp hfirst).2

theorem neverDies_iff (hfloats : ops.Floats value) (haccepted : runner.Accepted ops)
    (hmultiplier : value runner.backoffMultiplier = some multiplier) :
    runner.NeverDies ops env maxCycles ↔ runner.StreaksFit env maxCycles multiplier := by
  have hone := one_le_multiplier hfloats haccepted hmultiplier
  have hwait (n : Nat) : (∃ e, runner.wait ops env n = .error e) ↔
      floatLimit ≤ multiplier ^ (env.idleStreak (n + 1) - 1) :=
    wait_eq_error_iff hfloats hmultiplier hone
  constructor
  · intro hnever
    by_contra hover
    unfold StreaksFit at hover
    push Not at hover
    -- The first wait that raises is the one that the run dies of.
    have hfind := Nat.find_spec hover
    have hmin (j : Nat) (hj : j < Nat.find hover) : ¬ ∃ e, runner.wait ops env j = .error e := by
      intro herror
      exact Nat.find_min hover hj
        ⟨fun i hi => hfind.1 i (hi.trans hj.le), (hwait j).mp herror⟩
    generalize Nat.find hover = n at *
    obtain ⟨e, herror⟩ := (hwait n).mpr hfind.2
    obtain ⟨k, hexec⟩ := exec_run_dies hfind.1 hmin herror
    obtain ⟨c, hc, -⟩ := hnever (n + 1) (.error e) k hexec
    cases hc
  · intro hfits
    apply neverDies_of_waits
    intro n hgoes herror
    exact absurd ((hwait n).mp herror) (not_le.mpr (hfits n hgoes))

/-- Idle cycles without end, and no stop. -/
def idleEnv (ops : FloatOps F) : LoopEnv F where
  isSet _ := false
  now _ := .firstMoment
  runOnce _ := []
  random _ := ops.zero

theorem idleStreak_idleEnv (n : Nat) : (idleEnv ops).idleStreak n = n := by
  induction n with
  | zero => rfl
  | succ n ih =>
      rw [LoopEnv.idleStreak, ih]
      rfl

theorem goesOn_idleEnv (n : Nat) :
    runner.GoesOn (idleEnv ops) ((none : Option Nat).map Int.ofNat) n := by
  unfold GoesOn stopped
  cases runner.stopSignal <;> exact ⟨rfl, rfl⟩

theorem streaksFit_idleEnv_iff :
    runner.StreaksFit (idleEnv ops) none multiplier ↔ ∀ k, multiplier ^ k < floatLimit := by
  unfold StreaksFit
  constructor
  · intro hfits k
    have hpower := hfits k fun j _ => goesOn_idleEnv j
    rwa [idleStreak_idleEnv, Nat.add_sub_cancel] at hpower
  · intro hpowers n _
    exact hpowers _

/-- A run never dies just if each streak of idle cycles that a wait follows has
its power in range.  So no run of a runner dies just if its backoff does not
grow. -/
theorem loop_never_dies_iff (hfloats : ops.Floats value) (runner : TriggerSchedulerLoopRunner F)
    (haccepted : runner.Accepted ops)
    (hmultiplier : value runner.backoffMultiplier = some multiplier) :
    (∀ env maxCycles,
      runner.NeverDies ops env maxCycles ↔ runner.StreaksFit env maxCycles multiplier) ∧
    ((∀ env maxCycles, runner.NeverDies ops env maxCycles) ↔ multiplier = 1) := by
  have hruns (env : LoopEnv F) (maxCycles : Option Nat) :
      runner.NeverDies ops env maxCycles ↔ runner.StreaksFit env maxCycles multiplier :=
    neverDies_iff hfloats haccepted hmultiplier
  have hone := one_le_multiplier hfloats haccepted hmultiplier
  refine ⟨hruns, ?_⟩
  constructor
  · intro hnever
    have hpowers := streaksFit_idleEnv_iff.mp ((hruns (idleEnv ops) none).mp (hnever _ _))
    by_contra hne
    obtain ⟨k, hk⟩ := pow_unbounded_of_one_lt floatLimit (lt_of_le_of_ne hone (Ne.symm hne))
    exact lt_asymm hk (hpowers k)
  · intro heq env maxCycles
    rw [hruns env maxCycles, heq]
    intro n _
    rw [one_pow]
    exact one_lt_floatLimit

/-- A runner without jitter and without a stop signal, and this backoff. -/
def unstopped (backoffMultiplier : Rat) : TriggerSchedulerLoopRunner Rat where
  basePollIntervalSeconds := 1
  maxPollIntervalSeconds := 30
  backoffMultiplier := backoffMultiplier
  jitterRatio := 0
  stopSignal := false
  nowFn := false

theorem accepted_unstopped (backoffMultiplier : Rat) (hone : 1 ≤ backoffMultiplier) :
    (unstopped backoffMultiplier).Accepted .ranged := by
  have hbounds : (unstopped backoffMultiplier).InBounds :=
    ⟨by norm_num [unstopped], by norm_num [unstopped], hone, le_rfl⟩
  exact accepted_exact_iff.mpr hbounds

theorem loop_never_dies_iff_steady :
    (∀ env maxCycles, (unstopped 1).NeverDies .ranged env maxCycles ↔
      (unstopped 1).StreaksFit env maxCycles 1) ∧
    ((∀ env maxCycles, (unstopped 1).NeverDies .ranged env maxCycles) ↔ (1 : Rat) = 1) :=
  loop_never_dies_iff FloatOps.floats_ranged (unstopped 1) (accepted_unstopped 1 le_rfl) rfl

/-- With the default backoff of 2 the wait after the 1025th idle cycle raises. -/
theorem idle_run_dies :
    ¬ ∀ runner : TriggerSchedulerLoopRunner Rat, runner.Accepted .ranged →
      ∀ env maxCycles, runner.NeverDies .ranged env maxCycles := by
  intro hclaim
  have haccepted := accepted_unstopped 2 (by norm_num)
  have hnever := hclaim (unstopped 2) haccepted (idleEnv .ranged) none
  rw [neverDies_iff FloatOps.floats_ranged haccepted rfl, streaksFit_idleEnv_iff] at hnever
  apply absurd (hnever 1024)
  rw [not_lt]
  exact (cast_two_pow 1024).le

end TriggerSchedulerLoopRunner

end Conductor
