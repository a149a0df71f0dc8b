/-
The law of the loop runner.  An iteration that goes on performs one cycle and
one sleep, so the calls of a run are told by the number of such iterations and
by how the next one ends.
-/
import Conductor.Runtime.LoopRunner

namespace Conductor

open Effects Block

/-- Idle cycles in a row that end with the `n`-th cycle. -/
def LoopEnv.idleStreak {F : Type} (env : LoopEnv F) : Nat → Nat
  | 0 => 0
  | n + 1 => if (env.runOnce n).isEmpty then env.idleStreak n + 1 else 0

namespace TriggerSchedulerLoopRunner

variable {F : Type} {ops : FloatOps F} {runner : TriggerSchedulerLoopRunner F} {env : LoopEnv F}
  {maxCycles : Option Int}

/-- What the `i`-th check of the stop signal says. -/
def stopped (runner : TriggerSchedulerLoopRunner F) (env : LoopEnv F) (i : Nat) : Bool :=
  runner.stopSignal && env.isSet i

def checkCalls (runner : TriggerSchedulerLoopRunner F) (env : LoopEnv F) (i : Nat) : LoopTrace F :=
  if runner.stopSignal then [⟨.isSet, .ok (env.isSet i)⟩] else []

def nowCalls (runner : TriggerSchedulerLoopRunner F) (env : LoopEnv F) (n : Nat) : LoopTrace F :=
  if runner.nowFn then [⟨.now, .ok (env.now n)⟩] else []

/-- The time that the `n`-th cycle is given. -/
def givenNow (runner : TriggerSchedulerLoopRunner F) (env : LoopEnv F) (n : Nat) :
    Option Datetime :=
  if runner.nowFn then some (env.now n) else none

def jitters (ops : FloatOps F) (runner : TriggerSchedulerLoopRunner F) : Bool :=
  ops.lt ops.zero runner.jitterRatio

def drawCalls (ops : FloatOps F) (runner : TriggerSchedulerLoopRunner F) (env : LoopEnv F)
    (n : Nat) : LoopTrace F :=
  if runner.jitters ops then [⟨.random, .ok (env.random n)⟩] else []

/-- The wait after the `n`-th cycle, counted from 0. -/
def wait (ops : FloatOps F) (runner : TriggerSchedulerLoopRunner F) (env : LoopEnv F) (n : Nat) :
    Except PyExc F :=
  (runner.backoffInterval ops (env.idleStreak (n + 1))).map fun interval =>
    if runner.jitters ops then
      ops.add interval (ops.mul (ops.mul interval runner.jitterRatio) (env.random n))
    else interval

/-- The calls of an iteration up to its second check. -/
def upToCheck (runner : TriggerSchedulerLoopRunner F) (env : LoopEnv F) (n : Nat)
    (h : LoopTrace F) : LoopTrace F :=
  runner.checkCalls env (2 * n + 1) ++
    ⟨.runOnce (runner.givenNow env n), .ok (env.runOnce n)⟩ ::
      (runner.nowCalls env n ++ (runner.checkCalls env (2 * n) ++ h))

/-- The calls of the first `n` iterations that go on, with these waits. -/
def after (ops : FloatOps F) (runner : TriggerSchedulerLoopRunner F) (env : LoopEnv F)
    (seconds : Nat → F) : Nat → LoopTrace F
  | 0 => []
  | n + 1 =>
      ⟨.sleep (seconds n), .ok ()⟩ ::
        (runner.drawCalls ops env n ++ runner.upToCheck env n (after ops runner env seconds n))

/-- Counting the calls made so far finds the next answers. -/
structure Counted (ops : FloatOps F) (runner : TriggerSchedulerLoopRunner F) (h : LoopTrace F)
    (n : Nat) : Prop where
  checks : runner.stopSignal = true → LoopTrace.checks h = 2 * n
  readings : runner.nowFn = true → LoopTrace.readings h = n
  cycles : LoopTrace.cycles h = n
  draws : runner.jitters ops = true → LoopTrace.draws h = n

theorem counted_after (seconds : Nat → F) (n : Nat) :
    runner.Counted ops (runner.after ops env seconds n) n := by
  induction n with
  | zero => exact ⟨fun _ => rfl, fun _ => rfl, rfl, fun _ => rfl⟩
  | succ n ih =>
      obtain ⟨hchecks, hreadings, hcycles, hdraws⟩ := ih
      unfold after upToCheck drawCalls checkCalls nowCalls
      generalize after ops runner env seconds n = h at *
      cases hsignal : runner.stopSignal <;> cases hnow : runner.nowFn <;>
        cases hjitter : runner.jitters ops <;> constructor <;> intros <;>
        simp_all [LoopTrace.checks, LoopTrace.readings, LoopTrace.cycles, LoopTrace.draws] <;>
        omega

variable {h : LoopTrace F} {n idle fuel : Nat}

theorem exec_isSet {i : Nat} (hchecks : h.checks = i) :
    (invoke .isSet : LoopBlock F Bool).exec env.machine () ⟨h, ()⟩ =
      (some (.ok (env.isSet i), ()), ⟨⟨.isSet, .ok (env.isSet i)⟩ :: h, ()⟩) := by
  subst hchecks
  rfl

theorem exec_shouldStop {i : Nat} (hchecks : runner.stopSignal = true → h.checks = i) :
    runner.shouldStop.exec env.machine () ⟨h, ()⟩ =
      (some (.ok (runner.stopped env i), ()), ⟨runner.checkCalls env i ++ h, ()⟩) := by
  unfold shouldStop stopped checkCalls
  cases hsignal : runner.stopSignal with
  | false => rfl
  | true => exact exec_isSet (hchecks hsignal)

theorem exec_nowOrNone (hreadings : runner.nowFn = true → h.readings = n) :
    runner.nowOrNone.exec env.machine () ⟨h, ()⟩ =
      (some (.ok (runner.givenNow env n), ()), ⟨runner.nowCalls env n ++ h, ()⟩) := by
  unfold nowOrNone givenNow nowCalls
  cases hnow : runner.nowFn with
  | false => rfl
  | true =>
      rw [← hreadings hnow]
      rfl

theorem exec_runOnce {now : Option Datetime} (hcycles : h.cycles = n) :
    (invoke (.runOnce now) : LoopBlock F (List TaskRecord)).exec env.machine () ⟨h, ()⟩ =
      (some (.ok (env.runOnce n), ()), ⟨⟨.runOnce now, .ok (env.runOnce n)⟩ :: h, ()⟩) := by
  subst hcycles
  rfl

theorem exec_sleep {seconds : F} :
    (invoke (.sleep seconds) : LoopBlock F Unit).exec env.machine () ⟨h, ()⟩ =
      (some (.ok (), ()), ⟨⟨.sleep seconds, .ok ()⟩ :: h, ()⟩) := rfl

/-- The wait is computed, or the power raises before anything is drawn. -/
theorem exec_computeIntervalSeconds (hdraws : runner.jitters ops = true → h.draws = n) :
    (runner.computeIntervalSeconds ops (env.idleStreak (n + 1))).exec env.machine () ⟨h, ()⟩ =
      match runner.wait ops env n with
      | .ok seconds => (some (.ok seconds, ()), ⟨runner.drawCalls ops env n ++ h, ()⟩)
      | .error e => (some (.error e, ()), ⟨h, ()⟩) := by
  rw [computeIntervalSeconds, exec_bind, exec_ofExcept, wait]
  cases runner.backoffInterval ops (env.idleStreak (n + 1)) with
  | error e => rfl
  | ok interval =>
      simp only [Result.next, Except.map, drawCalls]
      change Block.exec env.machine (if runner.jitters ops = true then _ else _) () _ = _
      cases hjitters : runner.jitters ops with
      | false => rfl
      | true =>
          rw [← hdraws hjitters]
          rfl

/-- An iteration that finds the end at its first check. -/
theorem exec_loop_ended (hcounted : runner.Counted ops h n)
    (hended : (runner.stopped env (2 * n) || reached maxCycles n) = true) :
    (runner.loop ops maxCycles (fuel + 1) n idle).exec env.machine () ⟨h, ()⟩ =
      (some (.ok n, ()), ⟨runner.checkCalls env (2 * n) ++ h, ()⟩) := by
  rw [loop, exec_bind, exec_shouldStop hcounted.checks]
  simp only [Result.next, hended, if_true]
  rfl

/-- An iteration up to its second check. -/
theorem exec_loop_cycle (hcounted : runner.Counted ops h n)
    (hgoes : (runner.stopped env (2 * n) || reached maxCycles n) = false) :
    (runner.loop ops maxCycles (fuel + 1) n (env.idleStreak n)).exec env.machine () ⟨h, ()⟩ =
      if runner.stopped env (2 * n + 1) || reached maxCycles (n + 1) then
        (some (.ok (n + 1), ()), ⟨runner.upToCheck env n h, ()⟩)
      else
        match runner.wait ops env n with
        | .error e => (some (.error e, ()), ⟨runner.upToCheck env n h, ()⟩)
        | .ok seconds =>
            (runner.loop ops maxCycles fuel (n + 1) (env.idleStreak (n + 1))).exec env.machine ()
              ⟨⟨.sleep seconds, .ok ()⟩ :: (runner.drawCalls ops env n ++ runner.upToCheck env n h),
                ()⟩ := by
  have hreadings (hnow : runner.nowFn = true) :
      LoopTrace.readings (runner.checkCalls env (2 * n) ++ h) = n := by
    unfold checkCalls
    cases runner.stopSignal <;> exact hcounted.readings hnow
  have hcycles : LoopTrace.cycles (runner.nowCalls env n ++ (runner.checkCalls env (2 * n) ++ h)) =
      n := by
    unfold checkCalls nowCalls
    cases runner.stopSignal <;> cases runner.nowFn <;> exact hcounted.cycles
  have hchecks (hsignal : runner.stopSignal = true) :
      LoopTrace.checks (⟨.runOnce (runner.givenNow env n), .ok (env.runOnce n)⟩ ::
        (runner.nowCalls env n ++ (runner.checkCalls env (2 * n) ++ h))) = 2 * n + 1 := by
    have hbefore := hcounted.checks hsignal
    unfold checkCalls nowCalls
    cases runner.nowFn <;> simp [hsignal, LoopTrace.checks, hbefore]
  have hdraws (hjitters : runner.jitters ops = true) :
      LoopTrace.draws (runner.upToCheck env n h) = n := by
    have hbefore := hcounted.draws hjitters
    unfold upToCheck checkCalls nowCalls
    cases runner.stopSignal <;> cases runner.nowFn <;> exact hbefore
  rw [loop, exec_bind, exec_shouldStop hcounted.checks]
  simp only [Result.next, hgoes, Bool.false_eq_true, if_false]
  rw [exec_bind, exec_nowOrNone hreadings]
  simp only [Result.next]
  rw [exec_bind, exec_runOnce hcycles]
  simp only [Result.next]
  rw [exec_bind, exec_shouldStop hchecks]
  simp only [Result.next]
  change Block.exec env.machine (if _ then _ else _) () ⟨runner.upToCheck env n h, ()⟩ = _
  split
  · rfl
  · change Block.exec env.machine
      (runner.computeIntervalSeconds ops (env.idleStreak (n + 1)) >>= fun seconds => _) () _ = _
    rw [exec_bind, exec_computeIntervalSeconds hdraws]
    cases runner.wait ops env n with
    | error e => rfl
    | ok seconds =>
        simp only [Result.next]
        rw [exec_bind, exec_sleep]
        rfl

/-- The iteration with this number goes on to its sleep. -/
def GoesOn (runner : TriggerSchedulerLoopRunner F) (env : LoopEnv F) (maxCycles : Option Int)
    (n : Nat) : Prop :=
  (runner.stopped env (2 * n) || reached maxCycles n) = false ∧
    (runner.stopped env (2 * n + 1) || reached maxCycles (n + 1)) = false

instance (n : Nat) : Decidable (runner.GoesOn env maxCycles n) :=
  inferInstanceAs (Decidable (_ ∧ _))

/-- Iterations that go on. -/
theorem exec_loop_iterations {seconds : Nat → F} {n : Nat} (fuel : Nat)
    (hgoes : ∀ j < n, runner.GoesOn env maxCycles j)
    (hwait : ∀ j < n, runner.wait ops env j = .ok (seconds j)) :
    (runner.loop ops maxCycles (n + fuel) 0 0).exec env.machine () ⟨[], ()⟩ =
      (runner.loop ops maxCycles fuel n (env.idleStreak n)).exec env.machine ()
        ⟨runner.after ops env seconds n, ()⟩ := by
  induction n generalizing fuel with
  | zero =>
      rw [Nat.zero_add]
      rfl
  | succ n ih =>
      have hlast := hgoes n n.lt_succ_self
      have hstart : n + 1 + fuel = n + (fuel + 1) := by omega
      rw [hstart, ih _ (fun j hj => hgoes j (hj.trans n.lt_succ_self))
        (fun j hj => hwait j (hj.trans n.lt_succ_self)),
        exec_loop_cycle (counted_after seconds n) hlast.1, if_neg (by rw [hlast.2]; decide),
        hwait n n.lt_succ_self]
      rfl

/-- The first iteration that does not go on ends the run, unless the power
raises before. -/
theorem exec_loop_ends {seconds : Nat → F} {n : Nat} (fuel : Nat)
    (hgoes : ∀ j < n, runner.GoesOn env maxCycles j)
    (hwait : ∀ j < n, runner.wait ops env j = .ok (seconds j))
    (hends : ¬ runner.GoesOn env maxCycles n) :
    (runner.loop ops maxCycles (n + (fuel + 1)) 0 0).exec env.machine () ⟨[], ()⟩ =
      if runner.stopped env (2 * n) || reached maxCycles n then
        (some (.ok n, ()),
          ⟨runner.checkCalls env (2 * n) ++ runner.after ops env seconds n, ()⟩)
      else
        (some (.ok (n + 1), ()),
          ⟨runner.upToCheck env n (runner.after ops env seconds n), ()⟩) := by
  rw [exec_loop_iterations _ hgoes hwait]
  have hcounted : runner.Counted ops (runner.after ops env seconds n) n :=
    counted_after seconds n
  cases htop : (runner.stopped env (2 * n) || reached maxCycles n) with
  | true => exact exec_loop_ended hcounted htop
  | false =>
      have hafter : (runner.stopped env (2 * n + 1) || reached maxCycles (n + 1)) = true := by
        by_contra hfalse
        exact hends ⟨htop, Bool.eq_false_of_not_eq_true hfalse⟩
      rw [exec_loop_cycle hcounted htop, if_pos hafter]
      rfl

end TriggerSchedulerLoopRunner

namespace LoopTrace

variable {F : Type}

/-- Some check saw the stop. -/
def sawStop : LoopTrace F → Bool
  | [] => false
  | ⟨.isSet, .ok true⟩ :: _ => true
  | _ :: h => sawStop h

/-- Each sleep comes after one cycle more than there were sleeps before it, and
not after the last cycle of `max_cycles`. -/
def SleepsPlaced (maxCycles : Option Nat) : LoopTrace F → Prop
  | [] => True
  | ⟨.sleep _, _⟩ :: h =>
      cycles h = (sleeps h).length + 1 ∧ maxCycles ≠ some (cycles h) ∧ SleepsPlaced maxCycles h
  | _ :: h => SleepsPlaced maxCycles h

end LoopTrace

namespace TriggerSchedulerLoopRunner

/-- The stop became set between the check that follows the last of `c` cycles
and the end of the next sleep.  The checks are numbered from 0: check `2c - 1`
follows the cycle, and check `2c` the sleep. -/
def setDuringSleep (runner : TriggerSchedulerLoopRunner Rat) (env : LoopEnv Rat)
    (maxCycles : Option Nat) (c : Nat) : Bool :=
  runner.stopSignal && decide (1 ≤ c) && decide (maxCycles ≠ some c) && !env.isSet (2 * c - 1) &&
    env.isSet (2 * c)

/-- What the calls of a run that returns `c` are. -/
structure Law (runner : TriggerSchedulerLoopRunner Rat) (env : LoopEnv Rat)
    (maxCycles : Option Nat) (c : Nat) (h : LoopTrace Rat) : Prop where
  cycles : h.cycles = c
  bounded : ∀ n, maxCycles = some n → c ≤ n
  complete : h.sawStop = false → maxCycles = some c
  stopsAtOnce : LoopTrace.sawStop h.tail = false
  sleepCount : h.sleeps.length = if runner.setDuringSleep env maxCycles c then c else c - 1
  placed : h.SleepsPlaced maxCycles
  waits : h.sleeps =
    (List.range h.sleeps.length).map fun j => runner.backoff (env.idleStreak (j + 1))

variable {maxCycles : Option Nat} {n : Nat}

section Calls

variable {F : Type} {runner : TriggerSchedulerLoopRunner F} {env : LoopEnv F} {h : LoopTrace F}
  {i : Nat}

theorem run_eq_loop {ops : FloatOps F} {fuel : Nat} :
    runner.run ops (maxCycles.map Int.ofNat) fuel =
      runner.loop ops (maxCycles.map Int.ofNat) fuel 0 0 := by
  cases maxCycles with
  | none => rfl
  | some limit =>
      have hnonneg : ¬ Int.ofNat limit < 0 := Int.not_lt.mpr (Int.natCast_nonneg limit)
      simp only [run, Option.map, if_neg hnonneg]

theorem reached_eq_true_iff :
    reached (maxCycles.map Int.ofNat) n = true ↔ ∃ limit, maxCycles = some limit ∧ limit ≤ n := by
  cases maxCycles with
  | none => simp [reached]
  | some limit => simp [reached]

/-- The cycles reach `max_cycles` one at a time. -/
theorem eq_some_of_reached (hreached : reached (maxCycles.map Int.ofNat) n = true)
    (hbelow : ∀ j < n, reached (maxCycles.map Int.ofNat) j = false) : maxCycles = some n := by
  obtain ⟨limit, hlimit, hle⟩ := reached_eq_true_iff.mp hreached
  rcases hle.lt_or_eq with hlt | rfl
  · have hbefore := hbelow limit hlt
    rw [reached_eq_true_iff.mpr ⟨limit, hlimit, le_rfl⟩] at hbefore
    cases hbefore
  · exact hlimit

theorem GoesOn.not_reached (hgoes : runner.GoesOn env (maxCycles.map Int.ofNat) n) (limit : Nat)
    (hlimit : maxCycles = some limit) : n + 1 < limit := by
  by_contra hle
  have hreached := reached_eq_true_iff.mpr ⟨limit, hlimit, not_lt.mp hle⟩
  have hfalse := (Bool.or_eq_false_iff.mp hgoes.2).2
  rw [hreached] at hfalse
  cases hfalse

@[simp] theorem sleeps_checkCalls : (runner.checkCalls env i ++ h).sleeps = h.sleeps := by
  unfold checkCalls
  split <;> rfl

@[simp] theorem cycles_checkCalls : (runner.checkCalls env i ++ h).cycles = h.cycles := by
  unfold checkCalls
  split <;> rfl

@[simp] theorem placed_checkCalls :
    (runner.checkCalls env i ++ h).SleepsPlaced maxCycles = h.SleepsPlaced maxCycles := by
  unfold checkCalls
  split <;> rfl

@[simp] theorem sawStop_checkCalls :
    (runner.checkCalls env i ++ h).sawStop = (runner.stopped env i || h.sawStop) := by
  unfold checkCalls stopped
  cases runner.stopSignal with
  | false => rfl
  | true => cases hset : env.isSet i <;> simp [LoopTrace.sawStop]

@[simp] theorem sleeps_nowCalls : (runner.nowCalls env n ++ h).sleeps = h.sleeps := by
  unfold nowCalls
  split <;> rfl

@[simp] theorem cycles_nowCalls : (runner.nowCalls env n ++ h).cycles = h.cycles := by
  unfold nowCalls
  split <;> rfl

@[simp] theorem placed_nowCalls :
    (runner.nowCalls env n ++ h).SleepsPlaced maxCycles = h.SleepsPlaced maxCycles := by
  unfold nowCalls
  split <;> rfl

@[simp] theorem sawStop_nowCalls : (runner.nowCalls env n ++ h).sawStop = h.sawStop := by
  unfold nowCalls
  split <;> rfl

theorem sleeps_upToCheck : (runner.upToCheck env n h).sleeps = h.sleeps := by
  simp [upToCheck, LoopTrace.sleeps]

theorem cycles_upToCheck : (runner.upToCheck env n h).cycles = h.cycles + 1 := by
  simp [upToCheck, LoopTrace.cycles]

theorem placed_upToCheck :
    (runner.upToCheck env n h).SleepsPlaced maxCycles = h.SleepsPlaced maxCycles := by
  simp [upToCheck, LoopTrace.SleepsPlaced]

theorem sawStop_upToCheck :
    (runner.upToCheck env n h).sawStop =
      (runner.stopped env (2 * n + 1) || (runner.stopped env (2 * n) || h.sawStop)) := by
  simp [upToCheck, LoopTrace.sawStop]

end Calls

variable {runner : TriggerSchedulerLoopRunner Rat} {env : LoopEnv Rat}

section NoJitter

variable (hjitters : runner.jitters .exact = false) {seconds : Nat → Rat}
include hjitters

theorem after_succ :
    after .exact runner env seconds (n + 1) =
      ⟨.sleep (seconds n), .ok ()⟩ ::
        runner.upToCheck env n (after .exact runner env seconds n) := by
  rw [after, drawCalls, hjitters]
  rfl

theorem sleeps_after : (after .exact runner env seconds n).sleeps = (List.range n).map seconds := by
  induction n with
  | zero => rfl
  | succ n ih =>
      rw [after_succ hjitters, LoopTrace.sleeps, sleeps_upToCheck, ih, List.range_succ,
        List.map_append]
      rfl

theorem sawStop_after (hgoes : ∀ j < n, runner.GoesOn env (maxCycles.map Int.ofNat) j) :
    (after .exact runner env seconds n).sawStop = false := by
  induction n with
  | zero => rfl
  | succ n ih =>
      obtain ⟨hfirst, hsecond⟩ := hgoes n n.lt_succ_self
      rw [Bool.or_eq_false_iff] at hfirst hsecond
      rw [after_succ hjitters, LoopTrace.sawStop, sawStop_upToCheck, hfirst.1, hsecond.1,
        ih fun j hj => hgoes j (hj.trans n.lt_succ_self)]
      · rfl
      · intro heq
        cases heq

theorem placed_after (hgoes : ∀ j < n, runner.GoesOn env (maxCycles.map Int.ofNat) j) :
    (after .exact runner env seconds n).SleepsPlaced maxCycles := by
  induction n with
  | zero => trivial
  | succ n ih =>
      have hcounted : runner.Counted .exact (runner.after .exact env seconds n) n :=
        counted_after seconds n
      have hcycles := hcounted.cycles
      rw [after_succ hjitters, LoopTrace.SleepsPlaced, cycles_upToCheck, sleeps_upToCheck, hcycles,
        placed_upToCheck, sleeps_after hjitters, List.length_map, List.length_range]
      refine ⟨rfl, ?_, ih fun j hj => hgoes j (hj.trans n.lt_succ_self)⟩
      intro hlimit
      exact absurd ((hgoes n n.lt_succ_self).not_reached _ hlimit) (lt_irrefl _)

end NoJitter

theorem wait_exact (hjitters : runner.jitters .exact = false) (n : Nat) :
    runner.wait .exact env n = .ok (runner.backoff (env.idleStreak (n + 1))) := by
  rw [wait, backoffInterval_exact, hjitters]
  rfl

/-- The waits of a run without jitter. -/
def waitsOf (runner : TriggerSchedulerLoopRunner Rat) (env : LoopEnv Rat) (n : Nat) : Rat :=
  runner.backoff (env.idleStreak (n + 1))

/-- A run that ends at the first check of an iteration. -/
theorem law_of_first_check (hjitters : runner.jitters .exact = false)
    (hgoes : ∀ j < n, runner.GoesOn env (maxCycles.map Int.ofNat) j)
    (hends : (runner.stopped env (2 * n) || reached (maxCycles.map Int.ofNat) n) = true) :
    runner.Law env maxCycles n
      (runner.checkCalls env (2 * n) ++ runner.after .exact env (runner.waitsOf env) n) := by
  have hsleeps : (runner.after .exact env (runner.waitsOf env) n).sleeps =
      (List.range n).map (runner.waitsOf env) := sleeps_after hjitters
  have hsaw : (runner.after .exact env (runner.waitsOf env) n).sawStop = false :=
    sawStop_after hjitters hgoes
  -- With an iteration behind it, the end is not `max_cycles`.
  have hlimit (limit : Nat) (hmax : maxCycles = some limit) (hpos : 1 ≤ n) : n < limit := by
    have hlast := (hgoes (n - 1) (by omega)).not_reached limit hmax
    omega
  refine ⟨?_, ?_, ?_, ?_, ?_, ?_, ?_⟩
  · rw [cycles_checkCalls]
    exact (counted_after _ n).cycles
  · intro limit hmax
    by_cases hpos : 1 ≤ n
    · exact (hlimit limit hmax hpos).le
    · omega
  · rw [sawStop_checkCalls, Bool.or_eq_false_iff]
    rintro ⟨hstopped, -⟩
    rw [hstopped, Bool.false_or] at hends
    apply eq_some_of_reached hends
    intro j hj
    exact (Bool.or_eq_false_iff.mp (hgoes j hj).1).2
  · unfold checkCalls
    split
    · exact hsaw
    · cases hafter : runner.after .exact env (runner.waitsOf env) n with
      | nil => rfl
      | cons e h =>
          rw [hafter] at hsaw
          obtain ⟨c, answer⟩ := e
          cases c with
          | isSet =>
              rcases answer with _ | _ | _
              · exact hsaw
              · exact hsaw
              · cases hsaw
          | _ => exact hsaw
  · rw [sleeps_checkCalls, hsleeps, List.length_map, List.length_range]
    by_cases hpos : 1 ≤ n
    · have hmax : maxCycles ≠ some n := fun hmax => absurd (hlimit n hmax hpos) (lt_irrefl n)
      have hbefore := (Bool.or_eq_false_iff.mp (hgoes (n - 1) (by omega)).2).1
      have hindex : 2 * (n - 1) + 1 = 2 * n - 1 := by omega
      have hnot : reached (maxCycles.map Int.ofNat) n = false := by
        by_contra hreached
        obtain ⟨limit, hsome, hle⟩ :=
          reached_eq_true_iff.mp (Bool.eq_true_of_not_eq_false hreached)
        exact absurd (hlimit limit hsome hpos) (by omega)
      rw [hnot, Bool.or_false] at hends
      rw [hindex] at hbefore
      unfold stopped at hends hbefore
      unfold setDuringSleep
      cases hsignal : runner.stopSignal with
      | false => simp [hsignal] at hends
      | true =>
          rw [hsignal, Bool.true_and] at hends hbefore
          simp [hends, hbefore, hpos, hmax]
    · split <;> omega
  · rw [placed_checkCalls]
    exact placed_after hjitters hgoes
  · rw [sleeps_checkCalls, hsleeps, List.length_map, List.length_range]
    rfl

/-- A run that ends at the check after a cycle. -/
theorem law_of_second_check (hjitters : runner.jitters .exact = false)
    (hgoes : ∀ j < n, runner.GoesOn env (maxCycles.map Int.ofNat) j)
    (hfirst : (runner.stopped env (2 * n) || reached (maxCycles.map Int.ofNat) n) = false)
    (hends : (runner.stopped env (2 * n + 1) || reached (maxCycles.map Int.ofNat) (n + 1)) = true) :
    runner.Law env maxCycles (n + 1)
      (runner.upToCheck env n (runner.after .exact env (runner.waitsOf env) n)) := by
  have hsleeps : (runner.after .exact env (runner.waitsOf env) n).sleeps =
      (List.range n).map (runner.waitsOf env) := sleeps_after hjitters
  have hsaw : (runner.after .exact env (runner.waitsOf env) n).sawStop = false :=
    sawStop_after hjitters hgoes
  rw [Bool.or_eq_false_iff] at hfirst
  have hlimit (limit : Nat) (hmax : maxCycles = some limit) : n + 1 ≤ limit := by
    by_contra hle
    have hreached := reached_eq_true_iff.mpr ⟨limit, hmax, (by omega : limit ≤ n)⟩
    rw [hfirst.2] at hreached
    cases hreached
  refine ⟨?_, hlimit, ?_, ?_, ?_, ?_, ?_⟩
  · rw [cycles_upToCheck]
    exact congrArg (· + 1) (counted_after _ n).cycles
  · rw [sawStop_upToCheck, Bool.or_eq_false_iff]
    rintro ⟨hstopped, -⟩
    rw [hstopped, Bool.false_or] at hends
    apply eq_some_of_reached hends
    intro j hj
    rcases Nat.lt_succ_iff_lt_or_eq.mp hj with hlt | rfl
    · exact (Bool.or_eq_false_iff.mp (hgoes j hlt).1).2
    · exact hfirst.2
  · unfold upToCheck checkCalls
    cases hsignal : runner.stopSignal with
    | false => simp [hsaw]
    | true =>
        have hset : env.isSet (2 * n) = false := by simpa [stopped, hsignal] using hfirst.1
        simp [LoopTrace.sawStop, hset, hsaw]
  · rw [sleeps_upToCheck, hsleeps, List.length_map, List.length_range]
    have hset : runner.setDuringSleep env maxCycles (n + 1) = false := by
      by_contra hset
      have hindex : 2 * (n + 1) - 1 = 2 * n + 1 := by omega
      simp only [setDuringSleep, hindex, Bool.not_eq_false, Bool.and_eq_true, decide_eq_true_eq,
        Bool.not_eq_true'] at hset
      obtain ⟨⟨⟨-, hmax⟩, hbefore⟩, -⟩ := hset
      rw [stopped, hbefore, Bool.and_false, Bool.false_or, reached_eq_true_iff] at hends
      obtain ⟨limit, hsome, hle⟩ := hends
      exact hmax (hsome.trans (congrArg some (le_antisymm hle (hlimit limit hsome))))
    rw [if_neg (by rw [hset]; decide)]
    rfl
  · rw [placed_upToCheck]
    exact placed_after hjitters hgoes
  · rw [sleeps_upToCheck, hsleeps, List.length_map, List.length_range]
    rfl

/-- The stop signal or `max_cycles` ends the iterations. -/
theorem exists_not_goesOn
    (hends : maxCycles ≠ none ∨ runner.stopSignal = true ∧ ∃ i, env.isSet i = true) :
    ∃ n, ¬ runner.GoesOn env (maxCycles.map Int.ofNat) n := by
  rcases hends with hsome | ⟨hsignal, i, hset⟩
  · obtain ⟨limit, hlimit⟩ := Option.ne_none_iff_exists'.mp hsome
    exact ⟨limit, fun hgoes => absurd (hgoes.not_reached limit hlimit) (by omega)⟩
  · have hstopped : runner.stopped env i = true := by simp [stopped, hsignal, hset]
    refine ⟨i / 2, fun hgoes => ?_⟩
    obtain ⟨hfirst, hsecond⟩ := hgoes
    rcases Nat.even_or_odd' i with ⟨m, rfl | rfl⟩
    · rw [Nat.mul_div_cancel_left m two_pos, hstopped, Bool.true_or] at hfirst
      cases hfirst
    · have hhalf : (2 * m + 1) / 2 = m := by omega
      rw [hhalf, hstopped, Bool.true_or] at hsecond
      cases hsecond

/-- The law of the loop runner: with exact arithmetic and no jitter, and a stop
signal or `max_cycles` that comes, the run returns the number of its cycles, and
its calls are as the law says. -/
theorem loop_runner_law (runner : TriggerSchedulerLoopRunner Rat)
    (hjitter : runner.jitterRatio = 0) (env : LoopEnv Rat) (maxCycles : Option Nat)
    (hends : maxCycles ≠ none ∨ runner.stopSignal = true ∧ ∃ i, env.isSet i = true) :
    ∃ c h, runner.Law env maxCycles c h ∧ ∃ enough, ∀ fuel ≥ enough,
      (runner.run .exact (maxCycles.map Int.ofNat) fuel).exec env.machine () ⟨[], ()⟩ =
        (some (.ok c, ()), ⟨h, ()⟩) := by
  have hjitters : runner.jitters .exact = false := by
    simp [jitters, FloatOps.exact, hjitter]
  obtain ⟨n, hgoes, hnot⟩ : ∃ n, (∀ j < n, runner.GoesOn env (maxCycles.map Int.ofNat) j) ∧
      ¬ runner.GoesOn env (maxCycles.map Int.ofNat) n :=
    have hexists := exists_not_goesOn hends
    ⟨Nat.find hexists, fun j hj => not_not.mp (Nat.find_min hexists hj), Nat.find_spec hexists⟩
  have hexec (fuel : Nat) (hfuel : fuel ≥ n + 1) :=
    exec_loop_ends (fuel - (n + 1)) hgoes
      (fun j _ => wait_exact hjitters j) hnot
  have hstart (fuel : Nat) (hfuel : fuel ≥ n + 1) : n + (fuel - (n + 1) + 1) = fuel := by omega
  cases hfirst : (runner.stopped env (2 * n) || reached (maxCycles.map Int.ofNat) n) with
  | true =>
      refine ⟨_, _, law_of_first_check hjitters hgoes hfirst, n + 1, fun fuel hfuel => ?_⟩
      have hrest := hexec fuel hfuel
      rw [hstart fuel hfuel, if_pos hfirst] at hrest
      rw [run_eq_loop]
      exact hrest
  | false =>
      have hsecond : (runner.stopped env (2 * n + 1) ||
          reached (maxCycles.map Int.ofNat) (n + 1)) = true := by
        by_contra hfalse
        exact hnot ⟨hfirst, Bool.eq_false_of_not_eq_true hfalse⟩
      refine ⟨_, _, law_of_second_check hjitters hgoes hfirst hsecond, n + 1, fun fuel hfuel => ?_⟩
      have hrest := hexec fuel hfuel
      rw [hstart fuel hfuel, if_neg (by rw [hfirst]; decide)] at hrest
      rw [run_eq_loop]
      exact hrest

/-- A runner with a stop signal and the default waits. -/
def stoppable : TriggerSchedulerLoopRunner Rat where
  basePollIntervalSeconds := 1
  maxPollIntervalSeconds := 30
  backoffMultiplier := 2
  jitterRatio := 0
  stopSignal := true
  nowFn := false

/-- Idle cycles, and a stop that becomes set in the second of them. -/
def LoopEnv.stopping : LoopEnv Rat where
  isSet i := 3 ≤ i
  now _ := .firstMoment
  runOnce _ := []
  random _ := 0

theorem loop_runner_law_stopping :
    ∃ c h, stoppable.Law LoopEnv.stopping none c h ∧ ∃ enough, ∀ fuel ≥ enough,
      (stoppable.run .exact none fuel).exec LoopEnv.stopping.machine () ⟨[], ()⟩ =
        (some (.ok c, ()), ⟨h, ()⟩) :=
  loop_runner_law stoppable rfl LoopEnv.stopping none (.inr ⟨rfl, 3, rfl⟩)

end TriggerSchedulerLoopRunner

end Conductor
