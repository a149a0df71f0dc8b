/-
The loop runner of the trigger scheduler.  Its arithmetic is a parameter: the
floats of the language, or exact rationals.
-/
import Mathlib.Algebra.Order.Archimedean.Basic
import Mathlib.Data.Rat.Floor
import Mathlib.Tactic.Linarith
import Conductor.Effects.Coupling
import Conductor.Interfaces
import Conductor.Python.Calendar

namespace Conductor

open Effects Block

/-- The float operations that the runner uses.  Of these only the power may
raise. -/
structure FloatOps (F : Type) where
  lt : F → F → Bool
  le : F → F → Bool
  add : F → F → F
  mul : F → F → F
  pow : F → Nat → Except PyExc F
  zero : F
  one : F

namespace FloatOps

variable {F : Type}

/-- `min(a, b)`: the first of two equal values. -/
def min (ops : FloatOps F) (a b : F) : F := if ops.lt b a then b else a

/-- Arithmetic without rounding and without overflow. -/
def exact : FloatOps Rat where
  lt a b := a < b
  le a b := a ≤ b
  add a b := a + b
  mul a b := a * b
  pow b k := .ok (b ^ k)
  zero := 0
  one := 1

theorem exact_min (a b : Rat) : exact.min a b = Min.min a b := by
  by_cases hlt : b < a
  · rw [min_eq_right hlt.le]
    exact if_pos (decide_eq_true hlt)
  · rw [min_eq_left (not_lt.mp hlt)]
    exact if_neg (by simpa [exact] using hlt)

end FloatOps

/-- The parameters of a runner; `stopSignal` and `nowFn` say whether there is
one. -/
structure TriggerSchedulerLoopRunner (F : Type) where
  basePollIntervalSeconds : F
  maxPollIntervalSeconds : F
  backoffMultiplier : F
  jitterRatio : F
  stopSignal : Bool
  nowFn : Bool

/-- What the runner calls. -/
inductive LoopCall (F : Type) where
  | isSet
  | now
  | runOnce (now : Option Datetime)
  | random
  | sleep (seconds : F)

abbrev LoopResponse {F : Type} : LoopCall F → Type
  | .isSet => Bool
  | .now => Datetime
  | .runOnce _ => List TaskRecord
  | .random => F
  | .sleep _ => Unit

abbrev LoopAnswer {F : Type} : LoopCall F → Type := Reply LoopResponse PyExc

/-- The calls of a run, the newest first. -/
abbrev LoopTrace (F : Type) := History (LoopCall F) LoopAnswer

abbrev LoopBlock (F : Type) := Block (LoopCall F) LoopResponse PyExc Unit

/-- Make one of the runner's calls. -/
def invoke {F : Type} (c : LoopCall F) : LoopBlock F (LoopResponse c) := perform c

namespace TriggerSchedulerLoopRunner

variable {F : Type}

/-- `__init__`. -/
def init (ops : FloatOps F) (runner : TriggerSchedulerLoopRunner F) :
    Except PyExc (TriggerSchedulerLoopRunner F) :=
  if ops.le runner.basePollIntervalSeconds ops.zero then
    .error (.valueError "base_poll_interval_seconds must be > 0")
  else if ops.lt runner.maxPollIntervalSeconds runner.basePollIntervalSeconds then
    .error (.valueError "max_poll_interval_seconds must be >= base_poll_interval_seconds")
  else if ops.lt runner.backoffMultiplier ops.one then
    .error (.valueError "backoff_multiplier must be >= 1.0")
  else if ops.lt runner.jitterRatio ops.zero then
    .error (.valueError "jitter_ratio must be >= 0")
  else .ok runner

/-- The constructor took the parameters. -/
def Accepted (ops : FloatOps F) (runner : TriggerSchedulerLoopRunner F) : Prop :=
  init ops runner = .ok runner

/-- `_should_stop`. -/
def shouldStop (runner : TriggerSchedulerLoopRunner F) : LoopBlock F Bool :=
  if runner.stopSignal then invoke .isSet else pure false

/-- The interval before jitter. -/
def backoffInterval (ops : FloatOps F) (runner : TriggerSchedulerLoopRunner F)
    (consecutiveIdleCycles : Nat) : Except PyExc F :=
  match consecutiveIdleCycles with
  | 0 => .ok runner.basePollIntervalSeconds
  | exponent + 1 =>
      (ops.pow runner.backoffMultiplier exponent).map fun power =>
        ops.min (ops.mul runner.basePollIntervalSeconds power) runner.maxPollIntervalSeconds

/-- `_compute_interval_seconds`. -/
def computeIntervalSeconds (ops : FloatOps F) (runner : TriggerSchedulerLoopRunner F)
    (consecutiveIdleCycles : Nat) : LoopBlock F F := do
  let interval ← ofExcept (runner.backoffInterval ops consecutiveIdleCycles)
  if ops.lt ops.zero runner.jitterRatio then do
    let draw ← invoke .random
    pure (ops.add interval (ops.mul (ops.mul interval runner.jitterRatio) draw))
  else pure interval

/-- `max_cycles is not None and cycles_completed >= max_cycles`. -/
def reached (maxCycles : Option Int) (cyclesCompleted : Nat) : Bool :=
  match maxCycles with
  | some n => n ≤ cyclesCompleted
  | none => false

/-- `self.now_fn() if self.now_fn is not None else None`. -/
def nowOrNone (runner : TriggerSchedulerLoopRunner F) : LoopBlock F (Option Datetime) :=
  if runner.nowFn then do
    let now ← invoke .now
    pure (some now)
  else pure none

/-- The `while True` loop of `run`, unrolled `fuel` times. -/
def loop (ops : FloatOps F) (runner : TriggerSchedulerLoopRunner F) (maxCycles : Option Int) :
    (fuel cyclesCompleted consecutiveIdleCycles : Nat) → LoopBlock F Nat
  | 0, _, _ => outOfFuel
  | fuel + 1, cyclesCompleted, consecutiveIdleCycles => do
      let stop ← runner.shouldStop
      if stop || reached maxCycles cyclesCompleted then pure cyclesCompleted
      else do
        let now ← runner.nowOrNone
        let submitted : List TaskRecord ← invoke (.runOnce now)
        let consecutiveIdleCycles :=
          if submitted.isEmpty then consecutiveIdleCycles + 1 else 0
        let stop ← runner.shouldStop
        if stop || reached maxCycles (cyclesCompleted + 1) then pure (cyclesCompleted + 1)
        else do
          let sleepSeconds ← runner.computeIntervalSeconds ops consecutiveIdleCycles
          invoke (.sleep sleepSeconds)
          loop ops runner maxCycles fuel (cyclesCompleted + 1) consecutiveIdleCycles

def run (ops : FloatOps F) (runner : TriggerSchedulerLoopRunner F) (maxCycles : Option Int)
    (fuel : Nat) : LoopBlock F Nat :=
  match maxCycles with
  | some n =>
      if n < 0 then raise (.valueError "max_cycles must be >= 0")
      else loop ops runner maxCycles fuel 0 0
  | none => loop ops runner maxCycles fuel 0 0

end TriggerSchedulerLoopRunner

/-- What the calls of a runner are answered, each by the number of such calls
before it.  Nothing raises. -/
structure LoopEnv (F : Type) where
  isSet : Nat → Bool
  now : Nat → Datetime
  runOnce : Nat → List TaskRecord
  random : Nat → F

namespace LoopTrace

variable {F : Type}

def checks : LoopTrace F → Nat
  | [] => 0
  | ⟨.isSet, _⟩ :: h => checks h + 1
  | _ :: h => checks h

def readings : LoopTrace F → Nat
  | [] => 0
  | ⟨.now, _⟩ :: h => readings h + 1
  | _ :: h => readings h

/-- The cycles performed. -/
def cycles : LoopTrace F → Nat
  | [] => 0
  | ⟨.runOnce _, _⟩ :: h => cycles h + 1
  | _ :: h => cycles h

def draws : LoopTrace F → Nat
  | [] => 0
  | ⟨.random, _⟩ :: h => draws h + 1
  | _ :: h => draws h

/-- The seconds slept, the first sleep first. -/
def sleeps : LoopTrace F → List F
  | [] => []
  | ⟨.sleep seconds, _⟩ :: h => sleeps h ++ [seconds]
  | _ :: h => sleeps h

end LoopTrace

namespace LoopEnv

variable {F : Type}

def respond (env : LoopEnv F) (h : LoopTrace F) : (c : LoopCall F) → LoopAnswer c
  | .isSet => .ok (env.isSet (LoopTrace.checks h))
  | .now => .ok (env.now (LoopTrace.readings h))
  | .runOnce _ => .ok (env.runOnce (LoopTrace.cycles h))
  | .random => .ok (env.random (LoopTrace.draws h))
  | .sleep _ => .ok ()

def machine (env : LoopEnv F) : Machine Unit (LoopCall F) LoopAnswer :=
  ⟨fun h _ c => (env.respond h c, ())⟩

end LoopEnv

namespace TriggerSchedulerLoopRunner

variable {runner : TriggerSchedulerLoopRunner Rat}

/-- What the constructor checks. -/
structure InBounds (runner : TriggerSchedulerLoopRunner Rat) : Prop where
  base_pos : 0 < runner.basePollIntervalSeconds
  base_le_max : runner.basePollIntervalSeconds ≤ runner.maxPollIntervalSeconds
  one_le_multiplier : 1 ≤ runner.backoffMultiplier
  jitter_nonneg : 0 ≤ runner.jitterRatio

theorem accepted_exact_iff : runner.Accepted .exact ↔ runner.InBounds := by
  unfold Accepted init
  simp only [FloatOps.exact, decide_eq_true_eq]
  constructor
  · intro hinit
    split_ifs at hinit with hbase hmax hmultiplier hjitter
    exact ⟨not_le.mp hbase, not_lt.mp hmax, not_lt.mp hmultiplier, not_lt.mp hjitter⟩
  · rintro ⟨hbase, hmax, hmultiplier, hjitter⟩
    rw [if_neg (not_le.mpr hbase), if_neg (not_lt.mpr hmax), if_neg (not_lt.mpr hmultiplier),
      if_neg (not_lt.mpr hjitter)]

/-- The wait that the documentation promises after a streak of idle cycles. -/
def backoff (runner : TriggerSchedulerLoopRunner Rat) : Nat → Rat
  | 0 => runner.basePollIntervalSeconds
  | k + 1 =>
      min (runner.basePollIntervalSeconds * runner.backoffMultiplier ^ k)
        runner.maxPollIntervalSeconds

theorem backoffInterval_exact (idle : Nat) :
    runner.backoffInterval .exact idle = .ok (runner.backoff idle) := by
  cases idle with
  | zero => rfl
  | succ k => exact congrArg Except.ok (FloatOps.exact_min _ _)

theorem InBounds.backoff_mem (hbounds : runner.InBounds) (idle : Nat) :
    runner.basePollIntervalSeconds ≤ runner.backoff idle ∧
      runner.backoff idle ≤ runner.maxPollIntervalSeconds := by
  cases idle with
  | zero => exact ⟨le_rfl, hbounds.base_le_max⟩
  | succ k =>
      refine ⟨le_min ?_ hbounds.base_le_max, min_le_right _ _⟩
      exact le_mul_of_one_le_right hbounds.base_pos.le (one_le_pow₀ hbounds.one_le_multiplier)

/-- The interval with a draw of the random function. -/
def drawnInterval (runner : TriggerSchedulerLoopRunner Rat) (idle : Nat) (draw : Rat) : Rat :=
  runner.backoff idle + runner.backoff idle * runner.jitterRatio * draw

/-- What is left of one computation of the interval. -/
theorem computeIntervalSeconds_exact (hjitter : 0 ≤ runner.jitterRatio) (idle : Nat)
    (env : LoopEnv Rat) (h : LoopTrace Rat) :
    ((runner.computeIntervalSeconds .exact idle).exec env.machine () ⟨h, ()⟩).1 =
      some (.ok (runner.drawnInterval idle (env.random h.draws)), ()) := by
  rw [computeIntervalSeconds, exec_bind, exec_ofExcept, backoffInterval_exact]
  simp only [Result.next]
  have hlt : FloatOps.exact.lt FloatOps.exact.zero runner.jitterRatio =
      decide (0 < runner.jitterRatio) := rfl
  rw [hlt]
  by_cases hpos : 0 < runner.jitterRatio
  · rw [if_pos (decide_eq_true hpos)]
    rfl
  · have hzero : runner.jitterRatio = 0 := le_antisymm (not_lt.mp hpos) hjitter
    rw [if_neg (by simpa using hpos), drawnInterval, hzero, mul_zero, zero_mul, add_zero]
    rfl

end TriggerSchedulerLoopRunner

end Conductor
