/-
Many programs on one machine.  A schedule names the client that makes the next
call; each call is one atomic step.  Every client keeps a history of its own,
which is all it knows, next to the shared one.
-/
import Mathlib.Logic.Function.Basic
import Conductor.Effects.Prog

namespace Conductor.Effects

universe u v w

variable {ι : Type*} {C : Type u} {A : C → Type v} {α : Type w} {W V : Type*}

/-- Clients with the rest of their programs and their own histories, and the
configuration they share. -/
structure Pool (ι : Type*) (W : Type*) (C : Type u) (A : C → Type v) (α : Type w) where
  program : ι → Prog C A α
  own : ι → History C A
  shared : Config W C A

namespace Pool

variable [DecidableEq ι] {M : Machine W C A}

/-- Nobody has made a call yet. -/
def start (program : ι → Prog C A α) (state : W) : Pool ι W C A α :=
  ⟨program, fun _ => [], ⟨[], state⟩⟩

/-- The call a client is about to make. -/
def nextCall (pool : Pool ι W C A α) (i : ι) : Option C :=
  match pool.program i with
  | .call c _ => some c
  | _ => none

/-- Client `i` makes its next call.  A client that is done stays done. -/
def step (M : Machine W C A) (pool : Pool ι W C A α) (i : ι) : Pool ι W C A α :=
  match pool.program i with
  | .call c next =>
      { program := Function.update pool.program i (next (M.step pool.shared c).1)
        own := Function.update pool.own i (⟨c, (M.step pool.shared c).1⟩ :: pool.own i)
        shared := (M.step pool.shared c).2 }
  | _ => pool

def run (M : Machine W C A) (pool : Pool ι W C A α) (schedule : List ι) : Pool ι W C A α :=
  schedule.foldl (step M) pool

/-- Each step of the schedule meets the guard in the pool it starts from. -/
def Guarded (M : Machine W C A) (guard : Pool ι W C A α → ι → Prop) (pool : Pool ι W C A α) :
    List ι → Prop
  | [] => True
  | i :: schedule => guard pool i ∧ (pool.step M i).Guarded M guard schedule

/-- What guarded steps preserve holds after every guarded schedule. -/
theorem run_invariant {guard : Pool ι W C A α → ι → Prop} {I : Pool ι W C A α → Prop}
    (hstep : ∀ pool i, I pool → guard pool i → I (pool.step M i)) {schedule : List ι}
    {pool : Pool ι W C A α} (hpool : I pool) (hguarded : pool.Guarded M guard schedule) :
    I (pool.run M schedule) := by
  induction schedule generalizing pool with
  | nil => exact hpool
  | cons i schedule ih => exact ih (hstep pool i hpool hguarded.1) hguarded.2

/-- A step is a call of one client, or nothing. -/
theorem step_cases (pool : Pool ι W C A α) (i : ι) :
    pool.step M i = pool ∨ ∃ c next, pool.program i = .call c next ∧
      pool.nextCall i = some c ∧ pool.step M i =
        { program := Function.update pool.program i (next (M.step pool.shared c).1)
          own := Function.update pool.own i (⟨c, (M.step pool.shared c).1⟩ :: pool.own i)
          shared := (M.step pool.shared c).2 } := by
  cases hprogram : pool.program i with
  | done value => exact .inl (by simp [step, hprogram])
  | outOfFuel => exact .inl (by simp [step, hprogram])
  | call c next => exact .inr ⟨c, next, rfl, by simp [nextCall, hprogram], by simp [step, hprogram]⟩

/-- Every client keeps to the monitor from here on, and ends as it promised. -/
def Promised (m : Monitor V C A) (post : ι → α → V → Prop) (pool : Pool ι W C A α) : Prop :=
  ∀ i, (pool.program i).wp m.logic (post i) (m.view (pool.own i))

omit [DecidableEq ι] in
theorem Promised.allows {m : Monitor V C A} {post : ι → α → V → Prop} {pool : Pool ι W C A α}
    (hpromised : pool.Promised m post) {i : ι} {c : C} {next : A c → Prog C A α}
    (hprogram : pool.program i = .call c next) : m.allows (m.view (pool.own i)) c := by
  have hcall := hpromised i
  rw [hprogram] at hcall
  exact hcall.1

/-- A client that is answered as the monitor takes for granted goes on so. -/
theorem Promised.call {m : Monitor V C A} {post : ι → α → V → Prop} {pool : Pool ι W C A α}
    (hpromised : pool.Promised m post) {i : ι} {c : C} {next : A c → Prog C A α}
    (hprogram : pool.program i = .call c next) {answer : A c} (hanswer : m.answers c answer)
    (shared : Config W C A) :
    Promised m post
      { program := Function.update pool.program i (next answer)
        own := Function.update pool.own i (⟨c, answer⟩ :: pool.own i)
        shared := shared } := by
  intro j
  by_cases hj : j = i
  · subst hj
    simp only [Function.update_self]
    have hcall := hpromised j
    rw [hprogram] at hcall
    exact hcall.2 answer hanswer
  · simp only [Function.update_of_ne hj]
    exact hpromised j

/-- Every client has kept to the monitor and goes on keeping to it. -/
structure Kept (m : Monitor V C A) (pool : Pool ι W C A α) : Prop where
  lawful : ∀ i, m.Lawful (pool.own i)
  program : ∀ i, (pool.program i).wp m.logic (fun _ _ => True) (m.view (pool.own i))

omit [DecidableEq ι] in
theorem Kept.start {m : Monitor V C A} {program : ι → Prog C A α} (state : W)
    (hprogram : ∀ i, (program i).wp m.logic (fun _ _ => True) m.initial) :
    (Pool.start program state).Kept m :=
  ⟨fun _ => trivial, hprogram⟩

omit [DecidableEq ι] in
theorem Kept.promised {m : Monitor V C A} {pool : Pool ι W C A α} (hkept : pool.Kept m) :
    pool.Promised m fun _ _ _ => True :=
  hkept.program

omit [DecidableEq ι] in
theorem Kept.allows {m : Monitor V C A} {pool : Pool ι W C A α} (hkept : pool.Kept m) {i : ι}
    {c : C} {next : A c → Prog C A α} (hprogram : pool.program i = .call c next) :
    m.allows (m.view (pool.own i)) c :=
  hkept.promised.allows hprogram

/-- A client that is answered as the monitor takes for granted keeps to it. -/
theorem Kept.call {m : Monitor V C A} {pool : Pool ι W C A α} (hkept : pool.Kept m) {i : ι}
    {c : C} {next : A c → Prog C A α} (hprogram : pool.program i = .call c next) {answer : A c}
    (hanswer : m.answers c answer) (shared : Config W C A) :
    Kept m
      { program := Function.update pool.program i (next answer)
        own := Function.update pool.own i (⟨c, answer⟩ :: pool.own i)
        shared := shared } where
  lawful j := by
    by_cases hj : j = i
    · subst hj
      simp only [Function.update_self]
      exact ⟨hkept.allows hprogram, hanswer, hkept.lawful j⟩
    · simp only [Function.update_of_ne hj]
      exact hkept.lawful j
  program := hkept.promised.call hprogram hanswer shared

end Pool

end Conductor.Effects
