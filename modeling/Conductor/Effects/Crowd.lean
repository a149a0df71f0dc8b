/-
Many clients of one device.  A call is one atomic step; it may have to wait, it
may fail, and a client may die before any of its calls.  A schedule says whose
turn it is and what happens, and a trace remembers who has made which call.
-/
import Mathlib.Logic.Function.Basic
import Conductor.Effects.Block

namespace Conductor.Effects

universe u v w

variable {ι : Type*} {C : Type u} {A : C → Type v} {α : Type w} {W F V : Type*}

/-- What a device does with a call of a client: it answers, or lets the client
wait; a fault makes it answer otherwise, if the call can fail; and it takes note
of the death of a client. -/
structure Device (ι : Type*) (W : Type*) (C : Type u) (A : C → Type v) (F : Type*) where
  respond : ι → W → (c : C) → Option (A c × W)
  fail : F → ι → W → (c : C) → Option (A c × W)
  bury : ι → W → W

/-- The calls of all the clients, the newest first. -/
abbrev CallLog (ι : Type*) (C : Type u) (A : C → Type v) := List (ι × Event C A)

/-- The calls that one of the clients has made. -/
def ownCalls [DecidableEq ι] (i : ι) : CallLog ι C A → History C A
  | [] => []
  | (j, e) :: trace => if j = i then e :: ownCalls i trace else ownCalls i trace

theorem mem_ownCalls [DecidableEq ι] {i : ι} {e : Event C A} {trace : CallLog ι C A} :
    e ∈ ownCalls i trace ↔ (i, e) ∈ trace := by
  induction trace with
  | nil => simp [ownCalls]
  | cons entry trace ih =>
      obtain ⟨j, e'⟩ := entry
      rw [ownCalls]
      by_cases hsame : j = i
      · rw [if_pos hsame, List.mem_cons, List.mem_cons, ih, Prod.mk.injEq]
        simp [hsame]
      · rw [if_neg hsame, List.mem_cons, ih, Prod.mk.injEq]
        simp [Ne.symm hsame]

theorem ownCalls_append [DecidableEq ι] (i : ι) (later earlier : CallLog ι C A) :
    ownCalls i (later ++ earlier) = ownCalls i later ++ ownCalls i earlier := by
  induction later with
  | nil => rfl
  | cons entry later ih =>
      rw [List.cons_append, ownCalls, ownCalls, ih]
      split <;> rfl

/-- The clients that are alive with the rest of their programs, what all of them
have done, and the device. -/
structure Crowd (ι : Type*) (W : Type*) (C : Type u) (A : C → Type v) (α : Type w) where
  program : ι → Option (Prog C A α)
  trace : CallLog ι C A
  state : W

namespace Crowd

/-- A turn of a client: its next call, a failure of this call, or its death. -/
inductive Turn (ι : Type*) (F : Type*) where
  | act (i : ι)
  | fail (i : ι) (f : F)
  | die (i : ι)

/-- Everybody is alive, and nobody has made a call yet. -/
def start (program : ι → Prog C A α) (state : W) : Crowd ι W C A α :=
  ⟨fun i => some (program i), [], state⟩

variable [DecidableEq ι]

/-- Client `i` makes its next call and is answered, unless it has to wait. -/
def answered (crowd : Crowd ι W C A α) (i : ι) (reply : (c : C) → Option (A c × W)) :
    Crowd ι W C A α :=
  match crowd.program i with
  | some (.call c next) =>
      match reply c with
      | some (answer, state) =>
          { program := Function.update crowd.program i (some (next answer))
            trace := (i, ⟨c, answer⟩) :: crowd.trace
            state := state }
      | none => crowd
  | _ => crowd

def step (D : Device ι W C A F) (crowd : Crowd ι W C A α) : Turn ι F → Crowd ι W C A α
  | .act i => crowd.answered i (D.respond i crowd.state)
  | .fail i f => crowd.answered i (D.fail f i crowd.state)
  | .die i =>
      match crowd.program i with
      | some _ =>
          { program := Function.update crowd.program i none
            trace := crowd.trace
            state := D.bury i crowd.state }
      | none => crowd

def run (D : Device ι W C A F) (crowd : Crowd ι W C A α) (schedule : List (Turn ι F)) :
    Crowd ι W C A α :=
  schedule.foldl (step D) crowd

theorem run_append (D : Device ι W C A F) (crowd : Crowd ι W C A α)
    (schedule later : List (Turn ι F)) :
    crowd.run D (schedule ++ later) = (crowd.run D schedule).run D later :=
  List.foldl_append

/-- What every turn preserves holds after every schedule. -/
theorem run_invariant {D : Device ι W C A F} {I : Crowd ι W C A α → Prop}
    (hstep : ∀ crowd turn, I crowd → I (crowd.step D turn)) {schedule : List (Turn ι F)}
    {crowd : Crowd ι W C A α} (hcrowd : I crowd) : I (crowd.run D schedule) := by
  induction schedule generalizing crowd with
  | nil => exact hcrowd
  | cons turn schedule ih => exact ih (hstep crowd turn hcrowd)

/-- The device may give this answer to a call of the client. -/
def MayAnswer (D : Device ι W C A F) (i : ι) (s : W) (c : C) (answer : A c) (s' : W) : Prop :=
  D.respond i s c = some (answer, s') ∨ ∃ f, D.fail f i s c = some (answer, s')

/-- What a turn can do to the clients. -/
inductive Change (D : Device ι W C A F) (crowd : Crowd ι W C A α) : Crowd ι W C A α → Prop
  | nothing : Change D crowd crowd
  | call {i : ι} {c : C} {next : A c → Prog C A α} {answer : A c} {state : W}
      (hprogram : crowd.program i = some (.call c next))
      (hanswer : MayAnswer D i crowd.state c answer state) :
      Change D crowd
        { program := Function.update crowd.program i (some (next answer))
          trace := (i, ⟨c, answer⟩) :: crowd.trace
          state := state }
  | death {i : ι} (halive : (crowd.program i).isSome) :
      Change D crowd
        { program := Function.update crowd.program i none
          trace := crowd.trace
          state := D.bury i crowd.state }

theorem answered_change {D : Device ι W C A F} {crowd : Crowd ι W C A α} {i : ι}
    {reply : (c : C) → Option (A c × W)}
    (hreply : ∀ c answer state, reply c = some (answer, state) →
      MayAnswer D i crowd.state c answer state) :
    Change D crowd (crowd.answered i reply) := by
  unfold answered
  split
  · rename_i c next hprogram
    split
    · rename_i answer state hanswer
      exact .call hprogram (hreply c answer state hanswer)
    · exact .nothing
  · exact .nothing

theorem step_change (D : Device ι W C A F) (crowd : Crowd ι W C A α) (turn : Turn ι F) :
    Change D crowd (crowd.step D turn) := by
  cases turn with
  | act i => exact answered_change fun c answer state hanswer => .inl hanswer
  | fail i f => exact answered_change fun c answer state hanswer => .inr ⟨f, hanswer⟩
  | die i =>
      cases hprogram : crowd.program i with
      | none =>
          have hdead : crowd.step D (.die i) = crowd := by simp [step, hprogram]
          rw [hdead]
          exact .nothing
      | some program =>
          have hdies : crowd.step D (.die i) =
              { program := Function.update crowd.program i none
                trace := crowd.trace
                state := D.bury i crowd.state } := by simp [step, hprogram]
          rw [hdies]
          exact .death (Option.isSome_iff_exists.mpr ⟨program, hprogram⟩)

/-- Nothing that was done is undone. -/
theorem run_trace (D : Device ι W C A F) (crowd : Crowd ι W C A α) (schedule : List (Turn ι F)) :
    ∃ new, (crowd.run D schedule).trace = new ++ crowd.trace := by
  refine run_invariant (I := fun later => ∃ new, later.trace = new ++ crowd.trace) ?_ ⟨[], rfl⟩
  rintro later turn ⟨new, hnew⟩
  have hchange := step_change D later turn
  generalize later.step D turn = next at hchange ⊢
  cases hchange with
  | nothing => exact ⟨new, hnew⟩
  | call hprogram hanswer => exact ⟨_ :: new, congrArg (List.cons _) hnew⟩
  | death halive => exact ⟨new, hnew⟩

/-- Whatever the device may answer, there is a turn in which it does. -/
theorem exists_turn {D : Device ι W C A F} {crowd : Crowd ι W C A α} {i : ι} {c : C}
    {next : A c → Prog C A α} {answer : A c} {state : W}
    (hprogram : crowd.program i = some (.call c next))
    (hanswer : MayAnswer D i crowd.state c answer state) :
    ∃ turn, crowd.step D turn =
      { program := Function.update crowd.program i (some (next answer))
        trace := (i, ⟨c, answer⟩) :: crowd.trace
        state := state } := by
  rcases hanswer with hrespond | ⟨f, hfail⟩
  · exact ⟨.act i, by simp [step, answered, hprogram, hrespond]⟩
  · exact ⟨.fail i f, by simp [step, answered, hprogram, hfail]⟩

section Simulation

universe u' v' w'

variable {C' : Type u'} {A' : C' → Type v'} {α' : Type w'} {W' F' : Type*}

/-- If each turn of one crowd is matched by turns of another, so is each run. -/
theorem run_simulates {D : Device ι W C A F} {D' : Device ι W' C' A' F'}
    {R : Crowd ι W C A α → Crowd ι W' C' A' α' → Prop}
    (hstep : ∀ crowd crowd' turn, R crowd crowd' →
      ∃ turns, R (crowd.step D turn) (crowd'.run D' turns))
    (schedule : List (Turn ι F)) {crowd : Crowd ι W C A α} {crowd' : Crowd ι W' C' A' α'}
    (hR : R crowd crowd') :
    ∃ schedule', R (crowd.run D schedule) (crowd'.run D' schedule') := by
  induction schedule generalizing crowd crowd' with
  | nil => exact ⟨[], hR⟩
  | cons turn schedule ih =>
      obtain ⟨turns, hturns⟩ := hstep crowd crowd' turn hR
      obtain ⟨rest, hrest⟩ := ih hturns
      refine ⟨turns ++ rest, ?_⟩
      rw [run_append]
      exact hrest

end Simulation

/-- What a client can come to on its own, if it is answered as the device may
answer it: what it brings about is told by the device and its own calls. -/
def possible (D : Device ι W C A F) (i : ι) : Logic (W × History C A) C A where
  call k c post := ∃ answer s, MayAnswer D i k.1 c answer s ∧ post answer (s, ⟨c, answer⟩ :: k.2)
  outOfFuel _ := False

omit [DecidableEq ι] in
theorem possible_monotone (D : Device ι W C A F) (i : ι) : (possible D i).Monotone := by
  intro k c post post' himp hcall
  obtain ⟨answer, s, hanswer, hpost⟩ := hcall
  exact ⟨answer, s, hanswer, himp answer _ hpost⟩

/-- Whatever a client can come to, there is a schedule with which it does. -/
theorem exists_run {D : Device ι W C A F} {i : ι} {p : Prog C A α}
    {post : α → W × History C A → Prop} {crowd : Crowd ι W C A α}
    (hprogram : crowd.program i = some p)
    (hwp : p.wp (possible D i) post (crowd.state, ownCalls i crowd.trace)) :
    ∃ schedule value, (crowd.run D schedule).program i = some (.done value) ∧
      post value ((crowd.run D schedule).state, ownCalls i (crowd.run D schedule).trace) := by
  induction p generalizing crowd with
  | done value => exact ⟨[], value, hprogram, hwp⟩
  | outOfFuel => exact hwp.elim
  | call c next ih =>
      obtain ⟨answer, s, hanswer, hrest⟩ := hwp
      obtain ⟨turn, hturn⟩ := exists_turn hprogram hanswer
      have hnext : (crowd.step D turn).program i = some (next answer) := by
        rw [hturn]
        exact Function.update_self _ _ _
      have hown : ownCalls i (crowd.step D turn).trace =
          ⟨c, answer⟩ :: ownCalls i crowd.trace := by
        rw [hturn, ownCalls, if_pos rfl]
      have hgoes : (next answer).wp (possible D i) post
          ((crowd.step D turn).state, ownCalls i (crowd.step D turn).trace) := by
        rw [hown, hturn]
        exact hrest
      obtain ⟨schedule, value, hrun⟩ := ih answer hnext hgoes
      exact ⟨turn :: schedule, value, hrun⟩

end Crowd

/-- What a client guarantees about its calls and relies on in their answers,
given what it has seen so far, and where it may stop for ever. -/
structure Contract (V : Type*) (C : Type u) (A : C → Type v) where
  initial : V
  next : V → (c : C) → A c → V
  guarantees : V → C → Prop
  relies : V → (c : C) → A c → Prop
  rests : V → Prop

namespace Contract

/-- What is known after a history. -/
def view (K : Contract V C A) : History C A → V
  | [] => K.initial
  | e :: h => K.next (K.view h) e.call e.answer

/-- Every call of the history was one that the contract allows. -/
def Kept (K : Contract V C A) : History C A → Prop
  | [] => True
  | e :: h => K.guarantees (K.view h) e.call ∧ K.Kept h

theorem Kept.of_append {K : Contract V C A} {later earlier : History C A}
    (hkept : K.Kept (later ++ earlier)) : K.Kept earlier := by
  induction later with
  | nil => exact hkept
  | cons e later ih => exact ih hkept.2

theorem Kept.guarantees {K : Contract V C A} {later earlier : History C A} {e : Event C A}
    (hkept : K.Kept (later ++ e :: earlier)) : K.guarantees (K.view earlier) e.call :=
  hkept.of_append.1

def logic (K : Contract V C A) : Logic V C A where
  call v c post :=
    K.guarantees v c ∧ ∀ answer, K.relies v c answer → post answer (K.next v c answer)
  outOfFuel v := K.rests v

theorem logic_monotone (K : Contract V C A) : K.logic.Monotone := by
  intro v c post post' himp hcall
  exact ⟨hcall.1, fun answer hanswer => himp answer _ (hcall.2 answer hanswer)⟩

section Blocks

variable {R : C → Type} {X σ β : Type} {K : Contract V C (Reply R X)} {v : V} {x : σ}

/-- The rule for a call in a block. -/
theorem wp_perform {c : C} (hguarantees : K.guarantees v c)
    {post : Except X (R c) → σ → V → Prop}
    (hpost : ∀ answer, K.relies v c answer → post answer x (K.next v c answer)) :
    (Block.perform c).wp K.logic post x v :=
  ⟨hguarantees, hpost⟩

/-- The rule for a call that may fail, and what comes after it. -/
theorem wp_perform_then {c : C} {f : R c → Block C R X σ β} (hguarantees : K.guarantees v c)
    {post : Except X β → σ → V → Prop}
    (herror : ∀ e, K.relies v c (.error e) → post (.error e) x (K.next v c (.error e)))
    (hok : ∀ response, K.relies v c (.ok response) →
      (f response).wp K.logic post x (K.next v c (.ok response))) :
    (Block.perform c >>= f).wp K.logic post x v := by
  rw [Block.wp_bind]
  refine wp_perform hguarantees ?_
  intro answer hrelies
  cases answer with
  | error e => exact herror e hrelies
  | ok response => exact hok response hrelies

end Blocks

end Contract

namespace Crowd

variable [DecidableEq ι] {K : Contract V C A}

/-- What a client knows. -/
def known (K : Contract V C A) (trace : CallLog ι C A) (i : ι) : V := K.view (ownCalls i trace)

theorem known_cons_self (trace : CallLog ι C A) (i : ι) (e : Event C A) :
    known K ((i, e) :: trace) i = K.next (known K trace i) e.call e.answer := by
  rw [known, ownCalls, if_pos rfl]
  rfl

theorem known_cons_of_ne (trace : CallLog ι C A) {i j : ι} (hne : j ≠ i) (e : Event C A) :
    known K ((i, e) :: trace) j = known K trace j := by
  rw [known, ownCalls, if_neg (Ne.symm hne)]
  rfl

/-- Everybody has kept to the contract, and everybody alive goes on keeping to it. -/
structure Keeps (K : Contract V C A) (crowd : Crowd ι W C A α) : Prop where
  done : ∀ i, K.Kept (ownCalls i crowd.trace)
  rest : ∀ i program, crowd.program i = some program →
    program.wp K.logic (fun _ v => K.rests v) (known K crowd.trace i)

theorem keeps_start {program : ι → Prog C A α} (state : W)
    (hprogram : ∀ i, (program i).wp K.logic (fun _ v => K.rests v) K.initial) :
    Keeps K (.start program state) where
  done _ := trivial
  rest i p hp := by
    cases hp
    exact hprogram i

theorem Keeps.guarantees {crowd : Crowd ι W C A α} (hkeeps : Keeps K crowd) {i : ι} {c : C}
    {next : A c → Prog C A α} (hprogram : crowd.program i = some (.call c next)) :
    K.guarantees (known K crowd.trace i) c :=
  (hkeeps.rest i _ hprogram).1

/-- Who is answered as the contract says goes on keeping to it. -/
theorem Keeps.call {crowd : Crowd ι W C A α} (hkeeps : Keeps K crowd) {i : ι} {c : C}
    {next : A c → Prog C A α} (hprogram : crowd.program i = some (.call c next)) {answer : A c}
    (hanswer : K.relies (known K crowd.trace i) c answer) (state : W) :
    Keeps K
      { program := Function.update crowd.program i (some (next answer))
        trace := (i, ⟨c, answer⟩) :: crowd.trace
        state := state } := by
  constructor
  · intro j
    dsimp only
    rw [ownCalls]
    by_cases hsame : i = j
    · subst hsame
      rw [if_pos rfl]
      exact ⟨hkeeps.guarantees hprogram, hkeeps.done i⟩
    · rw [if_neg hsame]
      exact hkeeps.done j
  · intro j program hj
    dsimp only at hj ⊢
    by_cases hsame : j = i
    · subst hsame
      rw [Function.update_self] at hj
      cases hj
      rw [known_cons_self]
      exact (hkeeps.rest j _ hprogram).2 answer hanswer
    · rw [Function.update_of_ne hsame] at hj
      rw [known_cons_of_ne _ hsame]
      exact hkeeps.rest j program hj

theorem Keeps.death {crowd : Crowd ι W C A α} (hkeeps : Keeps K crowd) (i : ι) (state : W) :
    Keeps K
      { program := Function.update crowd.program i none
        trace := crowd.trace
        state := state } := by
  refine ⟨hkeeps.done, ?_⟩
  intro j program hj
  dsimp only at hj ⊢
  by_cases hsame : j = i
  · subst hsame
    rw [Function.update_self] at hj
    cases hj
  · rw [Function.update_of_ne hsame] at hj
    exact hkeeps.rest j program hj

end Crowd

end Conductor.Effects
