/-
Programs that act only through calls to their collaborators.  A program is a
tree: it is finished, or it makes one call and continues with the answer.
What a call does is left to an interpretation, so one program text has a
sequential meaning, an interleaved meaning and a program logic.
-/
import Mathlib.Tactic.Common

namespace Conductor.Effects

universe u v w

variable {C : Type u} {A : C → Type v} {α β : Type w}

/-- A resumption over calls `C`, where a call `c` is answered in `A c`.
`outOfFuel` is the leaf of a bounded unrolling whose loop is still going. -/
inductive Prog (C : Type u) (A : C → Type v) (α : Type w) where
  | done (value : α)
  | outOfFuel
  | call (c : C) (next : A c → Prog C A α)

namespace Prog

/-- Run `f` on the value of a program. -/
def bind : Prog C A α → (α → Prog C A β) → Prog C A β
  | done value, f => f value
  | outOfFuel, _ => outOfFuel
  | call c next, f => call c fun answer => (next answer).bind f

@[simp] theorem done_bind (value : α) (f : α → Prog C A β) :
    (done value).bind f = f value := rfl

@[simp] theorem outOfFuel_bind (f : α → Prog C A β) :
    (outOfFuel : Prog C A α).bind f = outOfFuel := rfl

@[simp] theorem call_bind (c : C) (next : A c → Prog C A α)
    (f : α → Prog C A β) :
    (call c next).bind f = call c fun answer => (next answer).bind f := rfl

end Prog

/-- One call together with its answer. -/
structure Event (C : Type u) (A : C → Type v) where
  call : C
  answer : A call

/-- The calls made so far, the newest first. -/
abbrev History (C : Type u) (A : C → Type v) := List (Event C A)

/-- The meaning of a call as a predicate transformer over states `S`, and what
is owed when the fuel runs out. -/
structure Logic (S : Type*) (C : Type u) (A : C → Type v) where
  call : S → (c : C) → (A c → S → Prop) → Prop
  outOfFuel : S → Prop

variable {S : Type*}

namespace Prog

/-- The weakest precondition of a program under a logic for its calls. -/
def wp (L : Logic S C A) : Prog C A α → (α → S → Prop) → S → Prop
  | done value, post, s => post value s
  | outOfFuel, _, s => L.outOfFuel s
  | call c next, post, s => L.call s c fun answer s' => (next answer).wp L post s'

@[simp] theorem wp_done (L : Logic S C A) (value : α) (post : α → S → Prop)
    (s : S) : (done value).wp L post s = post value s := rfl

@[simp] theorem wp_outOfFuel (L : Logic S C A) (post : α → S → Prop) (s : S) :
    (outOfFuel : Prog C A α).wp L post s = L.outOfFuel s := rfl

@[simp] theorem wp_call (L : Logic S C A) (c : C) (next : A c → Prog C A α)
    (post : α → S → Prop) (s : S) :
    (call c next).wp L post s =
      L.call s c fun answer s' => (next answer).wp L post s' := rfl

@[simp] theorem wp_bind (L : Logic S C A) (p : Prog C A α)
    (f : α → Prog C A β) (post : β → S → Prop) (s : S) :
    (p.bind f).wp L post s = p.wp L (fun value s' => (f value).wp L post s') s := by
  induction p generalizing s with
  | done value => rfl
  | outOfFuel => rfl
  | call c next ih =>
      simp only [call_bind, wp_call]
      congr 1
      funext answer s'
      exact ih answer s'

end Prog

/-- A logic in which a call may be weakened in its postcondition. -/
def Logic.Monotone (L : Logic S C A) : Prop :=
  ∀ ⦃s : S⦄ ⦃c : C⦄ ⦃post post' : A c → S → Prop⦄,
    (∀ answer s', post answer s' → post' answer s') →
      L.call s c post → L.call s c post'

theorem Prog.wp_mono {L : Logic S C A} (hL : L.Monotone) {p : Prog C A α}
    {post post' : α → S → Prop} (himp : ∀ value s, post value s → post' value s)
    {s : S} (h : p.wp L post s) : p.wp L post' s := by
  induction p generalizing s with
  | done value => exact himp value s h
  | outOfFuel => exact h
  | call c next ih =>
      exact hL (fun answer s' h' => ih answer h') h

/-- A monitor watches the calls of a program.  It keeps a view of the history
and says from it which call is allowed next; `answers` is what it takes for
granted about the collaborators. -/
structure Monitor (V : Type*) (C : Type u) (A : C → Type v) where
  initial : V
  next : V → (c : C) → A c → V
  allows : V → C → Prop
  answers : (c : C) → A c → Prop

variable {V : Type*}

namespace Monitor

/-- The view after a history. -/
def view (m : Monitor V C A) : History C A → V
  | [] => m.initial
  | e :: h => m.next (m.view h) e.call e.answer

@[simp] theorem view_nil (m : Monitor V C A) : m.view [] = m.initial := rfl

@[simp] theorem view_cons (m : Monitor V C A) (e : Event C A) (h : History C A) :
    m.view (e :: h) = m.next (m.view h) e.call e.answer := rfl

/-- Demonic reading of a monitor: every admitted answer must be coped with. -/
def logic (m : Monitor V C A) : Logic V C A where
  call v c post := m.allows v c ∧ ∀ answer, m.answers c answer → post answer (m.next v c answer)
  outOfFuel _ := True

theorem logic_monotone (m : Monitor V C A) : m.logic.Monotone := by
  intro v c post post' himp hcall
  exact ⟨hcall.1, fun answer hanswer => himp answer _ (hcall.2 answer hanswer)⟩

/-- The same for programs that must not run out of fuel. -/
def totalLogic (m : Monitor V C A) : Logic V C A :=
  { m.logic with outOfFuel := fun _ => False }

theorem totalLogic_monotone (m : Monitor V C A) : m.totalLogic.Monotone :=
  m.logic_monotone

@[simp] theorem logic_call (m : Monitor V C A) (v : V) (c : C) (post : A c → V → Prop) :
    m.logic.call v c post =
      (m.allows v c ∧ ∀ answer, m.answers c answer → post answer (m.next v c answer)) :=
  rfl

@[simp] theorem logic_outOfFuel (m : Monitor V C A) (v : V) :
    m.logic.outOfFuel v = True := rfl

/-- Every call of the history was allowed by the calls before it. -/
def Lawful (m : Monitor V C A) : History C A → Prop
  | [] => True
  | e :: h => m.allows (m.view h) e.call ∧ m.answers e.call e.answer ∧ m.Lawful h

theorem Lawful.of_append {m : Monitor V C A} {later earlier : History C A}
    (hlawful : m.Lawful (later ++ earlier)) : m.Lawful earlier := by
  induction later with
  | nil => exact hlawful
  | cons head tail ih => exact ih hlawful.2.2

theorem Lawful.allows_of_split {m : Monitor V C A} {later earlier : History C A}
    {e : Event C A} (hlawful : m.Lawful (later ++ e :: earlier)) :
    m.allows (m.view earlier) e.call :=
  hlawful.of_append.1

end Monitor

/-- A machine answers each call from the history and its own state. -/
structure Machine (W : Type*) (C : Type u) (A : C → Type v) where
  respond : History C A → W → (c : C) → A c × W

/-- The recorded history together with the state of the collaborators. -/
structure Config (W : Type*) (C : Type u) (A : C → Type v) where
  history : History C A
  state : W

variable {W : Type*}

/-- The answer to a call, and the configuration after it. -/
def Machine.step (M : Machine W C A) (k : Config W C A) (c : C) :
    A c × Config W C A :=
  let response := M.respond k.history k.state c
  (response.1, ⟨⟨c, response.1⟩ :: k.history, response.2⟩)

/-- Run a program alone.  `none` means that the fuel ran out. -/
def Prog.exec (M : Machine W C A) :
    Prog C A α → Config W C A → Option α × Config W C A
  | done value, k => (some value, k)
  | outOfFuel, k => (none, k)
  | call c next, k => (next (M.step k c).1).exec M (M.step k c).2

/-- Deterministic reading of a machine; `owed` is what must hold if the fuel
runs out. -/
def Machine.logic (M : Machine W C A) (owed : Config W C A → Prop) :
    Logic (Config W C A) C A where
  call k c post := post (M.step k c).1 (M.step k c).2
  outOfFuel := owed

theorem Machine.logic_monotone (M : Machine W C A) (owed : Config W C A → Prop) :
    (M.logic owed).Monotone := by
  intro k c post post' himp hcall
  exact himp _ _ hcall

theorem Machine.call_of_step {M : Machine W C A} {owed : Config W C A → Prop}
    {k k' : Config W C A} {c : C} {answer : A c} (hstep : M.step k c = (answer, k'))
    {post : A c → Config W C A → Prop} (hpost : post answer k') : (M.logic owed).call k c post := by
  change post (M.step k c).1 (M.step k c).2
  rwa [hstep]

/-- The weakest precondition speaks about the one execution there is. -/
theorem Machine.wp_iff_exec (M : Machine W C A) (owed : Config W C A → Prop)
    (p : Prog C A α) (post : α → Config W C A → Prop) (k : Config W C A) :
    p.wp (M.logic owed) post k ↔
      (∀ value k', p.exec M k = (some value, k') → post value k') ∧
        (∀ k', p.exec M k = (none, k') → owed k') := by
  induction p generalizing k with
  | done value => simp [Prog.exec]
  | outOfFuel => simp [Prog.exec, Machine.logic]
  | call c next ih =>
      simp only [Prog.wp_call, Prog.exec]
      exact ih (M.step k c).1 (M.step k c).2

/-- A program that keeps to a monitor leaves a lawful history behind, finished
or not, on a machine that answers as the monitor takes for granted. -/
theorem Prog.exec_lawful {m : Monitor V C A} {M : Machine W C A} {I : Config W C A → Prop}
    (hstep : ∀ k c, I k → I (M.step k c).2)
    (hanswers : ∀ k c, I k → m.answers c (M.step k c).1)
    {p : Prog C A α} {post : α → V → Prop} {k : Config W C A} (hk : I k)
    (hp : p.wp m.logic post (m.view k.history)) (hlawful : m.Lawful k.history) :
    m.Lawful (p.exec M k).2.history := by
  induction p generalizing k with
  | done value => exact hlawful
  | outOfFuel => exact hlawful
  | call c next ih =>
      obtain ⟨hallows, hnext⟩ := hp
      have hanswer := hanswers k c hk
      exact ih (M.step k c).1 (k := (M.step k c).2) (hstep k c hk) (hnext _ hanswer)
        ⟨hallows, hanswer, hlawful⟩

/-- Each call that a program adds to the history was allowed. -/
theorem Prog.exec_allows {m : Monitor V C A} {M : Machine W C A} {I : Config W C A → Prop}
    (hstep : ∀ k c, I k → I (M.step k c).2)
    (hanswers : ∀ k c, I k → m.answers c (M.step k c).1)
    {p : Prog C A α} {post : α → V → Prop} {k : Config W C A} (hk : I k)
    (hp : p.wp m.logic post (m.view k.history)) :
    ∃ new, (p.exec M k).2.history = new ++ k.history ∧ ∀ e ∈ new, ∃ v, m.allows v e.call := by
  induction p generalizing k with
  | done value => exact ⟨[], rfl, by simp⟩
  | outOfFuel => exact ⟨[], rfl, by simp⟩
  | call c next ih =>
      obtain ⟨hallows, hnext⟩ := hp
      obtain ⟨new, hnew, hall⟩ := ih (M.step k c).1 (k := (M.step k c).2) (hstep k c hk)
        (hnext _ (hanswers k c hk))
      refine ⟨new ++ [⟨c, (M.step k c).1⟩], ?_, ?_⟩
      · rw [Prog.exec, hnew]
        simp [Machine.step]
      · simp only [List.mem_append, List.mem_singleton]
        rintro e (he | rfl)
        · exact hall e he
        · exact ⟨_, hallows⟩

/-- What a program guarantees for all admitted answers it guarantees on a
machine that answers so. -/
theorem Prog.wp_machine {m : Monitor V C A} {M : Machine W C A} {I : Config W C A → Prop}
    (hstep : ∀ k c, I k → I (M.step k c).2)
    (hanswers : ∀ k c, I k → m.answers c (M.step k c).1)
    {p : Prog C A α} {post : α → V → Prop} {k : Config W C A} (hk : I k)
    (hp : p.wp m.totalLogic post (m.view k.history)) :
    p.wp (M.logic fun _ => False) (fun value k' => post value (m.view k'.history) ∧ I k') k := by
  induction p generalizing k with
  | done value => exact ⟨hp, hk⟩
  | outOfFuel => exact hp
  | call c next ih =>
      have hnext := hp.2 _ (hanswers k c hk)
      exact ih (M.step k c).1 (k := (M.step k c).2) (hstep k c hk) hnext

theorem Machine.exec_of_wp {M : Machine W C A} {p : Prog C A α}
    {post : α → Config W C A → Prop} {k : Config W C A}
    (hp : p.wp (M.logic fun _ => False) post k) :
    ∃ value k', p.exec M k = (some value, k') ∧ post value k' := by
  obtain ⟨hends, hfuel⟩ := (M.wp_iff_exec _ p post k).mp hp
  cases hexec : p.exec M k with
  | mk ended k' =>
      cases ended with
      | none => exact (hfuel k' hexec).elim
      | some value => exact ⟨value, k', rfl, hends value k' hexec⟩

/-- The state of a machine after a history. -/
def Machine.stateAfter (M : Machine W C A) (start : W) : History C A → W
  | [] => start
  | e :: h => (M.respond h (M.stateAfter start h) e.call).2

/-- The history holds the answers that the machine gives. -/
def Machine.Genuine (M : Machine W C A) (start : W) : History C A → Prop
  | [] => True
  | e :: h => e.answer = (M.respond h (M.stateAfter start h) e.call).1 ∧ M.Genuine start h

theorem Machine.Genuine.of_append {M : Machine W C A} {start : W}
    {later earlier : History C A} (hgenuine : M.Genuine start (later ++ earlier)) :
    M.Genuine start earlier := by
  induction later with
  | nil => exact hgenuine
  | cons head tail ih => exact ih hgenuine.2

/-- Each event of a genuine history was answered by the machine at its time. -/
theorem Machine.Genuine.of_mem {M : Machine W C A} {start : W} {h : History C A}
    (hgenuine : M.Genuine start h) {e : Event C A} (hmem : e ∈ h) :
    ∃ later earlier, h = later ++ e :: earlier ∧
      e.answer = (M.respond earlier (M.stateAfter start earlier) e.call).1 := by
  obtain ⟨later, earlier, rfl⟩ := List.append_of_mem hmem
  exact ⟨later, earlier, rfl, hgenuine.of_append.1⟩

/-- A configuration is what its history says. -/
def Machine.Traced (M : Machine W C A) (start : W) (k : Config W C A) : Prop :=
  k.state = M.stateAfter start k.history ∧ M.Genuine start k.history

theorem Machine.Traced.step {M : Machine W C A} {start : W} {k : Config W C A}
    (htraced : M.Traced start k) (c : C) : M.Traced start (M.step k c).2 := by
  obtain ⟨hstate, hgenuine⟩ := htraced
  refine ⟨?_, ?_, hgenuine⟩ <;>
    simp only [Machine.step, Machine.stateAfter, hstate]

/-- Execution only ever adds to the history. -/
theorem Prog.exec_history (M : Machine W C A) (p : Prog C A α)
    (k : Config W C A) :
    ∃ new, (p.exec M k).2.history = new ++ k.history := by
  induction p generalizing k with
  | done value => exact ⟨[], rfl⟩
  | outOfFuel => exact ⟨[], rfl⟩
  | call c next ih =>
      obtain ⟨new, hnew⟩ := ih (M.step k c).1 (M.step k c).2
      refine ⟨new ++ [⟨c, (M.step k c).1⟩], ?_⟩
      rw [Prog.exec, hnew]
      simp [Machine.step]

theorem Prog.exec_bind (M : Machine W C A) (p : Prog C A α)
    (f : α → Prog C A β) (k : Config W C A) :
    (p.bind f).exec M k =
      match p.exec M k with
      | (some value, k') => (f value).exec M k'
      | (none, k') => (none, k') := by
  induction p generalizing k with
  | done value => rfl
  | outOfFuel => rfl
  | call c next ih => exact ih (M.step k c).1 (M.step k c).2

/-- An invariant of every response is an invariant of every execution. -/
theorem Prog.exec_invariant {M : Machine W C A} {I : Config W C A → Prop}
    (hstep : ∀ k c, I k → I (M.step k c).2) (p : Prog C A α)
    {k : Config W C A} (hk : I k) : I (p.exec M k).2 := by
  induction p generalizing k with
  | done value => exact hk
  | outOfFuel => exact hk
  | call c next ih => exact ih (M.step k c).1 (hstep k c hk)

theorem Prog.exec_traced {M : Machine W C A} {start : W} (p : Prog C A α)
    {k : Config W C A} (htraced : M.Traced start k) : M.Traced start (p.exec M k).2 :=
  Prog.exec_invariant (I := M.Traced start) (fun _ c hk => hk.step c) p htraced

/-- What holds whenever a program ends holds also if its fuel may run out. -/
theorem Prog.wp_of_total {M : Machine W C A} {owed : Config W C A → Prop} {p : Prog C A α}
    {post : α → Config W C A → Prop} {k : Config W C A}
    (hp : p.wp (M.logic fun _ => False) post k) : p.wp (M.logic owed) post k := by
  rw [Machine.wp_iff_exec] at hp ⊢
  exact ⟨hp.1, fun k' hexec => (hp.2 k' hexec).elim⟩

/-- A program leaves a traced configuration, with what it guarantees. -/
theorem Prog.wp_traced {M : Machine W C A} {owed : Config W C A → Prop} {start : W}
    {p : Prog C A α} {post : α → Config W C A → Prop} {k : Config W C A}
    (htraced : M.Traced start k) (hp : p.wp (M.logic owed) post k) :
    p.wp (M.logic owed) (fun value k' => post value k' ∧ M.Traced start k') k := by
  induction p generalizing k with
  | done value => exact ⟨hp, htraced⟩
  | outOfFuel => exact hp
  | call c next ih => exact ih (M.step k c).1 (htraced.step c) hp

theorem Prog.wp_history (M : Machine W C A) (p : Prog C A α) (k : Config W C A) :
    p.wp (M.logic fun _ => True) (fun _ k' => ∃ new, k'.history = new ++ k.history) k := by
  rw [Machine.wp_iff_exec]
  constructor
  · intro value k' hexec
    have hnew := Prog.exec_history M p k
    rw [hexec] at hnew
    exact hnew
  · exact fun _ _ => trivial

/-- A machine on which every call has to be allowed after the calls before it. -/
def Machine.guardedLogic (M : Machine W C A) (allows : History C A → C → Prop) :
    Logic (Config W C A) C A where
  call k c post := allows k.history c ∧ post (M.step k c).1 (M.step k c).2
  outOfFuel _ := True

theorem Machine.guardedLogic_monotone (M : Machine W C A) (allows : History C A → C → Prop) :
    (M.guardedLogic allows).Monotone := by
  intro k c post post' himp hcall
  exact ⟨hcall.1, himp _ _ hcall.2⟩

/-- Each call of the history was allowed after those before it. -/
def Obeys (allows : History C A → C → Prop) : History C A → Prop
  | [] => True
  | e :: h => allows h e.call ∧ Obeys allows h

theorem Obeys.of_append {allows : History C A → C → Prop} {later earlier : History C A}
    (hobeys : Obeys allows (later ++ earlier)) : Obeys allows earlier := by
  induction later with
  | nil => exact hobeys
  | cons e later ih => exact ih hobeys.2

/-- The calls of a program that was shown to keep to the rules are allowed. -/
theorem Prog.exec_obeys {M : Machine W C A} {allows : History C A → C → Prop} {p : Prog C A α}
    {post : α → Config W C A → Prop} {k : Config W C A}
    (hp : p.wp (M.guardedLogic allows) post k) (hobeys : Obeys allows k.history) :
    Obeys allows (p.exec M k).2.history := by
  induction p generalizing k with
  | done value => exact hobeys
  | outOfFuel => exact hobeys
  | call c next ih =>
      obtain ⟨hallows, hnext⟩ := hp
      exact ih (M.step k c).1 hnext ⟨hallows, hobeys⟩

end Conductor.Effects
