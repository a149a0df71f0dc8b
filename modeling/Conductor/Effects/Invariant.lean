/-
Assertions that a block keeps however it ends.  An assertion speaks about the
object and about the state of a logic, so one rule for each way of building a
block carries it through a program text.
-/
import Conductor.Effects.Coupling

namespace Conductor.Effects

universe u

variable {C : Type u} {R : C → Type} {X σ τ α β γ : Type} {S : Type*}

theorem Prog.bind_assoc {A : C → Type} (p : Prog C A α) (f : α → Prog C A β)
    (g : β → Prog C A γ) : (p.bind f).bind g = p.bind fun value => (f value).bind g := by
  induction p with
  | done value => rfl
  | outOfFuel => rfl
  | call c next ih =>
      simp only [call_bind]
      congr 1
      funext answer
      exact ih answer

namespace Block

/-- Statements may be grouped. -/
theorem bind_assoc (m : Block C R X σ α) (f : α → Block C R X σ β)
    (g : β → Block C R X σ γ) : m >>= f >>= g = m >>= fun value => f value >>= g := by
  funext x
  change Prog.bind (Prog.bind (m.run x) _) _ = Prog.bind (m.run x) _
  rw [Prog.bind_assoc]
  congr 1
  funext outcome
  rcases outcome with ⟨e | value, y⟩ <;> rfl

theorem wp_mutate_bind {L : Logic S C (Reply R X)} (f : σ → σ) (g : Unit → Block C R X σ α)
    (post : Except X α → σ → S → Prop) (x : σ) (s : S) :
    (mutate f >>= g).wp L post x s = (g ()).wp L post (f x) s := by
  rw [wp_bind, wp_mutate]

theorem wp_object_bind {L : Logic S C (Reply R X)} (g : σ → Block C R X σ α)
    (post : Except X α → σ → S → Prop) (x : σ) (s : S) :
    (object >>= g).wp L post x s = (g x).wp L post x s := by
  rw [wp_bind, wp_object]

section

variable {W : Type*} {M : Machine W C (Reply R X)} {owed : Config W C (Reply R X) → Prop}
variable {m : Block C R X σ α} {post : Except X α → σ → Config W C (Reply R X) → Prop} {x : σ}
variable {k : Config W C (Reply R X)}

theorem wp_of_total (hm : m.wp (M.logic fun _ => False) post x k) : m.wp (M.logic owed) post x k :=
  Prog.wp_of_total hm

theorem wp_traced {start : W} (htraced : M.Traced start k) (hm : m.wp (M.logic owed) post x k) :
    m.wp (M.logic owed) (fun outcome y k' => post outcome y k' ∧ M.Traced start k') x k :=
  Prog.wp_traced htraced hm

theorem wp_history (m : Block C R X σ α) (x : σ) (k : Config W C (Reply R X)) :
    m.wp (M.logic fun _ => True) (fun _ _ k' => ∃ new, k'.history = new ++ k.history) x k :=
  Prog.wp_history M (m.run x) k

end

/-- The assertion holds again after the block, whatever its outcome is. -/
def Keeps (L : Logic S C (Reply R X)) (I : σ → S → Prop) (m : Block C R X σ α) : Prop :=
  ∀ ⦃x s⦄, I x s → m.wp L (fun _ y s' => I y s') x s

namespace Keeps

variable {L : Logic S C (Reply R X)} {I : σ → S → Prop} {J : τ → S → Prop}

theorem pure (value : α) : Keeps L I (Pure.pure value : Block C R X σ α) :=
  fun _ _ h => h

theorem raise (e : X) : Keeps L I (Block.raise e : Block C R X σ α) :=
  fun _ _ h => h

theorem ofExcept (result : Except X α) :
    Keeps L I (Block.ofExcept result : Block C R X σ α) :=
  fun _ _ h => h

theorem object : Keeps L I (Block.object : Block C R X σ σ) :=
  fun _ _ h => h

theorem mutate {f : σ → σ} (hf : ∀ ⦃x s⦄, I x s → I (f x) s) :
    Keeps L I (Block.mutate f : Block C R X σ Unit) :=
  fun _ _ h => hf h

theorem perform {c : C} (hc : ∀ ⦃x s⦄, I x s → L.call s c fun _ s' => I x s') :
    Keeps L I (Block.perform c : Block C R X σ (R c)) :=
  fun _ _ h => hc h

theorem outOfFuel (howed : ∀ ⦃x s⦄, I x s → L.outOfFuel s) :
    Keeps L I (Block.outOfFuel : Block C R X σ α) :=
  fun _ _ h => howed h

/-- Statements one after the other. -/
theorem bind (hL : L.Monotone) {m : Block C R X σ α} {f : α → Block C R X σ β}
    (hm : Keeps L I m) (hf : ∀ value, Keeps L I (f value)) : Keeps L I (m >>= f) := by
  intro x s h
  rw [wp_bind]
  refine wp_mono hL ?_ (hm h)
  intro outcome y s' hafter
  cases outcome with
  | error e => exact hafter
  | ok value => exact hf value hafter

/-- Statements that look at the object first. -/
theorem bind_object {f : σ → Block C R X σ α}
    (hf : ∀ ⦃x s⦄, I x s → (f x).wp L (fun _ y s' => I y s') x s) :
    Keeps L I (Block.object >>= f) := by
  intro x s h
  rw [wp_bind, wp_object]
  exact hf h

theorem tryExcept (hL : L.Monotone) {catches : X → Bool} {m : Block C R X σ α}
    {handler : X → Block C R X σ α} (hm : Keeps L I m)
    (hhandler : ∀ e, Keeps L I (handler e)) :
    Keeps L I (Block.tryExcept catches m handler) := by
  intro x s h
  rw [wp_tryExcept]
  refine wp_mono hL ?_ (hm h)
  intro outcome y s' hafter
  cases outcome with
  | ok value => exact hafter
  | error e =>
      dsimp only
      split
      · exact hhandler e hafter
      · exact hafter

end Keeps

end Block

/-- The monitor that only writes the calls down; `answers` is what it takes for
granted about them. -/
def Monitor.recording {A : C → Type} (answers : (c : C) → A c → Prop) :
    Monitor (History C A) C A where
  initial := []
  next h c answer := ⟨c, answer⟩ :: h
  allows _ _ := True
  answers := answers

@[simp] theorem Monitor.view_recording {A : C → Type} {answers : (c : C) → A c → Prop}
    (h : History C A) : (recording answers).view h = h := by
  induction h with
  | nil => rfl
  | cons e h ih =>
      rw [Monitor.view_cons, ih]
      rfl

/-- What a block guarantees of the history it leaves it guarantees on a machine
that answers as taken for granted. -/
theorem Block.exec_of_recording {W : Type*} {answers : (c : C) → Reply R X c → Prop}
    {M : Machine W C (Reply R X)} (hanswers : ∀ k c, answers c (M.step k c).1)
    {m : Block C R X σ α} {post : Except X α → σ → History C (Reply R X) → Prop} {x : σ}
    {k : Config W C (Reply R X)}
    (hm : m.wp (Monitor.recording answers).totalLogic post x k.history) :
    ∃ outcome x' k', m.exec M x k = (some (outcome, x'), k') ∧ post outcome x' k'.history := by
  have hwp := Prog.wp_machine (M := M) (I := fun _ => True) (fun _ _ _ => trivial)
    (fun k c _ => hanswers k c) trivial (by rw [Monitor.view_recording]; exact hm)
  obtain ⟨⟨outcome, x'⟩, k', hexec, hpost, -⟩ := Machine.exec_of_wp hwp
  rw [Monitor.view_recording] at hpost
  exact ⟨outcome, x', k', hexec, hpost⟩

end Conductor.Effects
