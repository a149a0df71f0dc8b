/-
Blocks of statements that may raise and that work on one mutable object.  An
exception leaves the object as it was when the exception was raised, so a
handler sees every mutation made before it.
-/
import Conductor.Effects.Prog

namespace Conductor.Effects

universe u

variable {C : Type u} {R : C → Type} {X σ τ α β : Type} {S : Type*}

/-- The answer to a call: a reply, or an exception raised by the callee. -/
abbrev Reply (R : C → Type) (X : Type) (c : C) : Type := Except X (R c)

/-- A block over calls `C` with exceptions `X` and a local object `σ`. -/
def Block (C : Type u) (R : C → Type) (X σ α : Type) : Type u :=
  σ → Prog C (Reply R X) (Except X α × σ)

namespace Block

/-- Run the block on an object. -/
def run (m : Block C R X σ α) (x : σ) : Prog C (Reply R X) (Except X α × σ) :=
  m x

instance : Monad (Block C R X σ) where
  pure value := fun x => .done (.ok value, x)
  bind m f := fun x => (m.run x).bind fun
    | (.ok value, x') => (f value).run x'
    | (.error e, x') => .done (.error e, x')

/-- Call a collaborator; an exception it raises is raised here. -/
def perform (c : C) : Block C R X σ (R c) :=
  fun x => .call c fun reply => .done (reply, x)

def raise (e : X) : Block C R X σ α :=
  fun x => .done (.error e, x)

/-- A function that returns or raises, without calls of its own. -/
def ofExcept (result : Except X α) : Block C R X σ α :=
  fun x => .done (result, x)

/-- The current value of the local object. -/
def object : Block C R X σ σ :=
  fun x => .done (.ok x, x)

def mutate (f : σ → σ) : Block C R X σ Unit :=
  fun x => .done (.ok (), f x)

/-- The bounded unrolling of a loop has no iteration left. -/
def outOfFuel : Block C R X σ α :=
  fun _ => .outOfFuel

/-- `try: m  except E as e: handler(e)`, for the exceptions that `catches`
admits. -/
def tryExcept (catches : X → Bool) (m : Block C R X σ α)
    (handler : X → Block C R X σ α) : Block C R X σ α :=
  fun x => (m.run x).bind fun
    | (.ok value, x') => .done (.ok value, x')
    | (.error e, x') =>
        if catches e then (handler e).run x' else .done (.error e, x')

/-- `try: m  finally: cleanup`. -/
def tryFinally (m : Block C R X σ α) (cleanup : Block C R X σ Unit) : Block C R X σ α :=
  fun x => (m.run x).bind fun
    | (outcome, x') => (cleanup.run x').bind fun
        | (.ok _, x'') => .done (outcome, x'')
        | (.error e, x'') => .done (.error e, x'')

/-- Work on another object, and return it together with the value. -/
def on (y : τ) (m : Block C R X τ α) : Block C R X σ (α × τ) :=
  fun x => (m.run y).bind fun
    | (.ok value, y') => .done (.ok (value, y'), x)
    | (.error e, _) => .done (.error e, x)

/-- What a block guarantees of its outcome, its object and the state. -/
def wp (L : Logic S C (Reply R X)) (m : Block C R X σ α)
    (post : Except X α → σ → S → Prop) (x : σ) (s : S) : Prop :=
  (m.run x).wp L (fun outcome s' => post outcome.1 outcome.2 s') s

variable {L : Logic S C (Reply R X)} {post : Except X α → σ → S → Prop}
variable {x : σ} {s : S}

theorem wp_mono (hL : L.Monotone) {m : Block C R X σ α}
    {post' : Except X α → σ → S → Prop}
    (himp : ∀ outcome x' s', post outcome x' s' → post' outcome x' s')
    (h : m.wp L post x s) : m.wp L post' x s := by
  apply Prog.wp_mono hL _ h
  intro outcome s'
  exact himp outcome.1 outcome.2 s'

@[simp] theorem wp_pure (value : α) :
    wp L (pure value : Block C R X σ α) post x s = post (.ok value) x s := rfl

@[simp] theorem wp_bind (m : Block C R X σ α) (f : α → Block C R X σ β)
    (post : Except X β → σ → S → Prop) :
    wp L (m >>= f) post x s =
      m.wp L (fun outcome x' s' => match outcome with
        | .ok value => (f value).wp L post x' s'
        | .error e => post (.error e) x' s') x s := by
  change ((m.run x).bind _).wp L _ s = _
  rw [Prog.wp_bind, wp]
  congr 1
  funext outcome s'
  rcases outcome with ⟨value | e, x'⟩ <;> rfl

@[simp] theorem wp_perform (c : C) (post : Except X (R c) → σ → S → Prop) :
    wp L (perform c) post x s = L.call s c fun reply s' => post reply x s' := rfl

@[simp] theorem wp_raise (e : X) :
    wp L (raise e : Block C R X σ α) post x s = post (.error e) x s := rfl

@[simp] theorem wp_ofExcept (result : Except X α) :
    wp L (ofExcept result) post x s = post result x s := rfl

@[simp] theorem wp_object (post : Except X σ → σ → S → Prop) :
    wp L object post x s = post (.ok x) x s := rfl

@[simp] theorem wp_mutate (f : σ → σ) (post : Except X Unit → σ → S → Prop) :
    wp L (mutate f) post x s = post (.ok ()) (f x) s := rfl

@[simp] theorem wp_outOfFuel :
    wp L (outOfFuel : Block C R X σ α) post x s = L.outOfFuel s := rfl

@[simp] theorem wp_tryExcept (catches : X → Bool) (m : Block C R X σ α)
    (handler : X → Block C R X σ α) :
    wp L (tryExcept catches m handler) post x s =
      m.wp L (fun outcome x' s' => match outcome with
        | .ok value => post (.ok value) x' s'
        | .error e => if catches e then (handler e).wp L post x' s'
            else post (.error e) x' s') x s := by
  change ((m.run x).bind _).wp L _ s = _
  rw [Prog.wp_bind, wp]
  congr 1
  funext outcome s'
  rcases outcome with ⟨e | value, x'⟩
  · dsimp only
    split <;> rfl
  · rfl

@[simp] theorem wp_tryFinally (m : Block C R X σ α) (cleanup : Block C R X σ Unit) :
    wp L (tryFinally m cleanup) post x s =
      m.wp L (fun outcome x' s' => cleanup.wp L (fun ended x'' s'' => match ended with
        | .ok _ => post outcome x'' s''
        | .error e => post (.error e) x'' s'') x' s') x s := by
  change ((m.run x).bind _).wp L _ s = _
  rw [Prog.wp_bind, wp]
  congr 1
  funext outcome s'
  rw [Prog.wp_bind, wp]
  congr 1
  funext ended s''
  rcases ended with ⟨e | value, x''⟩ <;> rfl

@[simp] theorem wp_on (y : τ) (m : Block C R X τ α)
    (post : Except X (α × τ) → σ → S → Prop) :
    wp L (on y m) post x s =
      m.wp L (fun outcome y' s' => match outcome with
        | .ok value => post (.ok (value, y')) x s'
        | .error e => post (.error e) x s') y s := by
  change ((m.run y).bind _).wp L _ s = _
  rw [Prog.wp_bind, wp]
  congr 1
  funext outcome s'
  rcases outcome with ⟨e | value, y'⟩ <;> rfl

/-- A postcondition that promises nothing about an exception. -/
def onReturn (Q : α → σ → S → Prop) : Except X α → σ → S → Prop
  | .ok value, x, s => Q value x s
  | .error _, _, _ => True

@[simp] theorem onReturn_ok (Q : α → σ → S → Prop) (value : α) :
    onReturn (X := X) Q (.ok value) x s = Q value x s := rfl

@[simp] theorem onReturn_error (Q : α → σ → S → Prop) (e : X) :
    onReturn Q (.error e) x s = True := rfl

/-- Sequencing of specified blocks. -/
theorem wp_seq (hL : L.Monotone) {m : Block C R X σ α} {f : α → Block C R X σ β}
    {P : α → σ → S → Prop} {Q : β → σ → S → Prop} (hm : m.wp L (onReturn P) x s)
    (hf : ∀ value x' s', P value x' s' → (f value).wp L (onReturn Q) x' s') :
    (m >>= f).wp L (onReturn Q) x s := by
  rw [wp_bind]
  refine wp_mono hL ?_ hm
  intro outcome x' s' houtcome
  cases outcome with
  | error e => trivial
  | ok value => exact hf value x' s' houtcome

/-- A weaker promise about what is returned. -/
theorem wp_onReturn_mono (hL : L.Monotone) {m : Block C R X σ α}
    {P Q : α → σ → S → Prop} (himp : ∀ value x' s', P value x' s' → Q value x' s')
    (hm : m.wp L (onReturn P) x s) : m.wp L (onReturn Q) x s := by
  refine wp_mono hL ?_ hm
  intro outcome x' s' houtcome
  cases outcome with
  | error e => trivial
  | ok value => exact himp value x' s' houtcome

end Block

end Conductor.Effects
