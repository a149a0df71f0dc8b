/-
Two blocks run side by side: from the same object and the same configuration,
on the same machine.  What is shared by the two programs runs alike, so a
relation between the results only has to be shown where they part.
-/
import Conductor.Effects.Block

namespace Conductor.Effects

universe u

variable {C : Type u} {R : C → Type} {X σ τ α β : Type} {W : Type*}

namespace Block

/-- What a block leaves behind: the outcome and the object, unless the fuel ran
out, and the configuration. -/
abbrev Result (C : Type u) (R : C → Type) (X σ α : Type) (W : Type*) :=
  Option (Except X α × σ) × Config W C (Reply R X)

def exec (M : Machine W C (Reply R X)) (m : Block C R X σ α) (x : σ)
    (k : Config W C (Reply R X)) : Result C R X σ α W :=
  (m.run x).exec M k

/-- Go on after a result. -/
def Result.next (r : Result C R X σ α W)
    (f : α → σ → Config W C (Reply R X) → Result C R X σ β W) : Result C R X σ β W :=
  match r with
  | (some (.ok value, x), k) => f value x k
  | (some (.error e, x), k) => (some (.error e, x), k)
  | (none, k) => (none, k)

variable {M : Machine W C (Reply R X)} {x : σ} {k : Config W C (Reply R X)}

theorem exec_bind (m : Block C R X σ α) (f : α → Block C R X σ β) :
    (m >>= f).exec M x k = (m.exec M x k).next fun value => (f value).exec M := by
  change ((m.run x).bind _).exec M k = _
  rw [Prog.exec_bind, exec]
  rcases (m.run x).exec M k with ⟨_ | ⟨e | value, x'⟩, k'⟩ <;> rfl

theorem exec_object :
    (object : Block C R X σ σ).exec M x k = (some (.ok x, x), k) := rfl

theorem exec_ofExcept (result : Except X α) :
    (ofExcept result : Block C R X σ α).exec M x k = (some (result, x), k) := rfl

theorem exec_tryExcept (catches : X → Bool) (m : Block C R X σ α)
    (handler : X → Block C R X σ α) :
    (tryExcept catches m handler).exec M x k =
      match m.exec M x k with
      | (some (.error e, x'), k') =>
          if catches e then (handler e).exec M x' k' else (some (.error e, x'), k')
      | r => r := by
  change ((m.run x).bind _).exec M k = _
  rw [Prog.exec_bind, exec]
  rcases (m.run x).exec M k with ⟨_ | ⟨e | value, x'⟩, k'⟩
  · rfl
  · dsimp only
    split <;> rfl
  · rfl

theorem exec_on (y : τ) (m : Block C R X τ α) :
    (on y m : Block C R X σ (α × τ)).exec M x k =
      ((m.exec M y k).1.map (fun ended => (ended.1.map (·, ended.2), x)), (m.exec M y k).2) := by
  change ((m.run y).bind _).exec M k = _
  rw [Prog.exec_bind, exec]
  rcases (m.run y).exec M k with ⟨_ | ⟨e | value, y'⟩, k'⟩ <;> rfl

theorem exec_history (M : Machine W C (Reply R X)) (m : Block C R X σ α) (x : σ)
    (k : Config W C (Reply R X)) : ∃ new, (m.exec M x k).2.history = new ++ k.history :=
  Prog.exec_history M (m.run x) k

/-- Going on only adds to the history. -/
theorem Result.next_history (M : Machine W C (Reply R X)) (r : Result C R X σ α W)
    (f : α → Block C R X σ β) :
    ∃ new, (r.next fun value => (f value).exec M).2.history = new ++ r.2.history := by
  rcases r with ⟨_ | ⟨e | value, x⟩, k⟩
  · exact ⟨[], rfl⟩
  · exact ⟨[], rfl⟩
  · exact exec_history M (f value) x k

/-- Two blocks whose results are related wherever they are run. -/
def Coupled (M : Machine W C (Reply R X))
    (Q : Result C R X σ α W → Result C R X σ α W → Prop) (m m' : Block C R X σ α) : Prop :=
  ∀ x k, Q (m.exec M x k) (m'.exec M x k)

/-- Blocks that begin alike are coupled if they go on coupled. -/
theorem Coupled.bind_same {Q : Result C R X σ β W → Result C R X σ β W → Prop}
    (hrefl : ∀ r, Q r r) {m : Block C R X σ α} {f f' : α → Block C R X σ β}
    (hf : ∀ value, Coupled M Q (f value) (f' value)) : Coupled M Q (m >>= f) (m >>= f') := by
  intro x k
  rw [exec_bind, exec_bind]
  rcases m.exec M x k with ⟨_ | ⟨e | value, x'⟩, k'⟩
  · exact hrefl _
  · exact hrefl _
  · exact hf value x' k'

end Block

end Conductor.Effects
