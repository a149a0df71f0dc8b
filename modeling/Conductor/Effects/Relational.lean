/-
Two blocks on two machines, run from related objects in related
configurations.  They match if they end the same way and everything is related
again, so one rule for each way of building a block compares two program texts.
-/
import Conductor.Effects.Coupling

namespace Conductor.Effects

universe u

variable {C : Type u} {R : C → Type} {X σ σ' τ τ' α α' β β' : Type} {W W' : Type*}

/-- Two outcomes of the same kind: related values, or the same exception. -/
inductive Agree (Q : α → α' → Prop) : Except X α → Except X α' → Prop
  | ok {value : α} {value' : α'} (hvalue : Q value value') : Agree Q (.ok value) (.ok value')
  | error (e : X) : Agree Q (.error e) (.error e)

theorem Agree.of_eq {outcome outcome' : Except X α} (heq : outcome = outcome') :
    Agree Eq outcome outcome' := by
  subst heq
  cases outcome with
  | ok value => exact .ok rfl
  | error e => exact .error e

namespace Block

/-- Both blocks have ended, with outcomes that agree, or both have run out of
fuel. -/
inductive Matched (K : Config W C (Reply R X) → Config W' C (Reply R X) → Prop)
    (P : σ → σ' → Prop) (Q : α → α' → Prop) :
    Result C R X σ α W → Result C R X σ' α' W' → Prop
  | ended {outcome : Except X α} {outcome' : Except X α'} {x : σ} {x' : σ'}
      {k : Config W C (Reply R X)} {k' : Config W' C (Reply R X)}
      (houtcome : Agree Q outcome outcome') (hobject : P x x') (hconfig : K k k') :
      Matched K P Q (some (outcome, x), k) (some (outcome', x'), k')
  | unfinished {k : Config W C (Reply R X)} {k' : Config W' C (Reply R X)}
      (hconfig : K k k') : Matched K P Q (none, k) (none, k')

/-- Two blocks that match from wherever they are run. -/
def Twin (M : Machine W C (Reply R X)) (M' : Machine W' C (Reply R X))
    (K : Config W C (Reply R X) → Config W' C (Reply R X) → Prop) (P : σ → σ' → Prop)
    (Q : α → α' → Prop) (m : Block C R X σ α) (m' : Block C R X σ' α') : Prop :=
  ∀ ⦃x x' k k'⦄, P x x' → K k k' → Matched K P Q (m.exec M x k) (m'.exec M' x' k')

namespace Twin

variable {M : Machine W C (Reply R X)} {M' : Machine W' C (Reply R X)}
variable {K : Config W C (Reply R X) → Config W' C (Reply R X) → Prop}
variable {P : σ → σ' → Prop} {P' : τ → τ' → Prop} {Q : α → α' → Prop} {Q' : β → β' → Prop}
variable {m : Block C R X σ α} {m' : Block C R X σ' α'}

theorem ofExcept {outcome : Except X α} {outcome' : Except X α'}
    (hagree : Agree Q outcome outcome') :
    Twin M M' K P Q (Block.ofExcept outcome) (Block.ofExcept outcome') :=
  fun _ _ _ _ hobject hconfig => .ended hagree hobject hconfig

theorem pure {value : α} {value' : α'} (hvalue : Q value value') :
    Twin M M' K P Q (Pure.pure value) (Pure.pure value') :=
  ofExcept (.ok hvalue)

theorem raise (e : X) :
    Twin M M' K P Q (Block.raise e : Block C R X σ α) (Block.raise e : Block C R X σ' α') :=
  ofExcept (.error e)

theorem object : Twin M M' K P P Block.object Block.object :=
  fun _ _ _ _ hobject hconfig => .ended (.ok hobject) hobject hconfig

theorem mutate {f : σ → σ} {f' : σ' → σ'} (hf : ∀ ⦃x x'⦄, P x x' → P (f x) (f' x')) :
    Twin M M' K P Eq (Block.mutate f) (Block.mutate f') :=
  fun _ _ _ _ hobject hconfig => .ended (.ok rfl) (hf hobject) hconfig

theorem outOfFuel :
    Twin M M' K P Q (Block.outOfFuel : Block C R X σ α) (Block.outOfFuel : Block C R X σ' α') :=
  fun _ _ _ _ _ hconfig => .unfinished hconfig

/-- Two calls whose answers agree. -/
theorem perform (c c' : C) {Q : R c → R c' → Prop}
    (hstep : ∀ ⦃k k'⦄, K k k' → Agree Q (M.step k c).1 (M'.step k' c').1 ∧
      K (M.step k c).2 (M'.step k' c').2) :
    Twin M M' K P Q (Block.perform c) (Block.perform c') :=
  fun _ _ _ _ hobject hconfig =>
    .ended (hstep hconfig).1 hobject (hstep hconfig).2

theorem bind {f : α → Block C R X σ β} {f' : α' → Block C R X σ' β'}
    (hm : Twin M M' K P Q m m')
    (hf : ∀ value value', Q value value' → Twin M M' K P Q' (f value) (f' value')) :
    Twin M M' K P Q' (m >>= f) (m' >>= f') := by
  intro x x' k k' hobject hconfig
  rw [exec_bind, exec_bind]
  have hmatched := hm hobject hconfig
  generalize m.exec M x k = r at hmatched ⊢
  generalize m'.exec M' x' k' = r' at hmatched ⊢
  cases hmatched with
  | ended houtcome hobject hconfig =>
      cases houtcome with
      | ok hvalue => exact hf _ _ hvalue hobject hconfig
      | error e => exact .ended (.error e) hobject hconfig
  | unfinished hconfig => exact .unfinished hconfig

/-- Sequencing after blocks that return the same value. -/
theorem seq {m : Block C R X σ α} {m' : Block C R X σ' α} {f : α → Block C R X σ β}
    {f' : α → Block C R X σ' β'} (hm : Twin M M' K P Eq m m')
    (hf : ∀ value, Twin M M' K P Q' (f value) (f' value)) :
    Twin M M' K P Q' (m >>= f) (m' >>= f') := by
  apply hm.bind
  rintro value _ rfl
  exact hf value

theorem tryExcept {catches : X → Bool} {handler : X → Block C R X σ α}
    {handler' : X → Block C R X σ' α'} (hm : Twin M M' K P Q m m')
    (hhandler : ∀ e, Twin M M' K P Q (handler e) (handler' e)) :
    Twin M M' K P Q (Block.tryExcept catches m handler)
      (Block.tryExcept catches m' handler') := by
  intro x x' k k' hobject hconfig
  rw [exec_tryExcept, exec_tryExcept]
  have hmatched := hm hobject hconfig
  generalize m.exec M x k = r at hmatched ⊢
  generalize m'.exec M' x' k' = r' at hmatched ⊢
  cases hmatched with
  | ended houtcome hobject hconfig =>
      cases houtcome with
      | ok hvalue => exact .ended (.ok hvalue) hobject hconfig
      | error e =>
          dsimp only
          split
          · exact hhandler e hobject hconfig
          · exact .ended (.error e) hobject hconfig
  | unfinished hconfig => exact .unfinished hconfig

/-- Both blocks work on an object of their own for a while. -/
theorem on {y : τ} {y' : τ'} {m : Block C R X τ α} {m' : Block C R X τ' α'}
    (hobjects : P' y y') (hm : Twin M M' K P' Q m m') :
    Twin M M' K P (fun value value' => Q value.1 value'.1 ∧ P' value.2 value'.2)
      (Block.on y m) (Block.on y' m') := by
  intro x x' k k' hobject hconfig
  rw [exec_on, exec_on]
  have hmatched := hm hobjects hconfig
  generalize m.exec M y k = r at hmatched ⊢
  generalize m'.exec M' y' k' = r' at hmatched ⊢
  cases hmatched with
  | ended houtcome hobjects hconfig =>
      cases houtcome with
      | ok hvalue => exact .ended (.ok ⟨hvalue, hobjects⟩) hobject hconfig
      | error e => exact .ended (.error e) hobject hconfig
  | unfinished hconfig => exact .unfinished hconfig

/-- Branches of one condition. -/
theorem ite {c : Prop} [Decidable c] {n : Block C R X σ α} {n' : Block C R X σ' α'}
    (hm : c → Twin M M' K P Q m m') (hn : ¬c → Twin M M' K P Q n n') :
    Twin M M' K P Q (if c then m else n) (if c then m' else n') := by
  by_cases hc : c
  · rw [if_pos hc, if_pos hc]
    exact hm hc
  · rw [if_neg hc, if_neg hc]
    exact hn hc

end Twin

end Block

end Conductor.Effects
