/-
The policy engine that works by the risk of a capability, with a list of
capabilities that it may be given.
-/
import Conductor.Runtime.Policy

namespace Conductor

/-- `_RISK_ORDER`. -/
def RiskLevel.order : RiskLevel → Nat
  | .low => 0
  | .medium => 1
  | .high => 2
  | .critical => 3

/-- Enforces a maximum capability risk level. -/
structure RiskLevelPolicyEngine where
  denyAbove : RiskLevel := .critical
  requireApprovalAt : Option RiskLevel := none
  allowedCapabilities : Option (List String) := none

namespace RiskLevelPolicyEngine

/-- There is a list of capabilities, and this one is not on it. -/
def excludes (engine : RiskLevelPolicyEngine) (name : String) : Bool :=
  match engine.allowedCapabilities with
  | some names => !names.contains name
  | none => false

def evaluate (engine : RiskLevelPolicyEngine) (context : PolicyContext) : PolicyDecision :=
  let capability := context.capability
  let risk := capability.riskLevel
  if engine.excludes capability.name then
    ⟨.deny, some ("Capability '" ++ capability.name ++ "' is not in the allowed set"),
      [("capability", .str capability.name), ("policy", .str "allowlist")]⟩
  else if engine.requireApprovalAt = some risk then
    ⟨.requireApproval, some ("Capability '" ++ capability.name ++
        "' requires approval at risk level '" ++ risk.value ++ "'"),
      [("risk_level", .str risk.value), ("policy", .str "risk_threshold")]⟩
  else if engine.denyAbove.order < risk.order then
    ⟨.deny, some ("Capability '" ++ capability.name ++ "' risk level '" ++ risk.value ++
        "' exceeds permitted maximum '" ++ engine.denyAbove.value ++ "'"),
      [("risk_level", .str risk.value), ("deny_above", .str engine.denyAbove.value),
        ("policy", .str "risk_threshold")]⟩
  else ⟨.allow, none, []⟩

/-- The capability is on the list, if there is one. -/
def Lists (engine : RiskLevelPolicyEngine) (capability : CapabilityDescriptor) : Prop :=
  ∀ names, engine.allowedCapabilities = some names → capability.name ∈ names

/-- The capability is on the list, and its risk is neither above the maximum nor
at the level of approvals. -/
structure Permits (engine : RiskLevelPolicyEngine) (capability : CapabilityDescriptor) : Prop where
  lists : engine.Lists capability
  risk : capability.riskLevel.order ≤ engine.denyAbove.order
  approval : engine.requireApprovalAt ≠ some capability.riskLevel

/-- The capability is on the list, and its risk is at the level of approvals,
whatever the maximum is. -/
structure Refers (engine : RiskLevelPolicyEngine) (capability : CapabilityDescriptor) : Prop where
  lists : engine.Lists capability
  approval : engine.requireApprovalAt = some capability.riskLevel

variable {engine : RiskLevelPolicyEngine} {context : PolicyContext}

theorem excludes_eq_false {capability : CapabilityDescriptor} :
    engine.excludes capability.name = false ↔ engine.Lists capability := by
  unfold excludes Lists
  cases engine.allowedCapabilities with
  | none => simp
  | some names => simp

theorem evaluate_allow (hallow : (engine.evaluate context).decision = .allow) :
    engine.Permits context.capability := by
  unfold evaluate at hallow
  dsimp only at hallow
  split at hallow
  · cases hallow
  · rename_i hlists
    split at hallow
    · cases hallow
    · rename_i happroval
      split at hallow
      · cases hallow
      · rename_i hrisk
        exact ⟨excludes_eq_false.mp (Bool.eq_false_iff.mpr hlists), Nat.le_of_not_lt hrisk,
          happroval⟩

theorem evaluate_requireApproval
    (hdecision : (engine.evaluate context).decision = .requireApproval) :
    engine.Refers context.capability := by
  unfold evaluate at hdecision
  dsimp only at hdecision
  split at hdecision
  · cases hdecision
  · rename_i hlists
    split at hdecision
    · rename_i happroval
      exact ⟨excludes_eq_false.mp (Bool.eq_false_iff.mpr hlists), happroval⟩
    · split at hdecision <;> cases hdecision

end RiskLevelPolicyEngine

end Conductor
