/-
The default-deny policy engine, and the engine a supervisor is given when none
is configured.
-/
import Conductor.Interfaces

namespace Conductor

/-- Denies every capability unless explicitly allowed. -/
structure DenyByDefaultPolicy where
  allowedCapabilities : List String

namespace DenyByDefaultPolicy

/-- The names as the denial reason lists them. -/
def allowedText (policy : DenyByDefaultPolicy) : String :=
  match policy.allowedCapabilities.dedup.insertionSort (· ≤ ·) with
  | [] => "(none)"
  | names => ", ".intercalate names

def evaluate (policy : DenyByDefaultPolicy) (context : PolicyContext) : PolicyDecision :=
  if context.capability.name ∈ policy.allowedCapabilities then
    ⟨.allow, some ("Capability '" ++ context.capability.name ++ "' is in the allowed set"), []⟩
  else
    ⟨.deny, some ("Capability '" ++ context.capability.name ++
      "' is not in the allowed set. Allowed: " ++ policy.allowedText), []⟩

/-- The engine allows exactly the capabilities of its list. -/
theorem evaluate_allow_iff (policy : DenyByDefaultPolicy) (context : PolicyContext) :
    (policy.evaluate context).decision = .allow ↔
      context.capability.name ∈ policy.allowedCapabilities := by
  unfold evaluate
  split <;> simp_all

/-- The engine never asks for an approval. -/
theorem evaluate_ne_requireApproval (policy : DenyByDefaultPolicy) (context : PolicyContext) :
    (policy.evaluate context).decision ≠ .requireApproval := by
  unfold evaluate
  split <;> simp

end DenyByDefaultPolicy

/-- `NullPolicyEngine.evaluate`: every task is allowed. -/
def nullPolicyDecision : PolicyDecision := ⟨.allow, none, []⟩

end Conductor
