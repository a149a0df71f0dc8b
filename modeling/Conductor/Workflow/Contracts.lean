/-
The contracts of the workflow layer: goals, plans, the contexts handed to
planner, worker and validator, and results.  A plan is worked batch by batch.
-/
import Conductor.Interfaces

namespace Conductor

inductive WorkflowStatus where
  | pending
  | running
  | completed
  | failed
  | partially
deriving DecidableEq, Repr

def WorkflowStatus.value : WorkflowStatus → String
  | .pending => "pending"
  | .running => "running"
  | .completed => "completed"
  | .failed => "failed"
  | .partially => "partial"

theorem WorkflowStatus.value_injective : Function.Injective WorkflowStatus.value := by
  intro status status' hvalue
  cases status <;> cases status' <;> first | rfl | exact absurd hvalue (by decide)

/-- One step inside a planner-generated plan. -/
structure PlanStep where
  name : String
  capability : String
  inputHint : Dict
  parallelGroup : Option String
deriving Repr

structure WorkflowGoal where
  workflowId : String
  goal : String
  capabilities : List String
deriving Repr

structure PlannerContext where
  workflowId : String
  goal : String
  capabilities : List String
deriving Repr

structure PlanResponse where
  steps : List PlanStep
  rationale : String
deriving Repr

structure WorkerContext where
  workflowId : String
  step : PlanStep
  priorResults : List TaskRecord
deriving Repr

structure WorkerResponse where
  submission : TaskSubmission
deriving Repr

structure ValidatorContext where
  workflowId : String
  goal : String
  results : List TaskRecord
deriving Repr

structure ValidationResponse where
  passed : Bool
  verdict : String
  issues : List String
deriving Repr

structure WorkflowResult where
  workflowId : String
  goal : String
  status : WorkflowStatus
  records : List TaskRecord
  verdict : Option ValidationResponse
deriving Repr

/-- The inner loop of `_step_batches`: steps join the batch as long as they are
of its group. -/
def collectGroup (groupName : String) : List PlanStep → List PlanStep →
    List PlanStep × List PlanStep
  | batch, [] => (batch, [])
  | batch, step :: rest =>
      if step.parallelGroup = some groupName then collectGroup groupName (batch ++ [step]) rest
      else (batch, step :: rest)

/-- The outer loop: each round starts a batch with the next step. -/
def stepBatchesLoop : Nat → List PlanStep → List (List PlanStep)
  | 0, _ => []
  | _, [] => []
  | fuel + 1, step :: rest =>
      match step.parallelGroup with
      | none => [step] :: stepBatchesLoop fuel rest
      | some groupName =>
          let (batch, rest) := collectGroup groupName [step] rest
          batch :: stepBatchesLoop fuel rest

/-- Adjacent steps of one parallel group form a batch; every other step is a
batch of its own. -/
def stepBatches (steps : List PlanStep) : List (List PlanStep) :=
  stepBatchesLoop steps.length steps

theorem collectGroup_append (groupName : String) (batch steps : List PlanStep) :
    (collectGroup groupName batch steps).1 ++ (collectGroup groupName batch steps).2 =
      batch ++ steps := by
  induction steps generalizing batch with
  | nil => rfl
  | cons step rest ih =>
      rw [collectGroup]
      split
      · rw [ih, List.append_assoc]
        rfl
      · rfl

theorem length_collectGroup_le (groupName : String) (batch steps : List PlanStep) :
    (collectGroup groupName batch steps).2.length ≤ steps.length := by
  induction steps generalizing batch with
  | nil => exact Nat.le_refl 0
  | cons step rest ih =>
      rw [collectGroup]
      split
      · exact Nat.le_succ_of_le (ih _)
      · exact Nat.le_refl _

/-- The steps of the batches, one batch after the other, are the plan. -/
theorem flatten_stepBatchesLoop {fuel : Nat} {steps : List PlanStep}
    (hfuel : steps.length ≤ fuel) : (stepBatchesLoop fuel steps).flatten = steps := by
  induction fuel generalizing steps with
  | zero =>
      rw [List.length_eq_zero_iff.mp (Nat.le_zero.mp hfuel)]
      rfl
  | succ fuel ih =>
      cases steps with
      | nil => rfl
      | cons step rest =>
          have hrest : rest.length ≤ fuel := Nat.le_of_succ_le_succ hfuel
          rw [stepBatchesLoop]
          cases step.parallelGroup with
          | none => exact congrArg (step :: ·) (ih hrest)
          | some groupName =>
              have hlength := length_collectGroup_le groupName [step] rest
              rw [List.flatten_cons, ih (hlength.trans hrest), collectGroup_append]
              rfl

theorem flatten_stepBatches (steps : List PlanStep) : (stepBatches steps).flatten = steps :=
  flatten_stepBatchesLoop (Nat.le_refl _)

example : (stepBatches (["a", "b", "c"].zipWith (fun name group => ⟨name, "echo", [], group⟩)
    [some "g", some "g", none])).map (·.map PlanStep.name) = [["a", "b"], ["c"]] := by
  decide

end Conductor
