/-
The agents that come with the workflow layer, and the collaborators of an
orchestrator that uses them.
-/
import Conductor.Workflow.Orchestrator
import Conductor.Supervisor.Service

namespace Conductor

open Effects

def LinearPlanner.plan (steps : List PlanStep) (_goal : String) (_context : PlannerContext) :
    PlanResponse :=
  ⟨steps, "linear plan"⟩

def PassthroughWorker.work (stepName : String) (context : WorkerContext) : WorkerResponse :=
  ⟨⟨stepName, context.step.capability, context.step.inputHint, [], 0, some context.workflowId⟩⟩

def PassthroughValidator.validate (_goal : String) (_context : ValidatorContext) :
    ValidationResponse :=
  ⟨true, "all steps passed", []⟩

/-- The linear planner and the passthrough worker, with a supervisor that has a
state and with a validator. -/
def shipped {W : Type} (steps : List PlanStep)
    (supervise : TaskSubmission → W → Except PyExc TaskRecord × W)
    (validate : String → ValidatorContext → ValidationResponse) :
    Machine W WorkflowCall WorkflowAnswer where
  respond _ w
    | .plan goal context => (.ok (LinearPlanner.plan steps goal context), w)
    | .work _ stepName context => (.ok (PassthroughWorker.work stepName context), w)
    | .runSubmission _ submission => supervise submission w
    | .validate goal context => (.ok (validate goal context), w)

/-- A run of a submission that was cut short. -/
def interrupted : PyExc := ⟨"KeyboardInterrupt", some "", false⟩

/-- The task supervisor as the orchestrator knows it.  Where the fuel does not
suffice the run is interrupted. -/
def Supervisor.supervise (sup : Supervisor) (env : Env) (fuel : Nat)
    (submission : TaskSubmission) (s : State) : Except PyExc TaskRecord × State :=
  match ((runSubmission sup fuel submission).run ()).exec env.machine s with
  | (some (outcome, _), s') => (outcome, s')
  | (none, s') => (.error interrupted, s')

/-- A supervisor whose tasks complete, unless they ask for the capability
`fail`. -/
def mixedOutcomes (submission : TaskSubmission) (_ : Unit) : Except PyExc TaskRecord × Unit :=
  (.ok { foundTask (if submission.capability = "fail" then .failed else .completed) with
    name := submission.name
    capability := submission.capability
    workflowId := submission.workflowId }, ())

end Conductor
