/-
Workflows as the control plane shows them: the status of a workflow is derived
from its task records alone, and two routes answer with such a trace.
-/
import Conductor.Workflow.Contracts

namespace Conductor

def activeStatuses : List TaskStatus := [.pending, .running, .approved, .awaitingApproval]

def failedStatuses : List TaskStatus := [.failed, .policyDenied, .cancelled, .escalated]

/-- `_workflow_status`, over the statuses of the records. -/
def workflowStatus (records : List TaskRecord) : WorkflowStatus :=
  let statuses := records.map (·.status)
  if statuses.isEmpty then .pending
  else if statuses.all (· = .pending) then .pending
  else if statuses.all (· = .completed) then .completed
  else if statuses.any (· ∈ activeStatuses) then .running
  else if statuses.all (· ∈ failedStatuses) then .failed
  -- Both branches that are left return `PARTIAL`.
  else .partially

structure ControlPlaneWorkflowStepV1 where
  taskId : TaskId
  name : String
  capability : String
  status : String
  attempt : Int
  createdAt : Time
  updatedAt : Time
deriving DecidableEq, Repr

def ControlPlaneWorkflowStepV1.fromTask (task : TaskRecord) : ControlPlaneWorkflowStepV1 :=
  ⟨task.taskId, task.name, task.capability, task.status.value, task.attempt, task.createdAt,
    task.updatedAt⟩

structure ControlPlaneWorkflowTraceV1 where
  workflowId : String
  status : String
  taskCount : Nat
  tasks : List ControlPlaneWorkflowStepV1
deriving DecidableEq, Repr

/-- `(created_at, task_id)` of the one record is not after that of the other. -/
def CreatedBefore (record record' : TaskRecord) : Prop :=
  record.createdAt < record'.createdAt ∨
    record.createdAt = record'.createdAt ∧ record.taskId ≤ record'.taskId

instance : DecidableRel CreatedBefore := fun record record' =>
  inferInstanceAs (Decidable (record.createdAt < record'.createdAt ∨
    record.createdAt = record'.createdAt ∧ record.taskId ≤ record'.taskId))

def ControlPlaneWorkflowTraceV1.fromRecords (workflowId : String) (records : List TaskRecord) :
    ControlPlaneWorkflowTraceV1 :=
  let orderedRecords := records.insertionSort CreatedBefore
  ⟨workflowId, (workflowStatus orderedRecords).value, orderedRecords.length,
    orderedRecords.map .fromTask⟩

/-- How a route ends otherwise than with a body. -/
inductive ApiError where
  | http (statusCode : Nat) (code message : String)
  | raised (exc : PyExc)
deriving Repr

/-- `POST /v1/workflows` after `orchestrator.run(body)`.  `isBadRequest` says
which exceptions are a `ValueError` or a `KeyError`. -/
def runWorkflow (isBadRequest : PyExc → Bool) (body : WorkflowGoal)
    (ran : Except PyExc WorkflowResult) : Except ApiError ControlPlaneWorkflowTraceV1 :=
  match ran with
  | .ok result => .ok (.fromRecords body.workflowId result.records)
  | .error exc =>
      if isBadRequest exc then
        match exc.str with
        | .ok message => .error (.http 400 "workflow_failed" message)
        | .error e => .error (.raised e)
      else .error (.raised exc)

/-- `GET /v1/workflows/{workflow_id}`, over what `supervisor.list_tasks()`
returns. -/
def getWorkflowTrace (workflowId : String) (allTasks : List TaskRecord) :
    Except ApiError ControlPlaneWorkflowTraceV1 :=
  let workflowTasks := allTasks.filter fun task => task.workflowId = some workflowId
  if workflowTasks.isEmpty then
    .error (.http 404 "not_found" ("No tasks found for workflow " ++ pyRepr workflowId))
  else .ok (.fromRecords workflowId workflowTasks)

/-- The order of the records does not matter. -/
theorem workflowStatus_perm {records records' : List TaskRecord}
    (hperm : records.Perm records') : workflowStatus records = workflowStatus records' := by
  have hstatuses := hperm.map (·.status)
  simp only [workflowStatus, hstatuses.all_eq, hstatuses.any_eq, hstatuses.isEmpty_eq]

theorem fromRecords_status {workflowId : String} {records records' : List TaskRecord}
    (hperm : records.Perm records') :
    (ControlPlaneWorkflowTraceV1.fromRecords workflowId records).status =
      (workflowStatus records').value := by
  have hordered := (records.perm_insertionSort CreatedBefore).trans hperm
  exact congrArg WorkflowStatus.value (workflowStatus_perm hordered)

/-- The cases of `_workflow_status` for a workflow with tasks. -/
theorem workflowStatus_eq {records : List TaskRecord} (hrecords : records ≠ []) :
    workflowStatus records =
      if ∀ record ∈ records, record.status = .pending then .pending
      else if ∀ record ∈ records, record.status = .completed then .completed
      else if ∃ record ∈ records, record.status ∈ activeStatuses then .running
      else if ∀ record ∈ records, record.status ∈ failedStatuses then .failed
      else .partially := by
  simp [workflowStatus, hrecords]

variable {records : List TaskRecord}

theorem workflowStatus_eq_completed (hrecords : records ≠ []) :
    workflowStatus records = .completed ↔ ∀ record ∈ records, record.status = .completed := by
  obtain ⟨first, hfirst⟩ := List.exists_mem_of_ne_nil records hrecords
  rw [workflowStatus_eq hrecords]
  constructor
  · intro hstatus
    split_ifs at hstatus with hpending hcompleted
    exact hcompleted
  · intro hcompleted
    have hpending : ¬∀ record ∈ records, record.status = .pending := fun hpending => by
      simpa [hcompleted first hfirst] using hpending first hfirst
    rw [if_neg hpending, if_pos hcompleted]

theorem workflowStatus_eq_failed (hrecords : records ≠ []) :
    workflowStatus records = .failed ↔ ∀ record ∈ records, record.status ∈ failedStatuses := by
  obtain ⟨first, hfirst⟩ := List.exists_mem_of_ne_nil records hrecords
  rw [workflowStatus_eq hrecords]
  constructor
  · intro hstatus
    split_ifs at hstatus with hpending hcompleted hactive hfailed
    exact hfailed
  · intro hfailed
    have hstatus := hfailed first hfirst
    have hpending : ¬∀ record ∈ records, record.status = .pending := fun hpending => by
      simp [hpending first hfirst, failedStatuses] at hstatus
    have hcompleted : ¬∀ record ∈ records, record.status = .completed := fun hcompleted => by
      simp [hcompleted first hfirst, failedStatuses] at hstatus
    have hactive : ¬∃ record ∈ records, record.status ∈ activeStatuses := by
      rintro ⟨record, hrecord, hactive⟩
      have hrecord := hfailed record hrecord
      revert hactive hrecord
      cases record.status <;> decide
    rw [if_neg hpending, if_neg hcompleted, if_neg hactive, if_pos hfailed]

theorem TaskStatus.cases_of_not_active {status : TaskStatus} (hactive : status ∉ activeStatuses) :
    status = .completed ∨ status ∈ failedStatuses := by
  revert hactive
  cases status <;> decide

theorem workflowStatus_eq_partially (hrecords : records ≠ []) :
    workflowStatus records = .partially ↔
      (∀ record ∈ records, record.status ∉ activeStatuses) ∧
        (∃ record ∈ records, record.status = .completed) ∧
        ∃ record ∈ records, record.status ≠ .completed := by
  obtain ⟨first, hfirst⟩ := List.exists_mem_of_ne_nil records hrecords
  rw [workflowStatus_eq hrecords]
  constructor
  · intro hstatus
    split_ifs at hstatus with hpending hcompleted hactive hfailed
    push Not at hcompleted hactive hfailed
    obtain ⟨record, hrecord, hnot⟩ := hfailed
    have hdone := TaskStatus.cases_of_not_active (hactive record hrecord)
    exact ⟨hactive, ⟨record, hrecord, hdone.resolve_right hnot⟩, hcompleted⟩
  · rintro ⟨hactive, ⟨done, hdone, hcompleted⟩, other, hother, hnot⟩
    have hpending : ¬∀ record ∈ records, record.status = .pending := fun hpending => by
      simp [hpending done hdone] at hcompleted
    have hfailed : ¬∀ record ∈ records, record.status ∈ failedStatuses := fun hfailed => by
      have hdone := hfailed done hdone
      rw [hcompleted] at hdone
      exact absurd hdone (by decide)
    rw [if_neg hpending, if_neg fun hall => hnot (hall other hother), if_neg ?_, if_neg hfailed]
    rintro ⟨record, hrecord, hstatus⟩
    exact hactive record hrecord hstatus

end Conductor
