/-
The snapshot that the control plane builds from all the tasks, the registry and
the health of the components.  It depends on the set of the tasks only.
-/
import Mathlib.Data.String.Basic
import Conductor.ControlPlane.Workflows
import Conductor.Loader
import Conductor.Python.Assoc

namespace Conductor

structure ControlPlaneAuditEntryV1 where
  timestamp : Time
  actor : String
  action : String
  fromStatus : Option String
  toStatus : Option String
  metadata : Dict
deriving Repr

def ControlPlaneAuditEntryV1.fromAuditEntry (entry : AuditEntry) : ControlPlaneAuditEntryV1 :=
  ⟨entry.timestamp, entry.actor, entry.action, entry.fromStatus.map (·.value),
    entry.toStatus.map (·.value), entry.metadata⟩

structure ControlPlaneTaskResultV1 where
  success : Bool
  output : Value
  error : Option String
  metadata : Dict
  startedAt : Option Time
  completedAt : Option Time
deriving Repr

def ControlPlaneTaskResultV1.fromResult (result : TaskResult) : ControlPlaneTaskResultV1 :=
  ⟨result.success, result.output, result.error, result.metadata, result.startedAt,
    result.completedAt⟩

structure ControlPlaneTaskV1 where
  taskId : TaskId
  name : String
  capability : String
  status : String
  attempt : Int
  maxRetries : Int
  workflowId : Option String
  input : Dict
  metadata : Dict
  result : Option ControlPlaneTaskResultV1
  auditTrail : List ControlPlaneAuditEntryV1
  createdAt : Time
  updatedAt : Time
  archivedAt : Option Time
deriving Repr

def ControlPlaneTaskV1.fromTask (task : TaskRecord) : ControlPlaneTaskV1 :=
  ⟨task.taskId, task.name, task.capability, task.status.value, task.attempt, task.maxRetries,
    task.workflowId, task.input, task.metadata, task.result.map .fromResult,
    task.auditTrail.map .fromAuditEntry, task.createdAt, task.updatedAt, task.archivedAt⟩

structure ControlPlaneApprovalV1 where
  taskId : TaskId
  taskName : String
  capability : String
  workflowId : Option String
  requestedAt : Time
  auditEntries : List ControlPlaneAuditEntryV1
deriving Repr

def ControlPlaneApprovalV1.fromTask (task : TaskRecord) : ControlPlaneApprovalV1 :=
  ⟨task.taskId, task.name, task.capability, task.workflowId, task.updatedAt,
    task.auditTrail.map .fromAuditEntry⟩

structure ControlPlaneCapabilityExecutionControlsV1 where
  timeoutSeconds : Option Rat
  minIntervalSeconds : Option Rat
deriving Repr

def ControlPlaneCapabilityExecutionControlsV1.fromControls
    (controls : CapabilityExecutionControls) : ControlPlaneCapabilityExecutionControlsV1 :=
  ⟨controls.timeoutSeconds, controls.minIntervalSeconds⟩

structure ControlPlaneCapabilityV1 where
  name : String
  description : String
  riskLevel : String
  tags : List String
  executionControls : ControlPlaneCapabilityExecutionControlsV1
deriving Repr

def ControlPlaneCapabilityV1.fromDescriptor (descriptor : CapabilityDescriptor)
    (controls : CapabilityExecutionControls) : ControlPlaneCapabilityV1 :=
  ⟨descriptor.name, descriptor.description, descriptor.riskLevel.value, descriptor.tags,
    .fromControls controls⟩

structure ControlPlaneHealthComponentV1 where
  name : String
  healthy : Bool
  detail : String
  issues : List String
deriving Repr

structure ControlPlaneSnapshotV1 where
  schemaVersion : String
  generatedAt : Time
  tasks : List ControlPlaneTaskV1
  approvals : List ControlPlaneApprovalV1
  workflows : List ControlPlaneWorkflowTraceV1
  capabilities : List ControlPlaneCapabilityV1
  health : List ControlPlaneHealthComponentV1
deriving Repr

/-- `CapabilityRegistry.list()`, after these calls. -/
def LoadedRegistry.list (registry : LoadedRegistry) (h : Trace) :
    Except PyExc (List CapabilityDescriptor) :=
  (registry.capabilities.insertionSort fun item item' => item.1 ≤ item'.1).mapM
    fun item => item.2.get h

/-- The capabilities with their execution controls. -/
def controlPlaneCapabilities (registry : LoadedRegistry) (h : Trace) :
    Except PyExc (List ControlPlaneCapabilityV1) := do
  let descriptors ← registry.list h
  descriptors.mapM fun descriptor => do
    let controls ← registry.toRegistry.executionControls descriptor.name
    pure (.fromDescriptor descriptor controls)

/-- `sorted(tasks, key=lambda task: (task.created_at, task.task_id))`. -/
def orderedTasks (tasks : List TaskRecord) : List TaskRecord := tasks.insertionSort CreatedBefore

/-- The traces, by increasing workflow id. -/
def workflowTraces (ordered : List TaskRecord) : List ControlPlaneWorkflowTraceV1 :=
  ((Assoc.groupBy (·.workflowId) ordered).insertionSort fun item item' => item.1 ≤ item'.1).map
    fun item => .fromRecords item.1 item.2

/-- `build_control_plane_snapshot`; `clock` is what the default of `generated_at`
reads. -/
def buildControlPlaneSnapshot (clock : Time) (tasks : List TaskRecord) (registry : LoadedRegistry)
    (h : Trace) (healthComponents : List ControlPlaneHealthComponentV1) :
    Except PyExc ControlPlaneSnapshotV1 := do
  let ordered := orderedTasks tasks
  let capabilities ← controlPlaneCapabilities registry h
  pure {
    schemaVersion := "v1"
    generatedAt := clock
    tasks := ordered.map .fromTask
    approvals := (ordered.filter fun task => task.status = .awaitingApproval).map .fromTask
    workflows := workflowTraces ordered
    capabilities := capabilities
    health := healthComponents }

instance : Std.Total CreatedBefore := ⟨fun record record' => by
  unfold CreatedBefore
  rcases lt_trichotomy record.createdAt record'.createdAt with hlt | heq | hlt
  · exact .inl (.inl hlt)
  · exact (le_total record.taskId record'.taskId).imp (fun hle => .inr ⟨heq, hle⟩)
      fun hle => .inr ⟨heq.symm, hle⟩
  · exact .inr (.inl hlt)⟩

instance : IsTrans TaskRecord CreatedBefore := ⟨fun record record' record'' => by
  unfold CreatedBefore
  rintro (hlt | ⟨heq, hle⟩) (hlt' | ⟨heq', hle'⟩)
  · exact .inl (hlt.trans hlt')
  · exact .inl (heq' ▸ hlt)
  · exact .inl (heq ▸ hlt')
  · exact .inr ⟨heq.trans heq', hle.trans hle'⟩⟩

theorem CreatedBefore.taskId_eq {record record' : TaskRecord}
    (hbefore : CreatedBefore record record')
    (hafter : CreatedBefore record' record) : record.taskId = record'.taskId := by
  unfold CreatedBefore at hbefore hafter
  rcases hbefore with hlt | ⟨heq, hle⟩
  · rcases hafter with hlt' | ⟨heq', -⟩
    · exact absurd hlt (lt_asymm hlt')
    · exact absurd heq' hlt.ne'
  · rcases hafter with hlt' | ⟨-, hle'⟩
    · exact absurd heq hlt'.ne'
    · exact le_antisymm hle hle'

/-- Every task has an id of its own. -/
def DistinctIds (tasks : List TaskRecord) : Prop := (tasks.map (·.taskId)).Nodup

section Tasks

variable {tasks tasks' : List TaskRecord}

theorem DistinctIds.eq_of_taskId (hids : DistinctIds tasks) {task task' : TaskRecord}
    (htask : task ∈ tasks) (htask' : task' ∈ tasks) (heq : task.taskId = task'.taskId) :
    task = task' :=
  List.inj_on_of_nodup_map hids htask htask' heq

theorem DistinctIds.filter (hids : DistinctIds tasks) (p : TaskRecord → Bool) :
    DistinctIds (tasks.filter p) :=
  (List.filter_sublist.map _).nodup hids

theorem orderedTasks_perm (tasks : List TaskRecord) : (orderedTasks tasks).Perm tasks :=
  List.perm_insertionSort CreatedBefore tasks

theorem orderedTasks_pairwise (tasks : List TaskRecord) :
    (orderedTasks tasks).Pairwise CreatedBefore :=
  List.pairwise_insertionSort CreatedBefore tasks

/-- Among tasks with distinct ids there is one way to order them. -/
theorem DistinctIds.eq_of_perm (hids : DistinctIds tasks) (hperm : tasks.Perm tasks')
    (hsorted : tasks.Pairwise CreatedBefore) (hsorted' : tasks'.Pairwise CreatedBefore) :
    tasks = tasks' := by
  apply List.Perm.eq_of_pairwise _ hsorted hsorted' hperm
  intro task task' htask htask' hbefore hafter
  exact hids.eq_of_taskId htask (hperm.mem_iff.mpr htask') (hbefore.taskId_eq hafter)

theorem DistinctIds.perm (hids : DistinctIds tasks) (hperm : tasks'.Perm tasks) :
    DistinctIds tasks' :=
  (hperm.map _).nodup_iff.mpr hids

theorem orderedTasks_eq_of_perm (hids : DistinctIds tasks) (hperm : tasks'.Perm tasks) :
    orderedTasks tasks' = orderedTasks tasks := by
  have hordered := ((orderedTasks_perm tasks').trans hperm).trans (orderedTasks_perm tasks).symm
  exact (hids.perm ((orderedTasks_perm tasks').trans hperm)).eq_of_perm hordered
    (orderedTasks_pairwise tasks') (orderedTasks_pairwise tasks)

/-- A trace does not depend on the order of its records. -/
theorem fromRecords_eq_of_perm (hids : DistinctIds tasks) (hperm : tasks'.Perm tasks)
    (workflowId : String) : ControlPlaneWorkflowTraceV1.fromRecords workflowId tasks' =
      .fromRecords workflowId tasks := by
  have hordered := orderedTasks_eq_of_perm hids hperm
  unfold orderedTasks at hordered
  unfold ControlPlaneWorkflowTraceV1.fromRecords
  rw [hordered]

/-- The tasks of a workflow. -/
def tasksOf (workflowId : String) (tasks : List TaskRecord) : List TaskRecord :=
  tasks.filter fun task => task.workflowId = some workflowId

/-- The traces are those of the workflows that have tasks. -/
theorem mem_workflowTraces {ordered : List TaskRecord} {trace : ControlPlaneWorkflowTraceV1} :
    trace ∈ workflowTraces ordered ↔
      ∃ workflowId, (∃ task ∈ ordered, task.workflowId = some workflowId) ∧
        trace = .fromRecords workflowId (tasksOf workflowId ordered) := by
  unfold workflowTraces
  rw [List.mem_map]
  constructor
  · rintro ⟨⟨workflowId, records⟩, hmem, rfl⟩
    have hlookup := Assoc.lookup_of_mem (Assoc.nodup_groupBy _ ordered)
      ((List.mem_insertionSort _).mp hmem)
    rw [Assoc.lookup_groupBy] at hlookup
    by_cases hsome : ∃ task ∈ ordered, task.workflowId = some workflowId
    · rw [if_pos hsome] at hlookup
      cases hlookup
      exact ⟨workflowId, hsome, rfl⟩
    · rw [if_neg hsome] at hlookup
      cases hlookup
  · rintro ⟨workflowId, hsome, rfl⟩
    have hlookup := Assoc.lookup_groupBy (·.workflowId) ordered workflowId
    rw [if_pos hsome] at hlookup
    exact ⟨(workflowId, tasksOf workflowId ordered),
      (List.mem_insertionSort _).mpr (Assoc.mem_of_lookup hlookup), rfl⟩

theorem workflowTraces_increasing (ordered : List TaskRecord) :
    (workflowTraces ordered).Pairwise (·.workflowId < ·.workflowId) := by
  let before (item item' : String × List TaskRecord) : Prop := item.1 ≤ item'.1
  have htotal : Std.Total before := ⟨fun item item' => le_total item.1 item'.1⟩
  have htrans : IsTrans _ before := ⟨fun _ _ _ => le_trans⟩
  have hle := List.pairwise_insertionSort before (Assoc.groupBy (·.workflowId) ordered)
  have hne : (Assoc.keys ((Assoc.groupBy (·.workflowId) ordered).insertionSort before)).Nodup :=
    ((List.perm_insertionSort before _).map _).nodup_iff.mpr (Assoc.nodup_groupBy _ ordered)
  unfold workflowTraces
  rw [List.pairwise_map]
  unfold Assoc.keys List.Nodup at hne
  rw [List.pairwise_map] at hne
  exact (hle.and hne).imp fun hboth => lt_of_le_of_ne hboth.1 hboth.2

theorem mem_tasks_fromRecords {workflowId : String} {step : ControlPlaneWorkflowStepV1} :
    step ∈ (ControlPlaneWorkflowTraceV1.fromRecords workflowId tasks).tasks ↔
      ∃ task ∈ tasks, .fromTask task = step := by
  unfold ControlPlaneWorkflowTraceV1.fromRecords
  simp only [List.mem_map, List.mem_insertionSort]

/-- The trace of a workflow id, from all the tasks. -/
theorem mem_workflowTraces_orderedTasks (hids : DistinctIds tasks)
    {trace : ControlPlaneWorkflowTraceV1} :
    trace ∈ workflowTraces (orderedTasks tasks) ↔
      ∃ workflowId, (∃ task ∈ tasks, task.workflowId = some workflowId) ∧
        trace = .fromRecords workflowId (tasksOf workflowId tasks) := by
  have hperm := orderedTasks_perm tasks
  have hsame (workflowId : String) : ControlPlaneWorkflowTraceV1.fromRecords workflowId
      (tasksOf workflowId (orderedTasks tasks)) =
    .fromRecords workflowId (tasksOf workflowId tasks) :=
    fromRecords_eq_of_perm (hids.filter _) (hperm.filter _) workflowId
  rw [mem_workflowTraces]
  simp only [hsame, hperm.mem_iff]

end Tasks

/-- `(created_at, task_id)` of the one task is before that of the other. -/
def ControlPlaneTaskV1.Before (task task' : ControlPlaneTaskV1) : Prop :=
  task.createdAt < task'.createdAt ∨
    task.createdAt = task'.createdAt ∧ task.taskId < task'.taskId

/-- What a snapshot of these records shows. -/
structure ShowsAll (records : List TaskRecord) (snapshot : ControlPlaneSnapshotV1) : Prop where
  tasks : snapshot.tasks.Perm (records.map .fromTask)
  sorted : snapshot.tasks.Pairwise ControlPlaneTaskV1.Before
  approvals : snapshot.approvals.Perm
    ((records.filter fun task => task.status = .awaitingApproval).map .fromTask)
  steps : ∀ task ∈ records, ∀ workflowId, task.workflowId = some workflowId →
    ∃ trace ∈ snapshot.workflows, trace.workflowId = workflowId ∧ .fromTask task ∈ trace.tasks ∧
      ∀ trace' ∈ snapshot.workflows, ∀ step ∈ trace'.tasks, step.taskId = task.taskId →
        trace' = trace
  increasing : snapshot.workflows.Pairwise (·.workflowId < ·.workflowId)
  nonempty : ∀ trace ∈ snapshot.workflows, trace.tasks ≠ []
  traces : ∀ trace ∈ snapshot.workflows,
    trace = .fromRecords trace.workflowId (tasksOf trace.workflowId records)

/-- The snapshot apart from `generated_at`. -/
def ControlPlaneSnapshotV1.untimed (snapshot : ControlPlaneSnapshotV1) : ControlPlaneSnapshotV1 :=
  { snapshot with generatedAt := 0 }

section Snapshot

variable {tasks : List TaskRecord} {registry : LoadedRegistry} {h : Trace} {clock : Time}
  {healthComponents : List ControlPlaneHealthComponentV1} {snapshot : ControlPlaneSnapshotV1}

theorem sorted_orderedTasks (hids : DistinctIds tasks) :
    ((orderedTasks tasks).map ControlPlaneTaskV1.fromTask).Pairwise ControlPlaneTaskV1.Before := by
  have hne := hids.perm (orderedTasks_perm tasks)
  unfold DistinctIds List.Nodup at hne
  rw [List.pairwise_map] at hne ⊢
  apply ((orderedTasks_pairwise tasks).and hne).imp
  rintro task task' ⟨hlt | ⟨heq, hle⟩, hids⟩
  · exact .inl hlt
  · exact .inr ⟨heq, lt_of_le_of_ne hle hids⟩

theorem nonempty_fromRecords {workflowId : String} {task : TaskRecord} (htask : task ∈ tasks)
    (hworkflow : task.workflowId = some workflowId) :
    .fromTask task ∈
      (ControlPlaneWorkflowTraceV1.fromRecords workflowId (tasksOf workflowId tasks)).tasks := by
  rw [mem_tasks_fromRecords]
  exact ⟨task, List.mem_filter.mpr ⟨htask, decide_eq_true hworkflow⟩, rfl⟩

/-- A task is a step of the trace of its workflow only. -/
theorem trace_of_step (hids : DistinctIds tasks) {task : TaskRecord} (htask : task ∈ tasks)
    {workflowId : String} (hworkflow : task.workflowId = some workflowId)
    {trace : ControlPlaneWorkflowTraceV1} (htrace : trace ∈ workflowTraces (orderedTasks tasks))
    {step : ControlPlaneWorkflowStepV1} (hstep : step ∈ trace.tasks)
    (hid : step.taskId = task.taskId) :
    trace = .fromRecords workflowId (tasksOf workflowId tasks) := by
  obtain ⟨workflowId', -, rfl⟩ := (mem_workflowTraces_orderedTasks hids).mp htrace
  obtain ⟨task', htask', rfl⟩ := mem_tasks_fromRecords.mp hstep
  obtain ⟨hmem, hworkflow'⟩ := List.mem_filter.mp htask'
  have hsame := hids.eq_of_taskId hmem htask hid
  rw [hsame, decide_eq_true_eq, hworkflow] at hworkflow'
  cases hworkflow'
  rfl

/-- The snapshot is built if the capabilities can be read, and shows all the tasks. -/
theorem build_showsAll (hids : DistinctIds tasks) {capabilities : List ControlPlaneCapabilityV1}
    (hcapabilities : controlPlaneCapabilities registry h = .ok capabilities) :
    ∃ snapshot, buildControlPlaneSnapshot clock tasks registry h healthComponents =
      .ok snapshot ∧ snapshot.capabilities = capabilities ∧
        snapshot.health = healthComponents ∧ ShowsAll tasks snapshot := by
  unfold buildControlPlaneSnapshot
  rw [hcapabilities]
  refine ⟨_, rfl, rfl, rfl, ?_⟩
  have hperm := orderedTasks_perm tasks
  constructor
  · exact hperm.map _
  · exact sorted_orderedTasks hids
  · exact (hperm.filter _).map _
  · intro task htask workflowId hworkflow
    refine ⟨.fromRecords workflowId (tasksOf workflowId tasks), ?_, rfl,
      nonempty_fromRecords htask hworkflow, ?_⟩
    · exact (mem_workflowTraces_orderedTasks hids).mpr
        ⟨workflowId, ⟨task, htask, hworkflow⟩, rfl⟩
    · intro trace htrace step hstep hid
      exact trace_of_step hids htask hworkflow htrace hstep hid
  · exact workflowTraces_increasing _
  · intro trace htrace
    obtain ⟨workflowId, ⟨task, htask, hworkflow⟩, rfl⟩ :=
      (mem_workflowTraces_orderedTasks hids).mp htrace
    exact List.ne_nil_of_mem (nonempty_fromRecords htask hworkflow)
  · intro trace htrace
    obtain ⟨workflowId, -, rfl⟩ := (mem_workflowTraces_orderedTasks hids).mp htrace
    rfl

end Snapshot

/-- The snapshot is a partition of the tasks that does not depend on their
order.  It is built exactly if the capabilities of the registry can be read. -/
theorem snapshot_partitions (tasks : List TaskRecord) (hids : DistinctIds tasks)
    (registry : LoadedRegistry) (h : Trace)
    (healthComponents : List ControlPlaneHealthComponentV1) (clock : Time) :
    (∀ tasks' clock', tasks'.Perm tasks →
      (buildControlPlaneSnapshot clock' tasks' registry h healthComponents).map (·.untimed) =
        (buildControlPlaneSnapshot clock tasks registry h healthComponents).map (·.untimed)) ∧
    (∀ capabilities, controlPlaneCapabilities registry h = .ok capabilities → ∃ snapshot,
      buildControlPlaneSnapshot clock tasks registry h healthComponents = .ok snapshot ∧
        snapshot.capabilities = capabilities ∧ snapshot.health = healthComponents ∧
          ShowsAll tasks snapshot) ∧
    ∀ e, controlPlaneCapabilities registry h = .error e →
      buildControlPlaneSnapshot clock tasks registry h healthComponents = .error e := by
  refine ⟨?_, fun capabilities hcapabilities => build_showsAll hids hcapabilities, ?_⟩
  · intro tasks' clock' hperm
    unfold buildControlPlaneSnapshot
    rw [orderedTasks_eq_of_perm hids hperm]
    cases controlPlaneCapabilities registry h with
    | error e => rfl
    | ok capabilities => rfl
  · intro e he
    unfold buildControlPlaneSnapshot
    rw [he]
    rfl

/-- A task of a workflow that waits for approval. -/
def awaitingTask (taskId : TaskId) (workflowId : Option String) : TaskRecord :=
  ⟨taskId, "review", "echo", [], [], .awaitingApproval, none, 0, 0, workflowId, none, [], 0, 0⟩

/-- Two tasks of one time are shown in the order of their ids. -/
theorem snapshot_partitions_tied :
    let tasks := [awaitingTask "task-2" (some "wf-1"), awaitingTask "task-1" (some "wf-1")]
    (∀ tasks' clock', tasks'.Perm tasks →
      (buildControlPlaneSnapshot clock' tasks' .empty [] []).map (·.untimed) =
        (buildControlPlaneSnapshot 0 tasks .empty [] []).map (·.untimed)) ∧
    ∃ snapshot, buildControlPlaneSnapshot 0 tasks .empty [] [] = .ok snapshot ∧
      snapshot.tasks.map (·.taskId) = ["task-1", "task-2"] ∧ ShowsAll tasks snapshot := by
  intro tasks
  have hids : DistinctIds tasks := by
    unfold DistinctIds
    decide
  obtain ⟨hperm, hbuilt, -⟩ := snapshot_partitions tasks hids .empty [] [] 0
  obtain ⟨snapshot, hbuild, -, -, hshows⟩ := hbuilt [] rfl
  refine ⟨hperm, snapshot, hbuild, ?_, hshows⟩
  cases hbuild
  decide

/-- A registry whose only capability reports another name than it is stored
under. -/
def renamedRegistry : LoadedRegistry :=
  ⟨[("echo", .stored ⟨"echo-v2", "", .low, [], false⟩)], []⟩

/-- The controls are looked up under the reported name, and no snapshot is built. -/
theorem renamedRegistry_no_snapshot :
    ¬∀ (tasks : List TaskRecord), DistinctIds tasks → ∀ (registry : LoadedRegistry) (h : Trace)
        (healthComponents : List ControlPlaneHealthComponentV1) (clock : Time), ∃ snapshot,
          buildControlPlaneSnapshot clock tasks registry h healthComponents = .ok snapshot ∧
            ShowsAll tasks snapshot := by
  intro hbuilds
  obtain ⟨snapshot, hbuild, -⟩ := hbuilds [] List.nodup_nil renamedRegistry [] [] 0
  have hraises : controlPlaneCapabilities renamedRegistry [] =
      .error ⟨"KeyError", some (pyRepr (CapabilityRegistry.notRegistered "echo-v2")), true⟩ := rfl
  unfold buildControlPlaneSnapshot at hbuild
  rw [hraises] at hbuild
  cases hbuild

end Conductor
