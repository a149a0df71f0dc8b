/-
Task records in JSON: the fields of the model, its dump in JSON mode and its
validation.
-/
import Conductor.Guild.Records

namespace Conductor

open Json Pydantic

namespace TaskStatus

def all : List TaskStatus :=
  [.pending, .running, .completed, .failed, .awaitingApproval, .approved, .policyDenied,
    .cancelled, .escalated]

/-- `TaskStatus(text)`, if there is such a status. -/
def ofValue (text : String) : Option TaskStatus := all.find? fun status => status.value = text

theorem ofValue_value (status : TaskStatus) : ofValue status.value = some status := by
  cases status <;> decide

/-- A field of this type. -/
def validate : Value → Except PyExc TaskStatus
  | .str text =>
      match ofValue text with
      | some status => .ok status
      | none => .error (.exception "ValidationError" "Input should be a task status")
  | _ => .error (.exception "ValidationError" "Input should be a task status")

theorem validate_value (status : TaskStatus) : validate (.str status.value) = .ok status := by
  rw [validate, ofValue_value]

end TaskStatus

/-- An optional status as a field value. -/
def Value.ofStatus? (status : Option TaskStatus) : Value := .ofStr? (status.map (·.value))

theorem orNone_ofStatus? (status : Option TaskStatus) :
    orNone TaskStatus.validate (.ofStatus? status) = .ok status := by
  cases status with
  | none => rfl
  | some status =>
      change (TaskStatus.validate (.str status.value)).map some = _
      rw [TaskStatus.validate_value]
      rfl

namespace Pydantic

/-- An optional datetime as a field value. -/
def datetimeText? (p : Pydantic) : Option Time → Value
  | none => .none
  | some t => p.datetimeText t

theorem orNone_datetimeText? {p : Pydantic} (hp : p.Lawful) (t : Option Time) :
    orNone p.datetime (p.datetimeText? t) = .ok t := by
  cases t with
  | none => rfl
  | some t =>
      change (p.datetime (.str (p.isoformat t))).map some = _
      rw [hp.datetime]
      rfl

theorem sorted_datetimeText? (p : Pydantic) (t : Option Time) :
    sorted (p.datetimeText? t) = p.datetimeText? t := by
  cases t <;> rfl

theorem faithful_datetimeText? (p : Pydantic) (t : Option Time) :
    Faithful (p.datetimeText? t) := by
  cases t <;> trivial

section Fields

variable {p : Pydantic} {items : Dict} {field : String}

theorem required_str (hp : p.Lawful) (hkeys : (Assoc.keys items).Nodup) {text : String}
    (hfield : items.lookup field = some (.str text)) :
    required (sortedDict items) field p.str = .ok text :=
  (required_sortedDict hkeys hfield _).trans (hp.str _)

theorem required_bool (hp : p.Lawful) (hkeys : (Assoc.keys items).Nodup) {b : Bool}
    (hfield : items.lookup field = some (.bool b)) :
    required (sortedDict items) field p.bool = .ok b :=
  (required_sortedDict hkeys hfield _).trans (hp.bool _)

theorem defaulted_str (hp : p.Lawful) (hkeys : (Assoc.keys items).Nodup) {text : String}
    (hfield : items.lookup field = some (.str text)) (default : String) :
    defaulted (sortedDict items) field default p.str = .ok text :=
  (defaulted_sortedDict hkeys hfield _ _).trans (hp.str _)

theorem defaulted_int (hp : p.Lawful) (hkeys : (Assoc.keys items).Nodup) {n : Int}
    (hfield : items.lookup field = some (.int n)) (default : Int) :
    defaulted (sortedDict items) field default p.int = .ok n :=
  (defaulted_sortedDict hkeys hfield _ _).trans (hp.int _)

theorem defaulted_dict (hp : p.Lawful) (hkeys : (Assoc.keys items).Nodup) {value : Dict}
    (hfield : items.lookup field = some (.dict value)) (default : Dict) :
    defaulted (sortedDict items) field default p.dict = .ok (sortedDict value) :=
  (defaulted_sortedDict hkeys hfield _ _).trans (hp.dict _)

theorem defaulted_datetime (hp : p.Lawful) (hkeys : (Assoc.keys items).Nodup) {t : Time}
    (hfield : items.lookup field = some (p.datetimeText t)) (default : Time) :
    defaulted (sortedDict items) field default p.datetime = .ok t :=
  (defaulted_sortedDict hkeys hfield _ _).trans (hp.datetime _)

theorem defaulted_str? (hp : p.Lawful) (hkeys : (Assoc.keys items).Nodup) {text : Option String}
    (hfield : items.lookup field = some (.ofStr? text)) :
    defaulted (sortedDict items) field none (orNone p.str) = .ok text := by
  rw [defaulted_sortedDict hkeys hfield, sorted_ofStr?, orNone_ofStr? hp]

theorem defaulted_datetime? (hp : p.Lawful) (hkeys : (Assoc.keys items).Nodup) {t : Option Time}
    (hfield : items.lookup field = some (p.datetimeText? t)) :
    defaulted (sortedDict items) field none (orNone p.datetime) = .ok t := by
  rw [defaulted_sortedDict hkeys hfield, sorted_datetimeText?, orNone_datetimeText? hp]

theorem defaulted_status? (hkeys : (Assoc.keys items).Nodup) {status : Option TaskStatus}
    (hfield : items.lookup field = some (.ofStatus? status)) :
    defaulted (sortedDict items) field none (orNone TaskStatus.validate) = .ok status := by
  rw [defaulted_sortedDict hkeys hfield, Value.ofStatus?, sorted_ofStr?]
  exact orNone_ofStatus? status

end Fields

end Pydantic

namespace TaskResult

def modelDump (p : Pydantic) (r : TaskResult) : Except PyExc Dict := do
  let output ← p.jsonMode r.output
  let metadata ← p.jsonModeItems r.metadata
  return [("success", .bool r.success), ("output", output), ("error", .ofStr? r.error),
    ("metadata", .dict metadata), ("started_at", p.datetimeText? r.startedAt),
    ("completed_at", p.datetimeText? r.completedAt)]

def modelValidate (p : Pydantic) (raw : Value) : Except PyExc TaskResult := do
  let items ← p.dict raw
  let success ← required items "success" p.bool
  let output ← defaulted items "output" .none Except.ok
  let error ← defaulted items "error" none (orNone p.str)
  let metadata ← defaulted items "metadata" [] p.dict
  let startedAt ← defaulted items "started_at" none (orNone p.datetime)
  let completedAt ← defaulted items "completed_at" none (orNone p.datetime)
  return ⟨success, output, error, metadata, startedAt, completedAt⟩

structure Serialisable (r : TaskResult) : Prop where
  output : Faithful r.output
  metadata : Faithful (.dict r.metadata)

/-- The result with the keys of its dicts sorted. -/
def sortedKeys (r : TaskResult) : TaskResult :=
  { r with output := sorted r.output, metadata := sortedDict r.metadata }

variable {p : Pydantic} {r : TaskResult}

/-- The dump of a result whose values are dumped as they are. -/
def dumpItems (p : Pydantic) (r : TaskResult) : Dict :=
  [("success", .bool r.success), ("output", r.output), ("error", .ofStr? r.error),
    ("metadata", .dict r.metadata), ("started_at", p.datetimeText? r.startedAt),
    ("completed_at", p.datetimeText? r.completedAt)]

theorem modelDump_eq (p : Pydantic) (hr : r.Serialisable) :
    r.modelDump p = .ok (r.dumpItems p) := by
  unfold modelDump
  rw [bind_of_ok (p.jsonMode_eq hr.output), bind_of_ok (p.jsonModeItems_eq hr.metadata)]
  rfl

theorem nodup_dumpItems (p : Pydantic) (r : TaskResult) : (Assoc.keys (r.dumpItems p)).Nodup := by
  simp [dumpItems]

theorem faithful_dumpItems (p : Pydantic) (hr : r.Serialisable) :
    Faithful (.dict (r.dumpItems p)) := by
  refine ⟨nodup_dumpItems p r, ?_⟩
  rw [faithfulItems_iff]
  simp only [dumpItems, List.forall_mem_cons, List.not_mem_nil, false_implies, implies_true,
    and_true]
  exact ⟨trivial, hr.output, faithful_ofStr? _, hr.metadata, p.faithful_datetimeText? _,
    p.faithful_datetimeText? _⟩

theorem modelValidate_dumpItems (hp : p.Lawful) (r : TaskResult) :
    modelValidate p (sorted (.dict (r.dumpItems p))) = .ok r.sortedKeys := by
  have hkeys := nodup_dumpItems p r
  have houtput : defaulted (sortedDict (r.dumpItems p)) "output" .none Except.ok =
      .ok (sorted r.output) := defaulted_sortedDict hkeys rfl _ _
  unfold modelValidate
  rw [sorted_dict, bind_of_ok (hp.dict _), bind_of_ok (required_bool hp hkeys rfl),
    bind_of_ok houtput, bind_of_ok (defaulted_str? hp hkeys rfl),
    bind_of_ok (defaulted_dict hp hkeys rfl _), bind_of_ok (defaulted_datetime? hp hkeys rfl),
    bind_of_ok (defaulted_datetime? hp hkeys rfl)]
  rfl

/-- `result: TaskResult | None`. -/
def dump? (p : Pydantic) : Option TaskResult → Except PyExc Value
  | none => .ok .none
  | some r => (r.modelDump p).map .dict

def SerialisableIfAny (r : Option TaskResult) : Prop := ∀ result ∈ r, result.Serialisable

theorem dump?_eq {r : Option TaskResult} (p : Pydantic) (hr : SerialisableIfAny r) :
    ∃ value, dump? p r = .ok value ∧ Faithful value ∧
      ∀ _ : p.Lawful, orNone (modelValidate p) (sorted value) = .ok (r.map sortedKeys) := by
  cases r with
  | none => exact ⟨.none, rfl, trivial, fun _ => rfl⟩
  | some r =>
      have hr := hr r rfl
      refine ⟨.dict (r.dumpItems p), ?_, faithful_dumpItems p hr, fun hp => ?_⟩
      · rw [dump?, modelDump_eq p hr]
        rfl
      · change (modelValidate p (sorted (.dict (r.dumpItems p)))).map some = _
        rw [modelValidate_dumpItems hp]
        rfl

end TaskResult

namespace AuditEntry

def modelDump (p : Pydantic) (entry : AuditEntry) : Except PyExc Dict := do
  let metadata ← p.jsonModeItems entry.metadata
  return [("timestamp", p.datetimeText entry.timestamp), ("actor", .str entry.actor),
    ("action", .str entry.action), ("from_status", .ofStatus? entry.fromStatus),
    ("to_status", .ofStatus? entry.toStatus), ("metadata", .dict metadata)]

def modelValidate (p : Pydantic) (raw : Value) : Except PyExc AuditEntry := do
  let items ← p.dict raw
  let timestamp ← defaulted items "timestamp" (p.now raw) p.datetime
  let actor ← required items "actor" p.str
  let action ← required items "action" p.str
  let fromStatus ← defaulted items "from_status" none (orNone TaskStatus.validate)
  let toStatus ← defaulted items "to_status" none (orNone TaskStatus.validate)
  let metadata ← defaulted items "metadata" [] p.dict
  return ⟨timestamp, actor, action, fromStatus, toStatus, metadata⟩

def sortedKeys (entry : AuditEntry) : AuditEntry :=
  { entry with metadata := sortedDict entry.metadata }

variable {p : Pydantic} {entry : AuditEntry}

def dumpItems (p : Pydantic) (entry : AuditEntry) : Dict :=
  [("timestamp", p.datetimeText entry.timestamp), ("actor", .str entry.actor),
    ("action", .str entry.action), ("from_status", .ofStatus? entry.fromStatus),
    ("to_status", .ofStatus? entry.toStatus), ("metadata", .dict entry.metadata)]

theorem modelDump_eq (p : Pydantic) (hentry : Faithful (.dict entry.metadata)) :
    entry.modelDump p = .ok (entry.dumpItems p) := by
  unfold modelDump
  rw [bind_of_ok (p.jsonModeItems_eq hentry)]
  rfl

theorem nodup_dumpItems (p : Pydantic) (entry : AuditEntry) :
    (Assoc.keys (entry.dumpItems p)).Nodup := by
  simp [dumpItems]

theorem faithful_dumpItems (p : Pydantic) (hentry : Faithful (.dict entry.metadata)) :
    Faithful (.dict (entry.dumpItems p)) := by
  refine ⟨nodup_dumpItems p entry, ?_⟩
  rw [faithfulItems_iff]
  simp only [dumpItems, List.forall_mem_cons, List.not_mem_nil, false_implies, implies_true,
    and_true]
  exact ⟨trivial, trivial, trivial, faithful_ofStr? _, faithful_ofStr? _, hentry⟩

theorem modelValidate_dumpItems (hp : p.Lawful) (entry : AuditEntry) :
    modelValidate p (sorted (.dict (entry.dumpItems p))) = .ok entry.sortedKeys := by
  have hkeys := nodup_dumpItems p entry
  unfold modelValidate
  rw [sorted_dict, bind_of_ok (hp.dict _), bind_of_ok (defaulted_datetime hp hkeys rfl _),
    bind_of_ok (required_str hp hkeys rfl), bind_of_ok (required_str hp hkeys rfl),
    bind_of_ok (defaulted_status? hkeys rfl), bind_of_ok (defaulted_status? hkeys rfl),
    bind_of_ok (defaulted_dict hp hkeys rfl _)]
  rfl

/-- `audit_trail: list[AuditEntry]`. -/
def dumpTrail (p : Pydantic) (trail : List AuditEntry) : Except PyExc Value :=
  (trail.mapM fun (entry : AuditEntry) => (entry.modelDump p).map Value.dict).map .list

def validateTrail (p : Pydantic) (raw : Value) : Except PyExc (List AuditEntry) := do
  let values ← p.list raw
  values.mapM (modelValidate p)

theorem dumpTrail_eq (p : Pydantic) {trail : List AuditEntry}
    (htrail : ∀ entry ∈ trail, Faithful (.dict entry.metadata)) :
    dumpTrail p trail = .ok (.list (trail.map fun entry => .dict (entry.dumpItems p))) := by
  have hentries : trail.mapM (fun entry => (entry.modelDump p).map Value.dict) =
      .ok (trail.map fun entry => .dict (entry.dumpItems p)) := by
    induction trail with
    | nil => rfl
    | cons entry rest ih =>
        rw [List.forall_mem_cons] at htrail
        rw [List.mapM_cons, modelDump_eq p htrail.1, ih htrail.2]
        rfl
  rw [dumpTrail, hentries]
  rfl

theorem validateTrail_dumpItems (hp : p.Lawful) (trail : List AuditEntry) :
    validateTrail p (sorted (.list (trail.map fun entry => .dict (entry.dumpItems p)))) =
      .ok (trail.map sortedKeys) := by
  have hentries : (trail.map fun entry => sorted (.dict (entry.dumpItems p))).mapM
      (modelValidate p) = .ok (trail.map sortedKeys) := by
    induction trail with
    | nil => rfl
    | cons entry rest ih =>
        rw [List.map_cons, List.mapM_cons, modelValidate_dumpItems hp, ih]
        rfl
  rw [validateTrail, sorted, sortedList_eq, List.map_map, bind_of_ok (hp.list _)]
  exact hentries

end AuditEntry

namespace TaskRecord

/-- `task.model_dump(mode="json")`. -/
def modelDump (p : Pydantic) (task : TaskRecord) : Except PyExc Dict := do
  let input ← p.jsonModeItems task.input
  let metadata ← p.jsonModeItems task.metadata
  let result ← TaskResult.dump? p task.result
  let auditTrail ← AuditEntry.dumpTrail p task.auditTrail
  return [("task_id", .str task.taskId), ("name", .str task.name),
    ("capability", .str task.capability), ("input", .dict input), ("metadata", .dict metadata),
    ("status", .str task.status.value), ("result", result), ("attempt", .int task.attempt),
    ("max_retries", .int task.maxRetries), ("workflow_id", .ofStr? task.workflowId),
    ("archived_at", p.datetimeText? task.archivedAt), ("audit_trail", auditTrail),
    ("created_at", p.datetimeText task.createdAt), ("updated_at", p.datetimeText task.updatedAt)]

/-- `TaskRecord.model_validate(raw)`, where `uuid4` gives the default of the id. -/
def modelValidate (p : Pydantic) (uuid4 : Value → TaskId) (raw : Value) :
    Except PyExc TaskRecord := do
  let items ← p.dict raw
  let taskId ← defaulted items "task_id" (uuid4 raw) p.str
  let name ← required items "name" p.str
  let capability ← required items "capability" p.str
  let input ← defaulted items "input" [] p.dict
  let metadata ← defaulted items "metadata" [] p.dict
  let status ← defaulted items "status" .pending TaskStatus.validate
  let result ← defaulted items "result" none (orNone (TaskResult.modelValidate p))
  let attempt ← defaulted items "attempt" 0 p.int
  let maxRetries ← defaulted items "max_retries" 0 p.int
  let workflowId ← defaulted items "workflow_id" none (orNone p.str)
  let archivedAt ← defaulted items "archived_at" none (orNone p.datetime)
  let auditTrail ← defaulted items "audit_trail" [] (AuditEntry.validateTrail p)
  let createdAt ← defaulted items "created_at" (p.now raw) p.datetime
  let updatedAt ← defaulted items "updated_at" (p.now raw) p.datetime
  return {
    taskId := taskId
    name := name
    capability := capability
    input := input
    metadata := metadata
    status := status
    result := result
    attempt := attempt
    maxRetries := maxRetries
    workflowId := workflowId
    archivedAt := archivedAt
    auditTrail := auditTrail
    createdAt := createdAt
    updatedAt := updatedAt
  }

def codec (p : Pydantic) (uuid4 : Value → TaskId) : Codec TaskRecord :=
  ⟨modelDump p, modelValidate p uuid4⟩

/-- The record holds nothing that JSON cannot carry. -/
structure Serialisable (task : TaskRecord) : Prop where
  input : Faithful (.dict task.input)
  metadata : Faithful (.dict task.metadata)
  result : TaskResult.SerialisableIfAny task.result
  attempt : task.attempt.natAbs < digitLimit
  maxRetries : task.maxRetries.natAbs < digitLimit
  auditTrail : ∀ entry ∈ task.auditTrail, Faithful (.dict entry.metadata)

/-- The record with the keys of its dicts sorted, which Python takes for the
same record. -/
def sortedKeys (task : TaskRecord) : TaskRecord :=
  { task with
    input := sortedDict task.input
    metadata := sortedDict task.metadata
    result := task.result.map .sortedKeys
    auditTrail := task.auditTrail.map .sortedKeys }

variable {p : Pydantic} {task : TaskRecord}

/-- The dump of a record whose values are dumped as they are, over that of its
result. -/
def dumpItems (p : Pydantic) (result : Value) (task : TaskRecord) : Dict :=
  [("task_id", .str task.taskId), ("name", .str task.name),
    ("capability", .str task.capability), ("input", .dict task.input),
    ("metadata", .dict task.metadata), ("status", .str task.status.value), ("result", result),
    ("attempt", .int task.attempt), ("max_retries", .int task.maxRetries),
    ("workflow_id", .ofStr? task.workflowId), ("archived_at", p.datetimeText? task.archivedAt),
    ("audit_trail", .list (task.auditTrail.map fun entry => .dict (entry.dumpItems p))),
    ("created_at", p.datetimeText task.createdAt), ("updated_at", p.datetimeText task.updatedAt)]

theorem nodup_dumpItems (p : Pydantic) (result : Value) (task : TaskRecord) :
    (Assoc.keys (task.dumpItems p result)).Nodup := by
  simp [dumpItems]

theorem faithful_dumpItems (p : Pydantic) {result : Value} (htask : task.Serialisable)
    (hresult : Faithful result) : Faithful (.dict (task.dumpItems p result)) := by
  have htrail : Faithful (.list (task.auditTrail.map fun entry => .dict (entry.dumpItems p))) := by
    rw [Faithful, faithfulList_iff, List.forall_mem_map]
    exact fun entry hentry => AuditEntry.faithful_dumpItems p (htask.auditTrail entry hentry)
  refine ⟨nodup_dumpItems p result task, ?_⟩
  rw [faithfulItems_iff]
  simp only [dumpItems, List.forall_mem_cons, List.not_mem_nil, false_implies, implies_true,
    and_true]
  exact ⟨trivial, trivial, trivial, htask.input, htask.metadata, trivial, hresult, htask.attempt,
    htask.maxRetries, faithful_ofStr? _, p.faithful_datetimeText? _, htrail, trivial, trivial⟩

theorem modelValidate_dumpItems (hp : p.Lawful) (uuid4 : Value → TaskId) {result : Value}
    (hresult : orNone (TaskResult.modelValidate p) (sorted result) =
      .ok (task.result.map .sortedKeys)) :
    modelValidate p uuid4 (.dict (sortedDict (task.dumpItems p result))) = .ok task.sortedKeys := by
  have hkeys := nodup_dumpItems p result task
  have hstatus : defaulted (sortedDict (task.dumpItems p result)) "status" .pending
      TaskStatus.validate = .ok task.status := by
    have hfield : (task.dumpItems p result).lookup "status" = some (.str task.status.value) := rfl
    rw [defaulted_sortedDict hkeys hfield]
    exact TaskStatus.validate_value _
  have hresult' : defaulted (sortedDict (task.dumpItems p result)) "result" none
      (orNone (TaskResult.modelValidate p)) = .ok (task.result.map .sortedKeys) :=
    (defaulted_sortedDict hkeys rfl _ _).trans hresult
  have htrail : defaulted (sortedDict (task.dumpItems p result)) "audit_trail" []
      (AuditEntry.validateTrail p) = .ok (task.auditTrail.map .sortedKeys) := by
    have hfield : (task.dumpItems p result).lookup "audit_trail" =
        some (.list (task.auditTrail.map fun entry => .dict (entry.dumpItems p))) := rfl
    rw [defaulted_sortedDict hkeys hfield]
    exact AuditEntry.validateTrail_dumpItems hp _
  unfold modelValidate
  rw [bind_of_ok (hp.dict _), bind_of_ok (defaulted_str hp hkeys rfl _),
    bind_of_ok (required_str hp hkeys rfl), bind_of_ok (required_str hp hkeys rfl),
    bind_of_ok (defaulted_dict hp hkeys rfl _), bind_of_ok (defaulted_dict hp hkeys rfl _),
    bind_of_ok hstatus, bind_of_ok hresult', bind_of_ok (defaulted_int hp hkeys rfl _),
    bind_of_ok (defaulted_int hp hkeys rfl _), bind_of_ok (defaulted_str? hp hkeys rfl),
    bind_of_ok (defaulted_datetime? hp hkeys rfl), bind_of_ok htrail,
    bind_of_ok (defaulted_datetime hp hkeys rfl _), bind_of_ok (defaulted_datetime hp hkeys rfl _)]
  rfl

/-- A record that JSON can carry comes back from its dump, with the keys of its
dicts sorted. -/
theorem roundTrips (hp : p.Lawful) (uuid4 : Value → TaskId) (htask : task.Serialisable) :
    (codec p uuid4).RoundTrips sortedKeys task := by
  obtain ⟨result, hdump, hfaithful, hread⟩ := TaskResult.dump?_eq p htask.result
  have hitems := faithful_dumpItems p htask hfaithful
  have hdumped : task.modelDump p = .ok (task.dumpItems p result) := by
    unfold modelDump
    rw [bind_of_ok (p.jsonModeItems_eq htask.input), bind_of_ok (p.jsonModeItems_eq htask.metadata),
      bind_of_ok hdump, bind_of_ok (AuditEntry.dumpTrail_eq p htask.auditTrail)]
    rfl
  refine ⟨.dict (sortedDict (task.dumpItems p result)), ?_, ?_, ?_⟩
  · rw [← sorted_dict]
    exact hitems.sorted
  · exact modelValidate_dumpItems hp uuid4 (hread hp)
  · exact ⟨_, hdumped, by simp [dumpItems], hitems, rfl⟩

end TaskRecord

end Conductor
