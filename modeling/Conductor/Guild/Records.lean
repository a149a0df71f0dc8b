/-
Guild records: the fields of the model, its dump in JSON mode and its
validation.
-/
import Conductor.Interfaces
import Conductor.Python.JsonMode

namespace Conductor

open Json

namespace FailureFingerprint

def modelDump (f : FailureFingerprint) : Dict :=
  [("capability", .str f.capability), ("error_type", .str f.errorType),
    ("input_fingerprint", .str f.inputFingerprint)]

def modelValidate (p : Pydantic) (raw : Value) : Except PyExc FailureFingerprint := do
  let items ← p.dict raw
  let capability ← Pydantic.required items "capability" p.str
  let errorType ← Pydantic.required items "error_type" p.str
  let inputFingerprint ← Pydantic.required items "input_fingerprint" p.str
  return ⟨capability, errorType, inputFingerprint⟩

end FailureFingerprint

/-- A stored knowledge entry in the guild. -/
structure GuildRecord where
  fingerprint : FailureFingerprint
  resolutionHint : Option String
  approachAdjustment : Dict
  role : Option String
  project : Option String
  successCount : Int
  failureCount : Int
  createdAt : Time
  updatedAt : Time
  metadata : Dict

namespace GuildRecord

/-- The key that a store files the record under. -/
def key (r : GuildRecord) : String := r.fingerprint.toKey

/-- `record.model_dump(mode="json")`. -/
def modelDump (p : Pydantic) (r : GuildRecord) : Except PyExc Dict := do
  let approachAdjustment ← p.jsonModeItems r.approachAdjustment
  let metadata ← p.jsonModeItems r.metadata
  return [("fingerprint", .dict r.fingerprint.modelDump),
    ("resolution_hint", .ofStr? r.resolutionHint),
    ("approach_adjustment", .dict approachAdjustment), ("role", .ofStr? r.role),
    ("project", .ofStr? r.project), ("success_count", .int r.successCount),
    ("failure_count", .int r.failureCount), ("created_at", p.datetimeText r.createdAt),
    ("updated_at", p.datetimeText r.updatedAt), ("metadata", .dict metadata)]

/-- `GuildRecord.model_validate(raw)`. -/
def modelValidate (p : Pydantic) (raw : Value) : Except PyExc GuildRecord := do
  let items ← p.dict raw
  let fingerprint ← Pydantic.required items "fingerprint" (FailureFingerprint.modelValidate p)
  let resolutionHint ← Pydantic.defaulted items "resolution_hint" none (Pydantic.orNone p.str)
  let approachAdjustment ← Pydantic.defaulted items "approach_adjustment" [] p.dict
  let role ← Pydantic.defaulted items "role" none (Pydantic.orNone p.str)
  let project ← Pydantic.defaulted items "project" none (Pydantic.orNone p.str)
  let successCount ← Pydantic.defaulted items "success_count" 0 p.int
  let failureCount ← Pydantic.defaulted items "failure_count" 1 p.int
  let createdAt ← Pydantic.defaulted items "created_at" (p.now raw) p.datetime
  let updatedAt ← Pydantic.defaulted items "updated_at" (p.now raw) p.datetime
  let metadata ← Pydantic.defaulted items "metadata" [] p.dict
  return {
    fingerprint := fingerprint
    resolutionHint := resolutionHint
    approachAdjustment := approachAdjustment
    role := role
    project := project
    successCount := successCount
    failureCount := failureCount
    createdAt := createdAt
    updatedAt := updatedAt
    metadata := metadata
  }

def codec (p : Pydantic) : Codec GuildRecord := ⟨modelDump p, modelValidate p⟩

/-- The record with each of its dicts replaced. -/
def mapDicts (f : Dict → Dict) (r : GuildRecord) : GuildRecord :=
  { r with approachAdjustment := f r.approachAdjustment, metadata := f r.metadata }

@[simp] theorem mapDicts_id (r : GuildRecord) : r.mapDicts id = r := rfl

@[simp] theorem fingerprint_mapDicts (f : Dict → Dict) (r : GuildRecord) :
    (r.mapDicts f).fingerprint = r.fingerprint := rfl

@[simp] theorem key_mapDicts (f : Dict → Dict) (r : GuildRecord) : (r.mapDicts f).key = r.key := rfl

/-- The record holds nothing that JSON cannot carry. -/
structure Serialisable (r : GuildRecord) : Prop where
  approachAdjustment : Faithful (.dict r.approachAdjustment)
  metadata : Faithful (.dict r.metadata)
  successCount : r.successCount.natAbs < digitLimit
  failureCount : r.failureCount.natAbs < digitLimit

end GuildRecord

theorem faithful_ofStr? (s : Option String) : Faithful (.ofStr? s) := by
  cases s <;> trivial

theorem sorted_ofStr? (s : Option String) : sorted (.ofStr? s) = .ofStr? s := by
  cases s <;> rfl

namespace Pydantic

theorem orNone_ofStr? {p : Pydantic} (hp : p.Lawful) (s : Option String) :
    orNone p.str (.ofStr? s) = .ok s := by
  cases s with
  | none => rfl
  | some s =>
      change (p.str (.str s)).map some = _
      rw [hp.str]
      rfl

variable {α : Type} {items : Dict} {field : String} {value : Value}

theorem required_sortedDict (hkeys : (Assoc.keys items).Nodup)
    (hfield : items.lookup field = some value) (check : Value → Except PyExc α) :
    required (sortedDict items) field check = check (sorted value) := by
  rw [required, lookup_sortedDict hkeys, hfield]
  rfl

theorem defaulted_sortedDict (hkeys : (Assoc.keys items).Nodup)
    (hfield : items.lookup field = some value) (default : α) (check : Value → Except PyExc α) :
    defaulted (sortedDict items) field default check = check (sorted value) := by
  rw [defaulted, lookup_sortedDict hkeys, hfield]
  rfl

end Pydantic

open Pydantic

theorem FailureFingerprint.modelValidate_modelDump {p : Pydantic} (hp : p.Lawful)
    (f : FailureFingerprint) :
    modelValidate p (sorted (.dict f.modelDump)) = .ok f := by
  have hkeys : (Assoc.keys f.modelDump).Nodup := by
    simp [modelDump]
  have hfield : ∀ {field text : String}, f.modelDump.lookup field = some (.str text) →
      required (sortedDict f.modelDump) field p.str = .ok text :=
    fun hlookup => (required_sortedDict hkeys hlookup _).trans (hp.str _)
  unfold modelValidate
  rw [sorted_dict, bind_of_ok (hp.dict _), bind_of_ok (hfield rfl), bind_of_ok (hfield rfl),
    bind_of_ok (hfield rfl)]
  rfl

namespace GuildRecord

variable {p : Pydantic} {r : GuildRecord}

/-- The dump of a record whose dicts are dumped as they are. -/
def dumpItems (p : Pydantic) (r : GuildRecord) : Dict :=
  [("fingerprint", .dict r.fingerprint.modelDump),
    ("resolution_hint", .ofStr? r.resolutionHint),
    ("approach_adjustment", .dict r.approachAdjustment), ("role", .ofStr? r.role),
    ("project", .ofStr? r.project), ("success_count", .int r.successCount),
    ("failure_count", .int r.failureCount), ("created_at", p.datetimeText r.createdAt),
    ("updated_at", p.datetimeText r.updatedAt), ("metadata", .dict r.metadata)]

theorem modelDump_eq (p : Pydantic) (hr : r.Serialisable) :
    r.modelDump p = .ok (r.dumpItems p) := by
  unfold modelDump
  rw [bind_of_ok (p.jsonModeItems_eq hr.approachAdjustment),
    bind_of_ok (p.jsonModeItems_eq hr.metadata)]
  rfl

theorem nodup_dumpItems (p : Pydantic) (r : GuildRecord) :
    (Assoc.keys (r.dumpItems p)).Nodup := by
  simp [dumpItems]

theorem faithful_dumpItems (p : Pydantic) (hr : r.Serialisable) :
    Faithful (.dict (r.dumpItems p)) := by
  refine ⟨nodup_dumpItems p r, ?_⟩
  rw [faithfulItems_iff]
  have hfingerprint : Faithful (.dict r.fingerprint.modelDump) := by
    refine ⟨by simp [FailureFingerprint.modelDump], ?_⟩
    simp [FailureFingerprint.modelDump, FaithfulItems, Faithful]
  simp only [dumpItems, List.forall_mem_cons, List.not_mem_nil, false_implies, implies_true,
    and_true]
  exact ⟨hfingerprint, faithful_ofStr? _, hr.approachAdjustment, faithful_ofStr? _,
    faithful_ofStr? _, hr.successCount, hr.failureCount, trivial, trivial, hr.metadata⟩

theorem modelValidate_dumpItems (hp : p.Lawful) (r : GuildRecord) :
    modelValidate p (.dict (sortedDict (r.dumpItems p))) = .ok (r.mapDicts sortedDict) := by
  have hkeys := nodup_dumpItems p r
  have hfingerprint : required (sortedDict (r.dumpItems p)) "fingerprint"
      (FailureFingerprint.modelValidate p) = .ok r.fingerprint :=
    (required_sortedDict hkeys rfl _).trans (r.fingerprint.modelValidate_modelDump hp)
  have htext : ∀ {field : String} {text : Option String},
      (r.dumpItems p).lookup field = some (.ofStr? text) →
        defaulted (sortedDict (r.dumpItems p)) field none (orNone p.str) = .ok text := by
    intro field text hfield
    rw [defaulted_sortedDict hkeys hfield, sorted_ofStr?, orNone_ofStr? hp]
  have hdict : ∀ {field : String} {items : Dict},
      (r.dumpItems p).lookup field = some (.dict items) →
        defaulted (sortedDict (r.dumpItems p)) field [] p.dict = .ok (sortedDict items) :=
    fun hfield => (defaulted_sortedDict hkeys hfield _ _).trans (hp.dict _)
  have hint : ∀ {field : String} {n : Int} (default : Int),
      (r.dumpItems p).lookup field = some (.int n) →
        defaulted (sortedDict (r.dumpItems p)) field default p.int = .ok n :=
    fun default hfield => (defaulted_sortedDict hkeys hfield _ _).trans (hp.int _)
  have htime : ∀ {field : String} {t : Time} (default : Time),
      (r.dumpItems p).lookup field = some (p.datetimeText t) →
        defaulted (sortedDict (r.dumpItems p)) field default p.datetime = .ok t :=
    fun default hfield => (defaulted_sortedDict hkeys hfield _ _).trans (hp.datetime _)
  unfold modelValidate
  rw [bind_of_ok (hp.dict _), bind_of_ok hfingerprint, bind_of_ok (htext rfl),
    bind_of_ok (hdict rfl), bind_of_ok (htext rfl), bind_of_ok (htext rfl),
    bind_of_ok (hint 0 rfl), bind_of_ok (hint 1 rfl), bind_of_ok (htime _ rfl),
    bind_of_ok (htime _ rfl), bind_of_ok (hdict rfl)]
  rfl

/-- A record that JSON can carry comes back from its dump, with the keys of its
dicts sorted. -/
theorem roundTrips (hp : p.Lawful) (hr : r.Serialisable) :
    (codec p).RoundTrips (mapDicts sortedDict) r := by
  refine ⟨.dict (sortedDict (r.dumpItems p)), ?_, modelValidate_dumpItems hp r, ?_⟩
  · rw [← sorted_dict]
    exact (faithful_dumpItems p hr).sorted
  · exact ⟨_, modelDump_eq p hr, by simp [dumpItems], faithful_dumpItems p hr, rfl⟩

/-- The record has a dump in JSON mode, and JSON carries it. -/
structure Dumpable (p : Pydantic) (r : GuildRecord) : Prop where
  approachAdjustment : p.Dumpable r.approachAdjustment
  metadata : p.Dumpable r.metadata
  successCount : r.successCount.natAbs < digitLimit
  failureCount : r.failureCount.natAbs < digitLimit

/-- A record whose dump JSON carries comes back with its dicts as they were
dumped. -/
theorem roundTrips_dumped (hp : p.Lawful) (hr : r.Dumpable p) :
    (codec p).RoundTrips (mapDicts p.dumped) r := by
  obtain ⟨adjustment, hadjustment, hcarried⟩ := hr.approachAdjustment
  obtain ⟨metadata, hmetadata, hcarried'⟩ := hr.metadata
  -- the record with these dumps for its dicts has the same dump
  have hform := roundTrips (r := { r with
    approachAdjustment := adjustment
    metadata := metadata }) hp ⟨hcarried, hcarried', hr.successCount, hr.failureCount⟩
  obtain ⟨value, hfaithful, hvalidate, dump, hdump, hrest⟩ := hform
  refine ⟨value, hfaithful, ?_, dump, ?_, hrest⟩
  · rw [hvalidate, mapDicts, mapDicts, dumped_eq hadjustment, dumped_eq hmetadata]
  · change modelDump p r = _
    change modelDump p _ = _ at hdump
    rw [← hdump, modelDump, modelDump, bind_of_ok hadjustment, bind_of_ok hmetadata,
      bind_of_ok (p.jsonModeItems_eq hcarried), bind_of_ok (p.jsonModeItems_eq hcarried')]

end GuildRecord

end Conductor
