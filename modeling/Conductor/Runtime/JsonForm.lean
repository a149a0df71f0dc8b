/-
What JSON makes of a task record.  A record that can be written has a form that
JSON carries, and it is saved as this form is.
-/
import Conductor.Python.JsonMode
import Conductor.Runtime.TaskCodec

namespace Conductor

open Json

variable {p : Pydantic}

namespace TaskResult

/-- The result as it stands in JSON. -/
def jsonForm (p : Pydantic) (r : TaskResult) : Except PyExc TaskResult := do
  let output ← p.jsonMode r.output
  let metadata ← p.jsonModeItems r.metadata
  return { r with output := output, metadata := metadata }

theorem modelDump_jsonForm (p : Pydantic) (r : TaskResult) :
    r.modelDump p = (r.jsonForm p).map (dumpItems p) := by
  unfold modelDump jsonForm
  cases p.jsonMode r.output with
  | error e => rfl
  | ok output =>
      dsimp only [bind, Except.bind]
      cases p.jsonModeItems r.metadata <;> rfl

def jsonForm? (p : Pydantic) : Option TaskResult → Except PyExc (Option TaskResult)
  | none => .ok none
  | some r => (r.jsonForm p).map some

/-- The dump of a result whose values are dumped as they are, if there is one. -/
def dumpValue (p : Pydantic) : Option TaskResult → Value
  | none => .none
  | some r => .dict (r.dumpItems p)

theorem dump?_jsonForm (p : Pydantic) (r : Option TaskResult) :
    dump? p r = (jsonForm? p r).map (dumpValue p) := by
  cases r with
  | none => rfl
  | some r =>
      rw [dump?, modelDump_jsonForm, jsonForm?]
      cases r.jsonForm p <;> rfl

/-- Everything in the result is ordinary. -/
structure Ordinary (p : Pydantic) (r : TaskResult) : Prop where
  output : p.Ordinary r.output
  metadata : p.Ordinary (.dict r.metadata)

theorem serialisable_of_jsonForm {r form : TaskResult} (hr : r.Ordinary p)
    (hform : r.jsonForm p = .ok form) (hwritten : refusal (.dict (form.dumpItems p)) = none) :
    form.Serialisable := by
  obtain ⟨output, houtput, hrest⟩ := Except.ok_of_bind hform
  obtain ⟨metadata, hmetadata, hdone⟩ := Except.ok_of_bind hrest
  cases hdone
  rw [refusal, refusalItems_eq_none] at hwritten
  simp only [dumpItems, List.forall_mem_cons] at hwritten
  constructor
  · exact Pydantic.faithful_of_jsonMode hr.output houtput hwritten.2.1
  · exact Pydantic.faithful_of_jsonModeItems hr.metadata hmetadata hwritten.2.2.2.1

end TaskResult

namespace AuditEntry

/-- The entry as it stands in JSON. -/
def jsonForm (p : Pydantic) (entry : AuditEntry) : Except PyExc AuditEntry := do
  let metadata ← p.jsonModeItems entry.metadata
  return { entry with metadata := metadata }

theorem modelDump_jsonForm (p : Pydantic) (entry : AuditEntry) :
    entry.modelDump p = (entry.jsonForm p).map (dumpItems p) := by
  unfold modelDump jsonForm
  cases p.jsonModeItems entry.metadata <;> rfl

def jsonFormTrail (p : Pydantic) (trail : List AuditEntry) : Except PyExc (List AuditEntry) :=
  trail.mapM (jsonForm p)

theorem dumpTrail_jsonForm (p : Pydantic) (trail : List AuditEntry) :
    dumpTrail p trail = (jsonFormTrail p trail).map fun forms =>
      .list (forms.map fun entry => .dict (entry.dumpItems p)) := by
  have hentries : trail.mapM (fun (entry : AuditEntry) => (entry.modelDump p).map Value.dict) =
      (jsonFormTrail p trail).map fun forms =>
        forms.map fun entry => .dict (entry.dumpItems p) := by
    unfold jsonFormTrail
    induction trail with
    | nil => rfl
    | cons entry rest ih =>
        rw [List.mapM_cons, List.mapM_cons, ih, modelDump_jsonForm]
        cases entry.jsonForm p with
        | error e => rfl
        | ok form =>
            dsimp only [bind, Except.bind, Except.map]
            cases rest.mapM (jsonForm p) <;> rfl
  rw [dumpTrail, hentries]
  cases jsonFormTrail p trail <;> rfl

theorem faithful_of_jsonFormTrail {trail forms : List AuditEntry}
    (htrail : ∀ entry ∈ trail, p.Ordinary (.dict entry.metadata))
    (hforms : jsonFormTrail p trail = .ok forms)
    (hwritten : ∀ form ∈ forms, refusal (.dict (form.dumpItems p)) = none) :
    ∀ form ∈ forms, Faithful (.dict form.metadata) := by
  induction trail generalizing forms with
  | nil =>
      cases hforms
      exact List.forall_mem_nil _
  | cons entry rest ih =>
      rw [jsonFormTrail, List.mapM_cons] at hforms
      obtain ⟨form, hform, hrest⟩ := Except.ok_of_bind hforms
      obtain ⟨restForms, hrestForms, hdone⟩ := Except.ok_of_bind hrest
      cases hdone
      rw [List.forall_mem_cons] at htrail hwritten ⊢
      obtain ⟨metadata, hmetadata, hentry⟩ := Except.ok_of_bind hform
      cases hentry
      refine ⟨?_, ih htrail.2 hrestForms hwritten.2⟩
      have hitems := hwritten.1
      rw [refusal, refusalItems_eq_none] at hitems
      simp only [dumpItems, List.forall_mem_cons] at hitems
      exact Pydantic.faithful_of_jsonModeItems htrail.1 hmetadata hitems.2.2.2.2.2.1

end AuditEntry

namespace TaskRecord

/-- The record as it stands in JSON. -/
def jsonForm (p : Pydantic) (task : TaskRecord) : Except PyExc TaskRecord := do
  let input ← p.jsonModeItems task.input
  let metadata ← p.jsonModeItems task.metadata
  let result ← TaskResult.jsonForm? p task.result
  let auditTrail ← AuditEntry.jsonFormTrail p task.auditTrail
  return { task with
    input := input
    metadata := metadata
    result := result
    auditTrail := auditTrail }

theorem modelDump_jsonForm (p : Pydantic) (task : TaskRecord) :
    task.modelDump p = (task.jsonForm p).map fun form =>
      form.dumpItems p (TaskResult.dumpValue p form.result) := by
  unfold modelDump jsonForm
  rw [TaskResult.dump?_jsonForm, AuditEntry.dumpTrail_jsonForm]
  cases p.jsonModeItems task.input with
  | error e => rfl
  | ok input =>
      dsimp only [bind, Except.bind]
      cases p.jsonModeItems task.metadata with
      | error e => rfl
      | ok metadata =>
          dsimp only
          cases TaskResult.jsonForm? p task.result with
          | error e => rfl
          | ok result =>
              dsimp only [Except.map]
              cases AuditEntry.jsonFormTrail p task.auditTrail <;> rfl

/-- Everything in the record is an ordinary value. -/
structure Ordinary (p : Pydantic) (task : TaskRecord) : Prop where
  input : p.Ordinary (.dict task.input)
  metadata : p.Ordinary (.dict task.metadata)
  result : ∀ r ∈ task.result, r.Ordinary p
  auditTrail : ∀ entry ∈ task.auditTrail, p.Ordinary (.dict entry.metadata)

/-- A record that can be written is one that JSON carries. -/
theorem serialisable_of_jsonForm {task form : TaskRecord} (htask : task.Ordinary p)
    (hform : task.jsonForm p = .ok form)
    (hwritten : refusal (.dict (form.dumpItems p (TaskResult.dumpValue p form.result))) = none) :
    form.Serialisable := by
  obtain ⟨input, hinput, hrest⟩ := Except.ok_of_bind hform
  obtain ⟨metadata, hmetadata, hrest⟩ := Except.ok_of_bind hrest
  obtain ⟨result, hresult, hrest⟩ := Except.ok_of_bind hrest
  obtain ⟨auditTrail, htrail, hdone⟩ := Except.ok_of_bind hrest
  cases hdone
  have hint {n : Int} (hn : refusal (.int n) = none) : n.natAbs < digitLimit := by
    by_contra hbig
    rw [refusal, if_pos (Nat.not_lt.mp hbig)] at hn
    cases hn
  rw [refusal, refusalItems_eq_none] at hwritten
  simp only [dumpItems, List.forall_mem_cons] at hwritten
  obtain ⟨-, -, -, hinput', hmetadata', -, hresult', hattempt, hretries, -, -, htrail', -⟩ :=
    hwritten
  constructor
  · exact Pydantic.faithful_of_jsonModeItems htask.input hinput hinput'
  · exact Pydantic.faithful_of_jsonModeItems htask.metadata hmetadata hmetadata'
  · intro r hr
    cases hr
    cases hold : task.result with
    | none =>
        rw [hold] at hresult
        cases hresult
    | some old =>
        rw [hold, TaskResult.jsonForm?] at hresult
        cases hform' : old.jsonForm p with
        | error e =>
            rw [hform'] at hresult
            cases hresult
        | ok form =>
            rw [hform'] at hresult
            cases hresult
            exact TaskResult.serialisable_of_jsonForm (htask.result old hold) hform' hresult'
  · exact hint hattempt
  · exact hint hretries
  · apply AuditEntry.faithful_of_jsonFormTrail htask.auditTrail htrail
    rw [refusal, refusalList_eq_none, List.forall_mem_map] at htrail'
    exact htrail'

/-- The form of a record that JSON carries is the record itself. -/
theorem jsonForm_eq {task : TaskRecord} (p : Pydantic) (htask : task.Serialisable) :
    task.jsonForm p = .ok task := by
  have hresult : TaskResult.jsonForm? p task.result = .ok task.result := by
    cases hr : task.result with
    | none => rfl
    | some r =>
        have hserialisable := htask.result r hr
        rw [TaskResult.jsonForm?, TaskResult.jsonForm,
          bind_of_ok (p.jsonMode_eq hserialisable.output),
          bind_of_ok (p.jsonModeItems_eq hserialisable.metadata)]
        rfl
  have htrail : AuditEntry.jsonFormTrail p task.auditTrail = .ok task.auditTrail := by
    have hentries := htask.auditTrail
    generalize task.auditTrail = trail at hentries
    unfold AuditEntry.jsonFormTrail
    induction trail with
    | nil => rfl
    | cons entry rest ih =>
        rw [List.forall_mem_cons] at hentries
        rw [List.mapM_cons, AuditEntry.jsonForm, bind_of_ok (p.jsonModeItems_eq hentries.1),
          ih hentries.2]
        rfl
  rw [jsonForm, bind_of_ok (p.jsonModeItems_eq htask.input),
    bind_of_ok (p.jsonModeItems_eq htask.metadata), bind_of_ok hresult, bind_of_ok htrail]
  rfl

/-- A record and its form have one dump. -/
theorem modelDump_form {task form : TaskRecord} (hform : task.jsonForm p = .ok form)
    (hserialisable : form.Serialisable) : task.modelDump p = form.modelDump p := by
  rw [modelDump_jsonForm, modelDump_jsonForm, hform, jsonForm_eq p hserialisable]

theorem taskId_jsonForm {task form : TaskRecord} (hform : task.jsonForm p = .ok form) :
    form.taskId = task.taskId := by
  obtain ⟨input, -, hrest⟩ := Except.ok_of_bind hform
  obtain ⟨metadata, -, hrest⟩ := Except.ok_of_bind hrest
  obtain ⟨result, -, hrest⟩ := Except.ok_of_bind hrest
  obtain ⟨auditTrail, -, hdone⟩ := Except.ok_of_bind hrest
  cases hdone
  rfl

end TaskRecord

end Conductor
