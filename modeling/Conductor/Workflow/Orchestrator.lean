/-
The workflow orchestrator: planner, then worker and supervisor for every step,
then validator.  The steps of a batch run in threads; the schedule of a batch
says which thread makes the next call.
-/
import Conductor.Effects.Parallel
import Conductor.Workflow.Contracts

namespace Conductor

open Effects Block

/-- One call of a collaborator.  `position` is the place of the step in the
plan; the source does not pass it on. -/
inductive WorkflowCall where
  | plan (goal : String) (context : PlannerContext)
  | work (position : Nat) (stepName : String) (context : WorkerContext)
  | runSubmission (position : Nat) (submission : TaskSubmission)
  | validate (goal : String) (context : ValidatorContext)

abbrev WorkflowResponse : WorkflowCall → Type
  | .plan _ _ => PlanResponse
  | .work _ _ _ => WorkerResponse
  | .runSubmission _ _ => TaskRecord
  | .validate _ _ => ValidationResponse

abbrev WorkflowAnswer := Reply WorkflowResponse PyExc

/-- The calls of a workflow, the newest first. -/
abbrev WorkflowTrace := History WorkflowCall WorkflowAnswer

abbrev WorkflowBlock := Block WorkflowCall WorkflowResponse PyExc Unit

namespace WorkflowOrchestrator

def request (c : WorkflowCall) : WorkflowBlock (WorkflowResponse c) := Block.perform c

def runStep (position : Nat) (step : PlanStep) (workflowId : String)
    (priorResults : List TaskRecord) : WorkflowBlock TaskRecord := do
  let response ← request (.work position step.name ⟨workflowId, step, priorResults⟩)
  request (.runSubmission position { response.submission with workflowId := some workflowId })

/-- The futures of a batch that begins at `position`. -/
def futures (workflowId : String) (priorResults : List TaskRecord) :
    Nat → List PlanStep → List (WorkflowBlock TaskRecord)
  | _, [] => []
  | position, step :: steps =>
      runStep position step workflowId priorResults ::
        futures workflowId priorResults (position + 1) steps

def runBatch (schedule : List Nat) (position : Nat) (batch : List PlanStep)
    (workflowId : String) (priorResults : List TaskRecord) :
    WorkflowBlock (List TaskRecord) :=
  match batch with
  | [step] => do
      let record ← runStep position step workflowId priorResults
      pure [record]
  | batch => parallel schedule (futures workflowId priorResults position batch)

/-- The loop over the batches, which breaks at a batch with a failed record. -/
def runBatches (schedule : Nat → List Nat) (workflowId : String) :
    Nat → Nat → List TaskRecord → List (List PlanStep) →
      WorkflowBlock (List TaskRecord × WorkflowStatus)
  | _, _, records, [] => pure (records, .running)
  | index, position, records, batch :: batches => do
      let batchRecords ← runBatch (schedule index) position batch workflowId records
      if batchRecords.any fun record => record.status = .failed then
        pure (records ++ batchRecords, .failed)
      else
        runBatches schedule workflowId (index + 1) (position + batch.length)
          (records ++ batchRecords) batches

/-- The planner's context. -/
def plannerContext (goal : WorkflowGoal) : PlannerContext :=
  ⟨goal.workflowId, goal.goal, goal.capabilities⟩

/-- `run` once the plan is there. -/
def runPlan (schedule : Nat → List Nat) (goal : WorkflowGoal) (plan : PlanResponse) :
    WorkflowBlock WorkflowResult := do
  let ended ← runBatches schedule goal.workflowId 0 0 [] (stepBatches plan.steps)
  if ended.2 = .failed then
    pure ⟨goal.workflowId, goal.goal, ended.2, ended.1, none⟩
  else do
    let validation ← request (.validate goal.goal ⟨goal.workflowId, goal.goal, ended.1⟩)
    pure ⟨goal.workflowId, goal.goal, if validation.passed then .completed else .partially,
      ended.1, some validation⟩

/-- `schedule j` is the order in which the threads of batch `j` make their
calls. -/
def run (schedule : Nat → List Nat) (goal : WorkflowGoal) : WorkflowBlock WorkflowResult := do
  let plan ← request (.plan goal.goal (plannerContext goal))
  runPlan schedule goal plan

/-- What happened to one step of the plan. -/
structure Worked where
  position : Nat
  step : PlanStep
  prior : List TaskRecord
  response : WorkerResponse
  record : TaskRecord

/-- The calls made for the step: the worker is handed the step with the results
before it, and the submission is run under the id of the workflow. -/
def Worked.events (workflowId : String) (w : Worked) : WorkflowTrace :=
  [⟨.work w.position w.step.name ⟨workflowId, w.step, w.prior⟩, .ok w.response⟩,
    ⟨.runSubmission w.position { w.response.submission with workflowId := some workflowId },
      .ok w.record⟩]

def Worked.Failed (w : Worked) : Prop := w.record.status = .failed

theorem returned_runStep {position : Nat} {step : PlanStep} {workflowId : String}
    {prior : List TaskRecord} {events : WorkflowTrace} {record : TaskRecord}
    (hreturned : (runStep position step workflowId prior).Returned () events record ()) :
    ∃ response, events = (Worked.mk position step prior response record).events workflowId := by
  obtain ⟨before, response, _, after, rfl, hwork, hrun⟩ := returned_bind.mp hreturned
  obtain ⟨rfl, -⟩ := returned_perform.mp hwork
  obtain ⟨rfl, -⟩ := returned_perform.mp hrun
  exact ⟨response, rfl⟩

/-- A batch that has been worked: a row of the account. -/
structure Row (workflowId : String) (position : Nat) (batch : List PlanStep)
    (prior : List TaskRecord) (row : List Worked) : Prop where
  steps : row.map Worked.step = batch
  positions : row.map Worked.position = List.range' position batch.length
  prior : ∀ w ∈ row, w.prior = prior

theorem returned_futures {workflowId : String} {prior : List TaskRecord} {position : Nat}
    {batch : List PlanStep} {pairs : List (WorkflowTrace × TaskRecord)}
    (hreturned : List.Forall₂ (fun (m : WorkflowBlock TaskRecord) pair =>
      m.Returned () pair.1 pair.2 ()) (futures workflowId prior position batch) pairs) :
    ∃ row, Row workflowId position batch prior row ∧ pairs.map Prod.snd = row.map Worked.record ∧
      pairs.flatMap Prod.fst = row.flatMap (Worked.events workflowId) := by
  induction batch generalizing position pairs with
  | nil =>
      cases hreturned
      exact ⟨[], ⟨rfl, rfl, by simp⟩, rfl, rfl⟩
  | cons step batch ih =>
      cases hreturned with
      | @cons _ pair _ pairs hhead htail =>
          obtain ⟨response, hevents⟩ := returned_runStep hhead
          obtain ⟨row, hrow, hrecords, hcalls⟩ := ih htail
          refine ⟨⟨position, step, prior, response, pair.2⟩ :: row, ⟨?_, ?_, ?_⟩, ?_, ?_⟩
          · exact congrArg (step :: ·) hrow.steps
          · rw [List.length_cons, List.range'_succ]
            exact congrArg (position :: ·) hrow.positions
          · exact List.forall_mem_cons.mpr ⟨rfl, hrow.prior⟩
          · exact congrArg (pair.2 :: ·) hrecords
          · rw [List.flatMap_cons, List.flatMap_cons, hevents, hcalls]

theorem returned_runBatch {schedule : List Nat} {position : Nat} {batch : List PlanStep}
    {workflowId : String} {prior : List TaskRecord} {events : WorkflowTrace}
    {records : List TaskRecord}
    (hreturned : (runBatch schedule position batch workflowId prior).Returned () events
      records ()) :
    ∃ row, Row workflowId position batch prior row ∧ records = row.map Worked.record ∧
      events.Perm (row.flatMap (Worked.events workflowId)) := by
  rw [runBatch.eq_def] at hreturned
  split at hreturned
  · rename_i step
    obtain ⟨before, record, _, after, rfl, hstep, hpure⟩ := returned_bind.mp hreturned
    obtain ⟨rfl, rfl, -⟩ := returned_pure.mp hpure
    obtain ⟨response, rfl⟩ := returned_runStep hstep
    exact ⟨[⟨position, step, prior, response, record⟩], ⟨rfl, rfl, by simp⟩, rfl, .refl _⟩
  · obtain ⟨-, pairs, hfutures, rfl, hperm⟩ := returned_parallel hreturned
    obtain ⟨row, hrow, hrecords, hcalls⟩ := returned_futures hfutures
    exact ⟨row, hrow, hrecords, hcalls ▸ hperm⟩

/-- The account of a run, a row for each batch that was worked: the batches
come in plan order, every step knows the records of the batches before its own,
and a batch with a failed record is the last one. -/
structure Account (position : Nat) (prior : List TaskRecord) (batches : List (List PlanStep))
    (rows : List (List Worked)) : Prop where
  steps : rows.map (·.map Worked.step) = batches.take rows.length
  positions : rows.flatten.map Worked.position = List.range' position rows.flatten.length
  prior : ∀ j row, rows[j]? = some row → ∀ w ∈ row,
    w.prior = prior ++ (rows.take j).flatten.map Worked.record
  stops : ∀ j row, rows[j]? = some row → (∃ w ∈ row, w.Failed) → j + 1 = rows.length
  goesOn : (∀ w ∈ rows.flatten, ¬w.Failed) → rows.length = batches.length

variable {workflowId : String} {position : Nat} {prior : List TaskRecord}
  {batch : List PlanStep} {batches : List (List PlanStep)} {row : List Worked}
  {rows : List (List Worked)}

theorem Row.length (hrow : Row workflowId position batch prior row) :
    row.length = batch.length := by
  rw [← hrow.steps, List.length_map]

/-- A batch with a failed record ends the account. -/
theorem Account.failed (hrow : Row workflowId position batch prior row)
    (hfailed : ∃ w ∈ row, w.Failed) : Account position prior (batch :: batches) [row] where
  steps := congrArg (· :: []) hrow.steps
  positions := by
    simpa [hrow.length] using hrow.positions
  prior := by
    rintro (_ | j) row' hrow' w hw
    · cases hrow'
      simpa using hrow.prior w hw
    · simp at hrow'
  stops := by
    rintro (_ | j) row' hrow' _
    · rfl
    · simp at hrow'
  goesOn := by
    intro hnone
    obtain ⟨w, hw, hfailed⟩ := hfailed
    exact absurd hfailed (hnone w (by simpa using hw))

/-- Any other batch is followed by the rest. -/
theorem Account.cons (hrow : Row workflowId position batch prior row)
    (hnone : ∀ w ∈ row, ¬w.Failed)
    (haccount : Account (position + batch.length) (prior ++ row.map Worked.record) batches rows) :
    Account position prior (batch :: batches) (row :: rows) where
  steps := by
    rw [List.map_cons, hrow.steps, haccount.steps]
    rfl
  positions := by
    rw [List.flatten_cons, List.map_append, hrow.positions, haccount.positions,
      List.length_append, ← hrow.length, List.range'_append_1]
  prior := by
    rintro (_ | j) row' hrow' w hw
    · cases hrow'
      simpa using hrow.prior w hw
    · rw [haccount.prior j row' hrow' w hw]
      simp
  stops := by
    rintro (_ | j) row' hrow' hfailed
    · cases hrow'
      obtain ⟨w, hw, hfailed⟩ := hfailed
      exact absurd hfailed (hnone w hw)
    · exact congrArg Nat.succ (haccount.stops j row' hrow' hfailed)
  goesOn := by
    intro hrest
    refine congrArg Nat.succ (haccount.goesOn fun w hw => hrest w ?_)
    rw [List.flatten_cons]
    exact List.mem_append_right _ hw

theorem any_failed {row : List Worked} :
    ((row.map Worked.record).any fun record => record.status = .failed) = true ↔
      ∃ w ∈ row, w.Failed := by
  simp [Worked.Failed]

theorem returned_runBatches {schedule : Nat → List Nat} {index : Nat} {events : WorkflowTrace}
    {ended : List TaskRecord × WorkflowStatus}
    (hreturned : (runBatches schedule workflowId index position prior batches).Returned ()
      events ended ()) :
    ∃ rows, Account position prior batches rows ∧
      ended.1 = prior ++ rows.flatten.map Worked.record ∧
      (ended.2 = .failed ↔ ∃ w ∈ rows.flatten, w.Failed) ∧
      events.Perm (rows.flatten.flatMap (Worked.events workflowId)) := by
  induction batches generalizing index position prior events with
  | nil =>
      obtain ⟨rfl, rfl, -⟩ := returned_pure.mp hreturned
      exact ⟨[], ⟨rfl, rfl, by simp, by simp, fun _ => rfl⟩, by simp, by simp, .refl _⟩
  | cons batch batches ih =>
      obtain ⟨before, records, _, after, rfl, hbatch, hrest⟩ := returned_bind.mp hreturned
      obtain ⟨row, hrow, rfl, hperm⟩ := returned_runBatch hbatch
      by_cases hfailed : ∃ w ∈ row, w.Failed
      · rw [if_pos (any_failed.mpr hfailed)] at hrest
        obtain ⟨rfl, rfl, -⟩ := returned_pure.mp hrest
        refine ⟨[row], .failed hrow hfailed, by simp, ?_, ?_⟩
        · simpa using hfailed
        · simpa using hperm
      · rw [if_neg (mt any_failed.mp hfailed)] at hrest
        obtain ⟨rows, haccount, hrecords, hstatus, hperms⟩ := ih hrest
        have hnone : ∀ w ∈ row, ¬w.Failed := fun w hw hf => hfailed ⟨w, hw, hf⟩
        refine ⟨row :: rows, .cons hrow hnone haccount, ?_, ?_, ?_⟩
        · rw [hrecords]
          simp
        · rw [hstatus, List.flatten_cons]
          constructor
          · rintro ⟨w, hw, hf⟩
            exact ⟨w, List.mem_append_right _ hw, hf⟩
          · rintro ⟨w, hw, hf⟩
            rcases List.mem_append.mp hw with hw | hw
            · exact absurd hf (hnone w hw)
            · exact ⟨w, hw, hf⟩
        · rw [List.flatten_cons, List.flatMap_append]
          exact hperm.append hperms

end WorkflowOrchestrator

end Conductor
