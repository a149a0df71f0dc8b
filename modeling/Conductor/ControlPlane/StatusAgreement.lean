/-
The two statuses of a workflow.  The orchestrator looks for failed records and
asks the validator; the control plane looks at all the records and knows no
verdict.  What follows says when they agree.
-/
import Conductor.ControlPlane.Workflows
import Conductor.Workflow.Gating

namespace Conductor

open Effects

namespace WorkflowOrchestrator

/-- The records that `run_submission` has returned, the last one first. -/
def answered (h : WorkflowTrace) : List TaskRecord :=
  h.filterMap fun e => match e with
    | ⟨.runSubmission _ _, .ok record⟩ => some record
    | _ => none

/-- The plans that the planner has returned. -/
def plans (h : WorkflowTrace) : List PlanResponse :=
  h.filterMap fun e => match e with
    | ⟨.plan _ _, .ok plan⟩ => some plan
    | _ => none

/-- The validator has passed the workflow. -/
def Passed (h : WorkflowTrace) : Prop :=
  ∃ goal context verdict, ⟨.validate goal context, .ok verdict⟩ ∈ h ∧ verdict.passed = true

/-- Both read the same out of these outcomes and this verdict: a failure among
failures only; a validated workflow that is completed; or one that is not
validated, of which some tasks are completed, the others have ended otherwise
and none has failed. -/
def Reconciled (records : List TaskRecord) (passed : Prop) : Prop :=
  ((∃ record ∈ records, record.status = .failed) ∧
      ∀ record ∈ records, record.status ∈ failedStatuses) ∨
    (passed ∧ ∀ record ∈ records, record.status = .completed) ∨
    (¬passed ∧ (∀ record ∈ records, record.status ≠ .failed) ∧
      (∀ record ∈ records, record.status ∉ activeStatuses) ∧
      (∃ record ∈ records, record.status = .completed) ∧
      ∃ record ∈ records, record.status ≠ .completed)

variable {goal : WorkflowGoal} {plan : PlanResponse} {rows : List (List Worked)}
  {h : WorkflowTrace} {result : WorkflowResult}

theorem answered_events (workflowId : String) (worked : List Worked) :
    answered (worked.flatMap (Worked.events workflowId)) = worked.map Worked.record := by
  induction worked with
  | nil => rfl
  | cons w worked ih => exact congrArg (w.record :: ·) ih

theorem answered_validations : answered (validations goal result) = [] := by
  rw [validations]
  cases result.verdict <;> rfl

/-- The records of a result are what the supervisor returned. -/
theorem RecordsLaw.answered (hlaw : RecordsLaw goal plan rows h result) :
    (answered h).Perm result.records := by
  refine (hlaw.calls.filterMap _).trans (.of_eq ?_)
  rw [List.filterMap_cons, List.filterMap_append]
  change WorkflowOrchestrator.answered _ ++ WorkflowOrchestrator.answered _ = _
  rw [answered_events, answered_validations, List.append_nil, hlaw.records]

theorem RecordsLaw.records_ne_nil (hlaw : RecordsLaw goal plan rows h result)
    (hsteps : plan.steps ≠ []) : result.records ≠ [] := by
  intro hrecords
  rw [hlaw.records, List.map_eq_nil_iff] at hrecords
  have hlength := hlaw.account.goesOn fun w hw => by simp [hrecords] at hw
  have hbatches := hlaw.account.steps
  rw [hlength, List.take_length] at hbatches
  apply hsteps
  rw [← flatten_stepBatches plan.steps, ← hbatches, ← List.map_flatten, hrecords]
  rfl

/-- The verdict of a result is the validator's answer. -/
theorem RecordsLaw.passed_iff (hlaw : RecordsLaw goal plan rows h result) :
    Passed h ↔ ∃ verdict, result.verdict = some verdict ∧ verdict.passed = true := by
  constructor
  · rintro ⟨request, context, verdict, hmem, hpassed⟩
    obtain ⟨_, heq, hsome⟩ := hlaw.verdict_of_mem hmem
    cases heq
    exact ⟨verdict, hsome, hpassed⟩
  · rintro ⟨verdict, hverdict, hpassed⟩
    exact ⟨_, _, verdict, hlaw.mem_of_verdict hverdict, hpassed⟩

/-- The status of a result without failed records is the validator's. -/
theorem Concluded.status_of_not_failed (hconcluded : Concluded rows result)
    (hlaw : RecordsLaw goal plan rows h result)
    (hfailed : ∀ record ∈ result.records, record.status ≠ .failed) :
    (Passed h → result.status = .completed) ∧ (¬Passed h → result.status = .partially) := by
  rw [hlaw.records, List.forall_mem_map] at hfailed
  obtain ⟨verdict, hverdict, hstatus⟩ := hconcluded.validated hfailed
  rw [hlaw.passed_iff, hverdict, hstatus]
  cases hpassed : verdict.passed with
  | true => exact ⟨fun _ => rfl, fun hnot => absurd ⟨verdict, rfl, hpassed⟩ hnot⟩
  | false =>
      refine ⟨?_, fun _ => rfl⟩
      rintro ⟨_, heq, hpass⟩
      cases heq
      rw [hpassed] at hpass
      cases hpass

theorem Concluded.status_of_failed (hconcluded : Concluded rows result)
    (hlaw : RecordsLaw goal plan rows h result) {record : TaskRecord}
    (hrecord : record ∈ result.records) (hfailed : record.status = .failed) :
    result.status = .failed := by
  rw [hlaw.records] at hrecord
  obtain ⟨w, hw, rfl⟩ := List.mem_map.mp hrecord
  exact (hconcluded.failed ⟨w, hw, hfailed⟩).1

theorem Concluded.agree_iff_reconciled (hconcluded : Concluded rows result)
    (hlaw : RecordsLaw goal plan rows h result) (hsteps : plan.steps ≠ []) :
    workflowStatus result.records = result.status ↔ Reconciled result.records (Passed h) := by
  have hrecords := hlaw.records_ne_nil hsteps
  obtain ⟨first, hfirst⟩ := List.exists_mem_of_ne_nil _ hrecords
  by_cases hfailed : ∃ record ∈ result.records, record.status = .failed
  · obtain ⟨record, hrecord, hstatus⟩ := hfailed
    rw [hconcluded.status_of_failed hlaw hrecord hstatus, workflowStatus_eq_failed hrecords]
    constructor
    · exact fun hall => .inl ⟨⟨record, hrecord, hstatus⟩, hall⟩
    · rintro (⟨-, hall⟩ | ⟨-, hcompleted⟩ | ⟨-, hnone, -⟩)
      · exact hall
      · cases (hcompleted record hrecord).symm.trans hstatus
      · exact absurd hstatus (hnone record hrecord)
  · push Not at hfailed
    have hstatus := hconcluded.status_of_not_failed hlaw hfailed
    by_cases hpassed : Passed h
    · rw [hstatus.1 hpassed, workflowStatus_eq_completed hrecords]
      constructor
      · exact fun hall => .inr (.inl ⟨hpassed, hall⟩)
      · rintro (⟨⟨record, hrecord, hfail⟩, -⟩ | ⟨-, hcompleted⟩ | ⟨hnot, -⟩)
        · exact absurd hfail (hfailed record hrecord)
        · exact hcompleted
        · exact absurd hpassed hnot
    · rw [hstatus.2 hpassed, workflowStatus_eq_partially hrecords]
      constructor
      · exact fun hmixed => .inr (.inr ⟨hpassed, hfailed, hmixed⟩)
      · rintro (⟨⟨record, hrecord, hfail⟩, -⟩ | ⟨hpass, -⟩ | ⟨-, -, hmixed⟩)
        · exact absurd hfail (hfailed record hrecord)
        · exact absurd hpass hpassed
        · exact hmixed

theorem Reconciled.of_perm {records records' : List TaskRecord} {passed : Prop}
    (hperm : records.Perm records') (hreconciled : Reconciled records passed) :
    Reconciled records' passed := by
  have hmem (record : TaskRecord) : record ∈ records ↔ record ∈ records' := hperm.mem_iff
  simpa only [Reconciled, hmem] using hreconciled

/-- Both routes answer with the derived status of these records. -/
theorem routes_status (isBadRequest : PyExc → Bool) {stored : List TaskRecord}
    (hstored : (stored.filter fun task => task.workflowId = some goal.workflowId).Perm
      result.records) (hrecords : result.records ≠ []) :
    (runWorkflow isBadRequest goal (.ok result)).map (·.status) =
        .ok (workflowStatus result.records).value ∧
      (getWorkflowTrace goal.workflowId stored).map (·.status) =
        .ok (workflowStatus result.records).value := by
  constructor
  · exact congrArg Except.ok (fromRecords_status (.refl _))
  · have hfound : (stored.filter fun task => task.workflowId = some goal.workflowId).isEmpty =
        false := by
      rw [hstored.isEmpty_eq]
      simpa using hrecords
    rw [getWorkflowTrace, if_neg (by rw [hfound]; decide)]
    exact congrArg Except.ok (fromRecords_status hstored)

/-- Both routes show the status of the run exactly if the outcomes of the tasks
and the verdict are reconciled. -/
theorem statuses_agree_iff {W : Type} (M : Machine W WorkflowCall WorkflowAnswer)
    (schedule : Nat → List Nat) (goal : WorkflowGoal) (start : W) (result : WorkflowResult)
    (k' : Config W WorkflowCall WorkflowAnswer) (stored : List TaskRecord)
    (isBadRequest : PyExc → Bool)
    (hrun : runWith M schedule goal start = (some (.ok result), k'))
    (hplanned : ∀ plan ∈ plans k'.history, plan.steps ≠ [])
    (hstored : (stored.filter fun task => task.workflowId = some goal.workflowId).Perm
      result.records) :
    ((runWorkflow isBadRequest goal (.ok result)).map (·.status) = .ok result.status.value ∧
        (getWorkflowTrace goal.workflowId stored).map (·.status) = .ok result.status.value) ↔
      Reconciled (answered k'.history) (Passed k'.history) := by
  obtain ⟨plan, rows, hlaw, hconcluded⟩ := runWith_returned hrun
  have hsteps : plan.steps ≠ [] := by
    have hmem : ⟨.plan goal.goal (plannerContext goal), .ok plan⟩ ∈ k'.history := by
      rw [hlaw.calls.mem_iff]
      exact List.mem_cons_self
    exact hplanned plan (List.mem_filterMap.mpr ⟨_, hmem, rfl⟩)
  obtain ⟨hpost, hget⟩ := routes_status isBadRequest hstored
    (hlaw.records_ne_nil hsteps)
  rw [hpost, hget, and_self]
  have hvalue : (Except.ok (workflowStatus result.records).value : Except ApiError String) =
      .ok result.status.value ↔ workflowStatus result.records = result.status := by
    rw [Except.ok.injEq]
    exact WorkflowStatus.value_injective.eq_iff
  rw [hvalue, hconcluded.agree_iff_reconciled hlaw hsteps]
  exact ⟨.of_perm hlaw.answered.symm, .of_perm hlaw.answered⟩

/-- The goal of `fanoutRun`. -/
def fanoutGoal : WorkflowGoal := ⟨"wf", "parallel batch failure", []⟩

/-- The run of the plan is failed, and its records make a partial workflow. -/
theorem fanout_derived :
    ∃ result k', fanoutRun = (some (.ok result), k') ∧
      workflowStatus result.records = .partially ∧ result.status = .failed ∧
      (∀ plan ∈ plans k'.history, plan.steps ≠ []) ∧
      (result.records.filter fun task => task.workflowId = some fanoutGoal.workflowId).Perm
        result.records := by
  obtain ⟨result, k', hrun⟩ := fanout_returns
  have hplanned : ∀ plan ∈ plans fanoutRun.2.history, plan.steps ≠ [] := by decide +kernel
  have hshown : (fanoutRun.1.bind Except.toOption).map (fun result =>
      (result.status, workflowStatus result.records,
        result.records.all (·.workflowId = some "wf"))) =
      some (.failed, .partially, true) := by decide +kernel
  rw [hrun] at hshown hplanned
  injection hshown with hshown
  injection hshown with hstatus hshown
  injection hshown with hderived hids
  have hfilter := List.filter_eq_self.mpr fun task htask => List.all_eq_true.mp hids task htask
  exact ⟨result, k', hrun, hderived, hstatus, hplanned, .of_eq hfilter⟩

/-- A workflow of which one task is completed and another failed: its run is
failed, and the routes show it as partial. -/
theorem fanout_shown_partial :
    ¬ ∀ (W : Type) (M : Machine W WorkflowCall WorkflowAnswer) (schedule : Nat → List Nat)
      (goal : WorkflowGoal) (start : W) (result : WorkflowResult)
      (k' : Config W WorkflowCall WorkflowAnswer) (stored : List TaskRecord)
      (isBadRequest : PyExc → Bool),
        runWith M schedule goal start = (some (.ok result), k') →
        (∀ plan ∈ plans k'.history, plan.steps ≠ []) →
        (stored.filter fun task => task.workflowId = some goal.workflowId).Perm
          result.records →
          (runWorkflow isBadRequest goal (.ok result)).map (·.status) =
              .ok result.status.value ∧
            (getWorkflowTrace goal.workflowId stored).map (·.status) =
              .ok result.status.value := by
  intro hclaim
  obtain ⟨result, k', hrun, hderived, hstatus, hplanned, hstored⟩ := fanout_derived
  have hagree := (hclaim _ _ _ _ _ result k' result.records (fun _ => false) hrun hplanned
    hstored).1
  change Except.ok (ControlPlaneWorkflowTraceV1.fromRecords _ result.records).status = _ at hagree
  rw [fromRecords_status (.refl _), hderived, hstatus] at hagree
  exact absurd (Except.ok.inj hagree) (by decide)

theorem statuses_agree_iff_fanout :
    ∃ result k', fanoutRun = (some (.ok result), k') ∧
      (((runWorkflow (fun _ => false) fanoutGoal (.ok result)).map (·.status) =
            .ok result.status.value ∧
          (getWorkflowTrace "wf" result.records).map (·.status) = .ok result.status.value) ↔
        Reconciled (answered k'.history) (Passed k'.history)) := by
  obtain ⟨result, k', hrun, -, -, hplanned, hstored⟩ := fanout_derived
  exact ⟨result, k', hrun, statuses_agree_iff _ _ _ _ result k' result.records _ hrun hplanned
    hstored⟩

end WorkflowOrchestrator

end Conductor
