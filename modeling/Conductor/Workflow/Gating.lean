/-
The gate between the batches of a workflow.  The orchestrator looks for a
failed record only, so a record that is neither completed nor failed lets the
next batch and the validator through, unless a record of its batch has failed.
-/
import Conductor.Workflow.Runs

namespace Conductor

open Effects

namespace WorkflowOrchestrator

def Worked.Completed (w : Worked) : Prop := w.record.status = .completed

/-- A step was worked only after completed batches, the validator was called
only with completed records, and the workflow is completed only if its records
are and the validator has passed it. -/
structure Gated (rows : List (List Worked)) (h : WorkflowTrace) (result : WorkflowResult) :
    Prop where
  worked : ∀ (i j : Nat) earlier later, i < j → rows[i]? = some earlier → rows[j]? = some later →
    ∀ w ∈ earlier, ∀ w' ∈ later, w.Completed
  validated : ∀ goal context answer, ⟨.validate goal context, answer⟩ ∈ h →
    ∀ record ∈ result.records, record.status = .completed
  completed : result.status = .completed →
    (∀ record ∈ result.records, record.status = .completed) ∧
      ∃ verdict, result.verdict = some verdict ∧ verdict.passed = true

/-- Every batch that has not failed has completed. -/
def Classified (rows : List (List Worked)) : Prop :=
  ∀ row ∈ rows, (∃ w ∈ row, w.Failed) ∨ ∀ w ∈ row, w.Completed

variable {goal : WorkflowGoal} {plan : PlanResponse} {rows : List (List Worked)}
  {h : WorkflowTrace} {result : WorkflowResult}

theorem RecordsLaw.forall_records (hlaw : RecordsLaw goal plan rows h result)
    {P : TaskRecord → Prop} :
    (∀ record ∈ result.records, P record) ↔ ∀ row ∈ rows, ∀ w ∈ row, P w.record := by
  rw [hlaw.records]
  simp only [List.forall_mem_map, List.mem_flatten]
  constructor
  · intro hall row hrow w hw
    exact hall w ⟨row, hrow, hw⟩
  · rintro hall w ⟨row, hrow, hw⟩
    exact hall row hrow w hw

/-- What the validator answers is the verdict. -/
theorem RecordsLaw.verdict_of_mem (hlaw : RecordsLaw goal plan rows h result)
    {request : String} {context : ValidatorContext}
    {answer : WorkflowAnswer (.validate request context)}
    (hmem : ⟨.validate request context, answer⟩ ∈ h) :
    ∃ verdict, answer = .ok verdict ∧ result.verdict = some verdict := by
  rw [hlaw.calls.mem_iff] at hmem
  rcases List.mem_cons.mp hmem with heq | hmem
  · cases heq
  · rcases List.mem_append.mp hmem with hmem | hmem
    · obtain ⟨w, -, hw⟩ := List.mem_flatMap.mp hmem
      simp [Worked.events] at hw
    · cases hverdict : result.verdict with
      | none => simp [validations, hverdict] at hmem
      | some verdict =>
          simp only [validations, hverdict, List.mem_singleton] at hmem
          cases hmem
          exact ⟨verdict, rfl, rfl⟩

theorem RecordsLaw.mem_of_verdict (hlaw : RecordsLaw goal plan rows h result)
    {verdict : ValidationResponse} (hverdict : result.verdict = some verdict) :
    ⟨.validate goal.goal ⟨goal.workflowId, goal.goal, result.records⟩, .ok verdict⟩ ∈ h := by
  rw [hlaw.calls.mem_iff]
  refine List.mem_cons_of_mem _ (List.mem_append_right _ ?_)
  simp [validations, hverdict]

theorem Classified.gated (hlaw : RecordsLaw goal plan rows h result)
    (hconcluded : Concluded rows result) (hclassified : Classified rows) :
    Gated rows h result := by
  -- A verdict means that no record has failed.
  have hverdict (verdict : ValidationResponse) (hsome : result.verdict = some verdict) :
      ∀ record ∈ result.records, record.status = .completed := by
    rw [hlaw.forall_records]
    intro row hrow
    rcases hclassified row hrow with ⟨w, hw, hfailed⟩ | hcompleted
    · have hnone := (hconcluded.failed ⟨w, List.mem_flatten.mpr ⟨row, hrow, hw⟩, hfailed⟩).2
      rw [hnone] at hsome
      cases hsome
    · exact hcompleted
  constructor
  · intro i j earlier later hij hearlier hlater w hw _ _
    rcases hclassified earlier (List.mem_of_getElem? hearlier) with hfailed | hcompleted
    · have hlast := hlaw.account.stops i earlier hearlier hfailed
      obtain ⟨hj, -⟩ := List.getElem?_eq_some_iff.mp hlater
      omega
    · exact hcompleted w hw
  · intro request context answer hmem
    obtain ⟨verdict, -, hsome⟩ := hlaw.verdict_of_mem hmem
    exact hverdict verdict hsome
  · intro hstatus
    by_cases hfailed : ∃ w ∈ rows.flatten, w.Failed
    · rw [(hconcluded.failed hfailed).1] at hstatus
      cases hstatus
    · have hnone : ∀ w ∈ rows.flatten, ¬w.Failed := fun w hw hf => hfailed ⟨w, hw, hf⟩
      obtain ⟨verdict, hsome, hpassed⟩ := hconcluded.validated hnone
      refine ⟨hverdict verdict hsome, verdict, hsome, ?_⟩
      rw [hpassed] at hstatus
      by_cases hpass : verdict.passed = true
      · exact hpass
      · rw [if_neg hpass] at hstatus
        cases hstatus

theorem Gated.classified (hlaw : RecordsLaw goal plan rows h result)
    (hconcluded : Concluded rows result) (hgated : Gated rows h result) : Classified rows := by
  intro row hrow
  by_cases hfailed : ∃ w ∈ rows.flatten, w.Failed
  · obtain ⟨w, hw, hf⟩ := hfailed
    obtain ⟨last, hlast, hw⟩ := List.mem_flatten.mp hw
    obtain ⟨i, hi⟩ := List.mem_iff_getElem?.mp hrow
    obtain ⟨j, hj⟩ := List.mem_iff_getElem?.mp hlast
    have hend := hlaw.account.stops j last hj ⟨w, hw, hf⟩
    obtain ⟨hlength, -⟩ := List.getElem?_eq_some_iff.mp hi
    rcases Nat.lt_or_eq_of_le (Nat.le_of_lt_succ (hend ▸ hlength)) with hij | rfl
    · exact .inr fun v hv => hgated.worked i j row last hij hi hj v hv w hw
    · cases hi.symm.trans hj
      exact .inl ⟨w, hw, hf⟩
  · have hnone : ∀ w ∈ rows.flatten, ¬w.Failed := fun w hw hf => hfailed ⟨w, hw, hf⟩
    obtain ⟨verdict, hsome, -⟩ := hconcluded.validated hnone
    have hall := hgated.validated _ _ _ (hlaw.mem_of_verdict hsome)
    exact .inr (hlaw.forall_records.mp hall row hrow)

/-- A run is gated exactly if each of its batches that has no failed record has
only completed ones. -/
theorem gated_iff_classified {W : Type} (M : Machine W WorkflowCall WorkflowAnswer)
    (schedule : Nat → List Nat) (goal : WorkflowGoal) (start : W) (result : WorkflowResult)
    (k' : Config W WorkflowCall WorkflowAnswer)
    (hrun : runWith M schedule goal start = (some (.ok result), k')) :
    ∃ plan rows, RecordsLaw goal plan rows k'.history result ∧
      (Gated rows k'.history result ↔ Classified rows) := by
  obtain ⟨plan, rows, hlaw, hconcluded⟩ := runWith_returned hrun
  exact ⟨plan, rows, hlaw, fun hgated => hgated.classified hlaw hconcluded,
    fun hclassified => hclassified.gated hlaw hconcluded⟩

/-- Two steps, the first for a capability that the policy does not allow. -/
def deniedPlan : List PlanStep :=
  [⟨"remove", "shell", [], none⟩, ⟨"report", "echo", [], none⟩]

/-- The plan on a task supervisor with the default-deny policy engine. -/
def deniedRun : Option (Except PyExc WorkflowResult) × Config State WorkflowCall WorkflowAnswer :=
  runWith (shipped deniedPlan
      ({ Supervisor.unconfigured ["shell", "echo"] with
        policyName := "DenyByDefaultPolicy" }.supervise
          (Env.returning.withPolicy ⟨["echo"]⟩) 1)
      PassthroughValidator.validate)
    (fun _ => []) ⟨"wf", "remove and report", []⟩ (.initial (.inMemory []))

/-- A step that was denied lets the next one run, and the workflow is
completed. -/
theorem denied_step_passes :
    ¬ ∀ (W : Type) (M : Machine W WorkflowCall WorkflowAnswer) (schedule : Nat → List Nat)
      (goal : WorkflowGoal) (start : W) (result : WorkflowResult)
      (k' : Config W WorkflowCall WorkflowAnswer),
        runWith M schedule goal start = (some (.ok result), k') →
          ∃ plan rows, RecordsLaw goal plan rows k'.history result ∧
            Gated rows k'.history result := by
  intro hclaim
  have hshown : (deniedRun.1.bind Except.toOption).map (fun result =>
      (result.status, result.records.map (·.status))) =
        some (.completed, [.policyDenied, .completed]) := by decide +kernel
  cases hrun : deniedRun with
  | mk outcome k' =>
      rw [hrun] at hshown
      cases outcome with
      | none => cases hshown
      | some outcome =>
          cases outcome with
          | error e => cases hshown
          | ok result =>
              obtain ⟨hstatus, hstatuses⟩ := Prod.mk.inj (Option.some.inj hshown)
              obtain ⟨plan, rows, -, hgated⟩ := hclaim _ _ _ _ _ result k' hrun
              have hcompleted := (hgated.completed hstatus).1
              have hdenied : TaskStatus.policyDenied ∈ result.records.map (·.status) := by
                rw [hstatuses]
                exact List.mem_cons_self
              obtain ⟨record, hrecord, hdenied⟩ := List.mem_map.mp hdenied
              rw [hcompleted record hrecord] at hdenied
              cases hdenied

theorem gated_iff_classified_fanout :
    ∃ result k', fanoutRun = (some (.ok result), k') ∧ ∃ plan rows,
      RecordsLaw ⟨"wf", "parallel batch failure", []⟩ plan rows k'.history result ∧
        (Gated rows k'.history result ↔ Classified rows) := by
  obtain ⟨result, k', hrun⟩ := fanout_returns
  exact ⟨result, k', hrun, gated_iff_classified _ _ _ _ result k' hrun⟩

end WorkflowOrchestrator

end Conductor
