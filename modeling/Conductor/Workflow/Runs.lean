/-
Whole runs of the orchestrator.  A run that returns has an account, whatever
the collaborators answer and however the threads are scheduled; and a run
returns if the collaborators do.
-/
import Conductor.Workflow.Orchestrator
import Conductor.Workflow.Agents

namespace Conductor

open Effects Block

namespace WorkflowOrchestrator

/-- The call of the validator, if there was one. -/
def validations (goal : WorkflowGoal) (result : WorkflowResult) : WorkflowTrace :=
  match result.verdict with
  | some verdict =>
      [⟨.validate goal.goal ⟨goal.workflowId, goal.goal, result.records⟩, .ok verdict⟩]
  | none => []

/-- The records of a run are those of its account, and the calls made are the
planner's, two for each step of the account, and the validator's. -/
structure RecordsLaw (goal : WorkflowGoal) (plan : PlanResponse) (rows : List (List Worked))
    (h : WorkflowTrace) (result : WorkflowResult) : Prop where
  account : Account 0 [] (stepBatches plan.steps) rows
  order : rows.flatten.map Worked.step <+: plan.steps
  records : result.records = rows.flatten.map Worked.record
  calls : h.Perm (⟨.plan goal.goal (plannerContext goal), .ok plan⟩ ::
    (rows.flatten.flatMap (Worked.events goal.workflowId) ++ validations goal result))

/-- How a run with this account ends. -/
structure Concluded (rows : List (List Worked)) (result : WorkflowResult) : Prop where
  failed : (∃ w ∈ rows.flatten, w.Failed) → result.status = .failed ∧ result.verdict = none
  validated : (∀ w ∈ rows.flatten, ¬w.Failed) → ∃ verdict, result.verdict = some verdict ∧
    result.status = if verdict.passed then .completed else .partially

theorem Account.order {position : Nat} {prior : List TaskRecord} {steps : List PlanStep}
    {rows : List (List Worked)} (haccount : Account position prior (stepBatches steps) rows) :
    rows.flatten.map Worked.step <+: steps := by
  rw [List.map_flatten, haccount.steps]
  refine ⟨((stepBatches steps).drop rows.length).flatten, ?_⟩
  rw [← List.flatten_append, List.take_append_drop, flatten_stepBatches]

theorem returned_run {schedule : Nat → List Nat} {goal : WorkflowGoal} {events : WorkflowTrace}
    {result : WorkflowResult} (hreturned : (run schedule goal).Returned () events result ()) :
    ∃ plan rows, RecordsLaw goal plan rows events result ∧ Concluded rows result := by
  obtain ⟨before, plan, _, after, rfl, hplan, hrest⟩ := returned_bind.mp hreturned
  obtain ⟨rfl, -⟩ := returned_perform.mp hplan
  obtain ⟨worked, ended, _, last, rfl, hbatches, hend⟩ := returned_bind.mp hrest
  obtain ⟨rows, haccount, hrecords, hstatus, hperm⟩ := returned_runBatches hbatches
  rw [List.nil_append] at hrecords
  by_cases hfailed : ended.2 = .failed
  · rw [if_pos hfailed] at hend
    obtain ⟨rfl, rfl, -⟩ := returned_pure.mp hend
    refine ⟨plan, rows, ⟨haccount, haccount.order, hrecords, ?_⟩, fun _ => ⟨hfailed, rfl⟩,
      fun hnone => ?_⟩
    · exact (hperm.append_right []).cons _
    · obtain ⟨w, hw, hf⟩ := hstatus.mp hfailed
      exact absurd hf (hnone w hw)
  · rw [if_neg hfailed] at hend
    obtain ⟨called, verdict, _, after, rfl, hvalidate, hpure⟩ := returned_bind.mp hend
    obtain ⟨rfl, -⟩ := returned_perform.mp hvalidate
    obtain ⟨rfl, rfl, -⟩ := returned_pure.mp hpure
    refine ⟨plan, rows, ⟨haccount, haccount.order, hrecords, ?_⟩, fun hrow => ?_,
      fun _ => ⟨verdict, rfl, rfl⟩⟩
    · exact (hperm.append_right _).cons _
    · exact absurd (hstatus.mpr hrow) hfailed

section Runs

variable {W : Type*}

/-- A run with collaborators `M`, from their state on: its outcome, unless a
thread has not come to its end, and what it leaves behind. -/
def runWith (M : Machine W WorkflowCall WorkflowAnswer) (schedule : Nat → List Nat)
    (goal : WorkflowGoal) (start : W) :
    Option (Except PyExc WorkflowResult) × Config W WorkflowCall WorkflowAnswer :=
  let ran := ((run schedule goal).run ()).exec M ⟨[], start⟩
  (ran.1.map Prod.fst, ran.2)

variable {M : Machine W WorkflowCall WorkflowAnswer} {schedule : Nat → List Nat}
  {goal : WorkflowGoal} {start : W}

theorem runWith_returned {result : WorkflowResult} {k' : Config W WorkflowCall WorkflowAnswer}
    (hrun : runWith M schedule goal start = (some (.ok result), k')) :
    ∃ plan rows, RecordsLaw goal plan rows k'.history result ∧ Concluded rows result := by
  rw [runWith] at hrun
  cases hexec : ((run schedule goal).run ()).exec M ⟨[], start⟩ with
  | mk ended k =>
      rw [hexec] at hrun
      cases ended with
      | none => cases hrun
      | some ended =>
          obtain ⟨outcome, _⟩ := ended
          cases hrun
          obtain ⟨events, hpath, hhistory⟩ := Prog.exec_path hexec
          obtain ⟨plan, rows, hlaw, hconcluded⟩ := returned_run hpath
          refine ⟨plan, rows, ⟨hlaw.account, hlaw.order, hlaw.records, ?_⟩, hconcluded⟩
          rw [hhistory, List.append_nil]
          exact events.reverse_perm.trans hlaw.calls

/-- Every thread of every batch of the plan has the turns it needs. -/
def Fair (schedule : Nat → List Nat) (plan : PlanResponse) : Prop :=
  ∀ j batch, (stepBatches plan.steps)[j]? = some batch →
    ∀ i < batch.length, 2 ≤ (schedule j).count i

/-- The collaborator has returned. -/
def Returns (c : WorkflowCall) (answer : WorkflowAnswer c) : Prop :=
  ∃ value, answer = .ok value

theorem runStep_ends {position : Nat} {step : PlanStep} {workflowId : String}
    {prior : List TaskRecord} {n : Nat} (hn : 2 ≤ n) :
    ((runStep position step workflowId prior).run ()).EndsWithin Returns
      (fun outcome => ∃ value, outcome.1 = .ok value) n := by
  obtain ⟨n, rfl⟩ := Nat.exists_eq_add_of_le' hn
  rintro _ ⟨response, rfl⟩ _ ⟨record, rfl⟩
  exact Prog.endsWithin_done.mpr ⟨record, rfl⟩

/-- A future runs a step of the batch. -/
theorem futures_getElem {workflowId : String} {prior : List TaskRecord} {position : Nat}
    {batch : List PlanStep} {i : Nat} {m : WorkflowBlock TaskRecord}
    (hm : (futures workflowId prior position batch)[i]? = some m) :
    i < batch.length ∧ ∃ position step, m = runStep position step workflowId prior := by
  induction batch generalizing position i with
  | nil => cases hm
  | cons step batch ih =>
      cases i with
      | zero =>
          cases hm
          exact ⟨Nat.succ_pos _, position, step, rfl⟩
      | succ i =>
          obtain ⟨hi, hstep⟩ := ih hm
          exact ⟨Nat.succ_lt_succ hi, hstep⟩

theorem wp_runStep {position : Nat} {step : PlanStep} {workflowId : String}
    {prior : List TaskRecord} :
    (runStep position step workflowId prior).wp (Prog.trusting Returns).totalLogic
      (fun outcome _ _ => ∃ record, outcome = .ok record) () () := by
  refine ⟨trivial, ?_⟩
  rintro _ ⟨response, rfl⟩
  refine ⟨trivial, ?_⟩
  rintro _ ⟨record, rfl⟩
  exact ⟨record, rfl⟩

theorem wp_runBatch {turns : List Nat} {workflowId : String} {position : Nat}
    {prior : List TaskRecord} {batch : List PlanStep}
    (hturns : ∀ i < batch.length, 2 ≤ turns.count i) :
    (runBatch turns position batch workflowId prior).wp (Prog.trusting Returns).totalLogic
      (fun outcome _ _ => ∃ records, outcome = .ok records) () () := by
  rw [runBatch.eq_def]
  split
  · rw [wp_bind]
    refine wp_mono (Prog.trusting _).totalLogic_monotone ?_ wp_runStep
    rintro _ _ _ ⟨record, rfl⟩
    exact ⟨[record], rfl⟩
  · refine wp_parallel fun i m hm => ?_
    obtain ⟨hi, position, step, rfl⟩ := futures_getElem hm
    exact runStep_ends (hturns i hi)

theorem wp_runBatches {workflowId : String} {index position : Nat} {prior : List TaskRecord}
    {batches : List (List PlanStep)}
    (hfair : ∀ j batch, batches[j]? = some batch →
      ∀ i < batch.length, 2 ≤ (schedule (index + j)).count i) :
    (runBatches schedule workflowId index position prior batches).wp
      (Prog.trusting Returns).totalLogic
      (fun outcome _ _ => ∃ ended, outcome = .ok ended) () () := by
  induction batches generalizing index position prior with
  | nil => exact ⟨_, rfl⟩
  | cons batch batches ih =>
      rw [runBatches, wp_bind]
      refine wp_mono (Prog.trusting _).totalLogic_monotone ?_ (wp_runBatch (hfair 0 batch rfl))
      rintro _ _ _ ⟨records, rfl⟩
      dsimp only
      split
      · exact ⟨_, rfl⟩
      · refine ih fun j later hlater i hi => ?_
        have hturns := hfair (j + 1) later hlater i hi
        rwa [← Nat.add_assoc, Nat.add_right_comm] at hturns

theorem wp_runPlan (goal : WorkflowGoal) {plan : PlanResponse} (hfair : Fair schedule plan) :
    (runPlan schedule goal plan).wp (Prog.trusting Returns).totalLogic
      (fun outcome _ _ => ∃ result, outcome = .ok result) () () := by
  rw [runPlan, wp_bind]
  refine wp_mono (Prog.trusting _).totalLogic_monotone ?_
    (wp_runBatches fun j batch hbatch i hi => ?_)
  · rintro _ _ _ ⟨ended, rfl⟩
    dsimp only
    split
    · exact ⟨_, rfl⟩
    · refine ⟨trivial, ?_⟩
      rintro _ ⟨verdict, rfl⟩
      exact ⟨_, rfl⟩
  · rw [Nat.zero_add]
    exact hfair j batch hbatch i hi

/-- With collaborators that return, and turns for every thread, a run
returns. -/
theorem runWith_returns (hreturn : ∀ h w c, Returns c (M.respond h w c).1)
    (hfair : ∀ plan, (M.respond [] start (.plan goal.goal (plannerContext goal))).1 = .ok plan →
      Fair schedule plan) :
    ∃ result k', runWith M schedule goal start = (some (.ok result), k') := by
  let first : WorkflowCall := .plan goal.goal (plannerContext goal)
  obtain ⟨plan, hplan⟩ := hreturn [] start first
  have hrest := Prog.wp_machine (M := M) (I := fun _ => True) (k := (M.step ⟨[], start⟩ first).2)
    (fun _ _ _ => trivial) (fun k c _ => hreturn k.history k.state c) trivial
    (wp_runPlan goal (hfair plan hplan))
  obtain ⟨⟨outcome, _⟩, k', hexec, ⟨result, rfl⟩, -⟩ := Machine.exec_of_wp hrest
  refine ⟨result, k', ?_⟩
  have hrun : ((run schedule goal).run ()).exec M ⟨[], start⟩ =
      ((runPlan schedule goal plan).run ()).exec M (M.step ⟨[], start⟩ first).2 := by
    change Prog.exec M (Prog.bind (.done ((M.respond [] start first).1, ())) _) _ = _
    rw [hplan]
    rfl
  rw [runWith, hrun, hexec]
  rfl

/-- The records of a workflow: one for each step of the batches up to the first
one with a failed record, in plan order; each step was worked once, with the
records of the earlier batches, and run under the goal's id.  With
collaborators that return there is such a result. -/
theorem records_law (M : Machine W WorkflowCall WorkflowAnswer) (schedule : Nat → List Nat)
    (goal : WorkflowGoal) (start : W) :
    (∀ result k', runWith M schedule goal start = (some (.ok result), k') →
      ∃ plan rows, RecordsLaw goal plan rows k'.history result) ∧
    ((∀ h w c, Returns c (M.respond h w c).1) →
      (∀ plan, (M.respond [] start (.plan goal.goal (plannerContext goal))).1 = .ok plan →
        Fair schedule plan) →
      ∃ result k', runWith M schedule goal start = (some (.ok result), k')) := by
  constructor
  · intro result k' hrun
    obtain ⟨plan, rows, hlaw, -⟩ := runWith_returned hrun
    exact ⟨plan, rows, hlaw⟩
  · exact runWith_returns

/-- A plan with a parallel batch, of which one step fails, and a step after it. -/
def fanoutPlan : List PlanStep :=
  [⟨"step-a", "echo", [], some "fanout"⟩, ⟨"step-b", "fail", [], some "fanout"⟩,
    ⟨"step-c", "echo", [], none⟩]

/-- Both threads of the first batch in turns. -/
def fanoutSchedule : Nat → List Nat
  | 0 => [1, 0, 0, 1]
  | _ => [0, 0]

theorem fanout_fair {rationale : String} : Fair fanoutSchedule ⟨fanoutPlan, rationale⟩ := by
  have hturns : ∀ i < 2, 2 ≤ (fanoutSchedule 0).count i := by decide
  have hturn : ∀ i < 1, 2 ≤ (fanoutSchedule 1).count i := by decide
  rintro (_ | _ | j) batch hbatch i hi
  · cases hbatch
    exact hturns i hi
  · cases hbatch
    exact hturn i hi
  · cases hbatch

/-- The workflow of the plan, on a supervisor whose tasks complete or fail. -/
def fanoutRun : Option (Except PyExc WorkflowResult) × Config Unit WorkflowCall WorkflowAnswer :=
  runWith (shipped fanoutPlan mixedOutcomes PassthroughValidator.validate) fanoutSchedule
    ⟨"wf", "parallel batch failure", []⟩ ()

theorem records_law_fanout :
    ∃ result k', fanoutRun = (some (.ok result), k') ∧
      ∃ plan rows, RecordsLaw ⟨"wf", "parallel batch failure", []⟩ plan rows k'.history result := by
  have hlaw := records_law (shipped fanoutPlan mixedOutcomes PassthroughValidator.validate)
    fanoutSchedule ⟨"wf", "parallel batch failure", []⟩ ()
  obtain ⟨result, k', hrun⟩ := hlaw.2
    (fun _ _ c => by cases c <;> exact ⟨_, rfl⟩)
    (fun _ hplan => by cases hplan; exact fanout_fair)
  exact ⟨result, k', hrun, hlaw.1 result k' hrun⟩

theorem fanout_returns : ∃ result k', fanoutRun = (some (.ok result), k') :=
  runWith_returns (fun _ _ c => by cases c <;> exact ⟨_, rfl⟩)
    fun _ hplan => by cases hplan; exact fanout_fair

end Runs

end WorkflowOrchestrator

end Conductor
