/-
The batches of a plan.  The two loops of `_step_batches` move one cursor over
the plan.  They end, with the only division of the plan into longest runs of
adjacent steps of one parallel group.
-/
import Mathlib.Data.List.SplitBy
import Conductor.Workflow.Contracts

namespace Conductor

/-- The inner `while`: the batch grows and the cursor goes on as long as the
steps are of the group.  `none` means that the fuel ran out. -/
def growBatch (steps : List PlanStep) (groupName : String) :
    Nat → Nat → List PlanStep → Option (Nat × List PlanStep)
  | 0, _, _ => none
  | fuel + 1, index, batch =>
      match steps[index]? with
      | some step =>
          if step.parallelGroup = some groupName then
            growBatch steps groupName fuel (index + 1) (batch ++ [step])
          else some (index, batch)
      | none => some (index, batch)

/-- The outer `while`, from the cursor `index` on with the batches so far. -/
def growBatches (steps : List PlanStep) :
    Nat → Nat → List (List PlanStep) → Option (List (List PlanStep))
  | 0, _, _ => none
  | fuel + 1, index, batches =>
      match steps[index]? with
      | none => some batches
      | some step =>
          match step.parallelGroup with
          | none => growBatches steps fuel (index + 1) (batches ++ [[step]])
          | some groupName =>
              match growBatch steps groupName fuel (index + 1) [step] with
              | none => none
              | some (index, batch) => growBatches steps fuel index (batches ++ [batch])

/-- Steps that go into one batch when they follow one another. -/
def PlanStep.sameGroup (step step' : PlanStep) : Bool :=
  step.parallelGroup.isSome && step.parallelGroup == step'.parallelGroup

/-- A step without a group by itself, or steps of one group. -/
def IsRun (batch : List PlanStep) : Prop :=
  (∃ step, batch = [step] ∧ step.parallelGroup = none) ∨
    batch ≠ [] ∧ ∃ groupName, ∀ step ∈ batch, step.parallelGroup = some groupName

/-- The plan, divided into runs of which no two adjacent ones are of one group. -/
structure MaximalRuns (steps : List PlanStep) (batches : List (List PlanStep)) : Prop where
  flatten : batches.flatten = steps
  runs : ∀ batch ∈ batches, IsRun batch
  maximal : batches.IsChain fun batch next =>
    ∀ step ∈ batch, ∀ step' ∈ next, step.parallelGroup = step'.parallelGroup →
      step.parallelGroup = none

open PlanStep

theorem sameGroup_eq_true {step step' : PlanStep} :
    sameGroup step step' = true ↔
      ∃ groupName, step.parallelGroup = some groupName ∧ step'.parallelGroup = some groupName := by
  cases hgroup : step.parallelGroup with
  | none => simp [sameGroup, hgroup]
  | some groupName =>
      simp only [sameGroup, hgroup, Option.isSome_some, Bool.true_and, beq_iff_eq,
        Option.some.injEq, exists_eq_left']
      exact eq_comm

theorem sameGroup_eq_false {step step' : PlanStep} :
    sameGroup step step' = false ↔
      (step.parallelGroup = step'.parallelGroup → step.parallelGroup = none) := by
  cases hgroup : step.parallelGroup with
  | none => simp [sameGroup, hgroup]
  | some groupName => simp [sameGroup, hgroup]

/-- Steps that follow one another in a group are all of the group of the first. -/
theorem group_of_isChain {groupName : String} {step : PlanStep} {rest : List PlanStep}
    (hchain : (step :: rest).IsChain fun a b => sameGroup a b)
    (hgroup : step.parallelGroup = some groupName) :
    ∀ other ∈ step :: rest, other.parallelGroup = some groupName := by
  induction rest generalizing step with
  | nil => simpa using hgroup
  | cons next rest ih =>
      obtain ⟨hsame, hrest⟩ := List.isChain_cons_cons.mp hchain
      obtain ⟨name, hname, hnext⟩ := sameGroup_eq_true.mp hsame
      rw [hgroup] at hname
      rw [← hname] at hnext
      rw [List.forall_mem_cons]
      exact ⟨hgroup, ih hrest hnext⟩

theorem isChain_of_group {groupName : String} {batch : List PlanStep}
    (hgroup : ∀ step ∈ batch, step.parallelGroup = some groupName) :
    batch.IsChain fun a b => sameGroup a b := by
  induction batch with
  | nil => exact .nil
  | cons step rest ih =>
      rw [List.forall_mem_cons] at hgroup
      cases rest with
      | nil => exact .singleton step
      | cons next rest =>
          have hnext := hgroup.2 next List.mem_cons_self
          apply List.isChain_cons_cons.mpr
          exact ⟨sameGroup_eq_true.mpr ⟨groupName, hgroup.1, hnext⟩, ih hgroup.2⟩

theorem isRun_iff {batch : List PlanStep} :
    IsRun batch ↔ batch ≠ [] ∧ batch.IsChain fun a b => sameGroup a b := by
  constructor
  · intro hrun
    rcases hrun with ⟨step, hstep, -⟩ | ⟨hne, groupName, hgroup⟩
    · rw [hstep]
      exact ⟨List.cons_ne_nil step [], .singleton step⟩
    · exact ⟨hne, isChain_of_group hgroup⟩
  · intro hchain
    obtain ⟨hne, hchain⟩ := hchain
    obtain ⟨step, rest, rfl⟩ := List.exists_cons_of_ne_nil hne
    cases hgroup : step.parallelGroup with
    | some groupName => exact .inr ⟨hne, groupName, group_of_isChain hchain hgroup⟩
    | none =>
        cases rest with
        | nil => exact .inl ⟨step, rfl, hgroup⟩
        | cons next rest =>
            obtain ⟨groupName, hname, -⟩ :=
              sameGroup_eq_true.mp (List.isChain_cons_cons.mp hchain).1
            rw [hgroup] at hname
            cases hname

/-- The steps of a run have one label. -/
theorem IsRun.alike {batch : List PlanStep} (hrun : IsRun batch) {step step' : PlanStep}
    (hstep : step ∈ batch) (hstep' : step' ∈ batch) :
    step.parallelGroup = step'.parallelGroup := by
  rcases hrun with ⟨only, rfl, -⟩ | ⟨-, groupName, hgroup⟩
  · rw [List.mem_singleton.mp hstep, List.mem_singleton.mp hstep']
  · rw [hgroup step hstep, hgroup step' hstep']

/-- Maximal runs are what a division of the plan between steps that do not go
together leaves. -/
theorem maximalRuns_iff {steps : List PlanStep} {batches : List (List PlanStep)} :
    MaximalRuns steps batches ↔ steps.splitBy sameGroup = batches := by
  rw [List.splitBy_eq_iff]
  constructor
  · intro hmaximal
    have hrun (batch : List PlanStep) (hbatch : batch ∈ batches) :=
      isRun_iff.mp (hmaximal.runs batch hbatch)
    refine ⟨hmaximal.flatten.symm, fun hnil => (hrun [] hnil).1 rfl,
      fun batch hbatch => (hrun batch hbatch).2, ?_⟩
    apply hmaximal.maximal.imp_of_mem_imp
    intro batch next hbatch hnext hapart
    have hlast := List.getLast_mem (hrun batch hbatch).1
    have hhead := List.head_mem (hrun next hnext).1
    exact ⟨_, _, sameGroup_eq_false.mpr (hapart _ hlast _ hhead)⟩
  · intro hsplit
    obtain ⟨hflatten, hnil, hchain, hadjacent⟩ := hsplit
    have hruns : ∀ batch ∈ batches, IsRun batch := by
      intro batch hbatch
      apply isRun_iff.mpr
      exact ⟨fun hempty => hnil (hempty ▸ hbatch), hchain batch hbatch⟩
    refine ⟨hflatten.symm, hruns, ?_⟩
    apply hadjacent.imp_of_mem_imp
    intro batch next hbatch hnext hapart step hstep step' hstep' hgroup
    obtain ⟨hne, hne', hdiffer⟩ := hapart
    rw [(hruns batch hbatch).alike hstep (List.getLast_mem hne)] at hgroup ⊢
    rw [(hruns next hnext).alike hstep' (List.head_mem hne')] at hgroup
    exact sameGroup_eq_false.mp hdiffer hgroup

/-- The steps that join a batch are of its group, and the next one is not. -/
theorem collectGroup_group {groupName : String} {batch : List PlanStep} (steps : List PlanStep)
    (hbatch : ∀ step ∈ batch, step.parallelGroup = some groupName) :
    (∀ step ∈ (collectGroup groupName batch steps).1, step.parallelGroup = some groupName) ∧
      ∀ step ∈ (collectGroup groupName batch steps).2.head?,
        step.parallelGroup ≠ some groupName := by
  induction steps generalizing batch with
  | nil => exact ⟨hbatch, by simp [collectGroup]⟩
  | cons step rest ih =>
      rw [collectGroup]
      by_cases hgroup : step.parallelGroup = some groupName
      · rw [if_pos hgroup]
        apply ih
        rw [List.forall_mem_append, List.forall_mem_singleton]
        exact ⟨hbatch, hgroup⟩
      · rw [if_neg hgroup]
        exact ⟨hbatch, by simpa using hgroup⟩

/-- A step without a group is a batch. -/
theorem splitBy_of_none {step : PlanStep} (hgroup : step.parallelGroup = none)
    (rest : List PlanStep) :
    (step :: rest).splitBy sameGroup = [step] :: rest.splitBy sameGroup := by
  have hlast : ∀ last ∈ [step].getLast?, ∀ next ∈ rest.head?, sameGroup last next = false := by
    intro last hlast next _
    cases hlast
    exact sameGroup_eq_false.mpr fun _ => hgroup
  exact List.splitBy_append hlast

/-- A step of a group starts a batch that takes in the steps after it. -/
theorem splitBy_of_some {step : PlanStep} {groupName : String}
    (hgroup : step.parallelGroup = some groupName) (rest : List PlanStep) :
    (step :: rest).splitBy sameGroup = (collectGroup groupName [step] rest).1 ::
      (collectGroup groupName [step] rest).2.splitBy sameGroup := by
  have hsplit : (collectGroup groupName [step] rest).1 ++ (collectGroup groupName [step] rest).2 =
      step :: rest := collectGroup_append groupName [step] rest
  have hfirst : ∀ first ∈ [step], first.parallelGroup = some groupName :=
    List.forall_mem_singleton.mpr hgroup
  obtain ⟨hbatch, hnext⟩ := collectGroup_group rest hfirst
  generalize collectGroup groupName [step] rest = collected at hsplit hbatch hnext ⊢
  have hne : collected.1 ≠ [] := by
    intro hempty
    rw [hempty, List.nil_append] at hsplit
    rw [hsplit] at hnext
    exact hnext step rfl hgroup
  have hapart : ∀ last ∈ collected.1.getLast?, ∀ next ∈ collected.2.head?,
      sameGroup last next = false := by
    intro last hlast next hhead
    have hlabel := hbatch last (List.mem_of_getLast? hlast)
    apply sameGroup_eq_false.mpr
    intro hsame
    exact absurd (hsame.symm.trans hlabel) (hnext next hhead)
  rw [← hsplit, List.splitBy_append hapart,
    List.splitBy_of_isChain hne (isChain_of_group hbatch)]
  rfl

/-- The batches of the plan, by what is left of it. -/
theorem stepBatchesLoop_eq {fuel : Nat} {steps : List PlanStep} (hfuel : steps.length ≤ fuel) :
    stepBatchesLoop fuel steps = steps.splitBy sameGroup := by
  induction fuel generalizing steps with
  | zero =>
      rw [List.length_eq_zero_iff.mp (Nat.le_zero.mp hfuel)]
      rfl
  | succ fuel ih =>
      cases steps with
      | nil => rfl
      | cons step rest =>
          have hrest : rest.length ≤ fuel := Nat.le_of_succ_le_succ hfuel
          rw [stepBatchesLoop]
          cases hgroup : step.parallelGroup with
          | none => rw [splitBy_of_none hgroup, ← ih hrest]
          | some groupName =>
              have hlength := length_collectGroup_le groupName [step] rest
              rw [splitBy_of_some hgroup, ← ih (hlength.trans hrest)]

theorem stepBatches_eq (steps : List PlanStep) : stepBatches steps = steps.splitBy sameGroup :=
  stepBatchesLoop_eq (Nat.le_refl _)

variable {steps : List PlanStep}

/-- The step at the cursor, and the steps after it. -/
theorem drop_of_getElem? {index : Nat} {step : PlanStep} (hstep : steps[index]? = some step) :
    steps.drop index = step :: steps.drop (index + 1) := by
  obtain ⟨hindex, hget⟩ := List.getElem?_eq_some_iff.mp hstep
  rw [List.drop_eq_getElem_cons hindex, hget]

/-- The inner loop ends where the steps from the cursor on leave the group. -/
theorem growBatch_eq {groupName : String} {fuel index : Nat} {batch : List PlanStep}
    (hfuel : (steps.drop index).length < fuel) :
    ∃ next, growBatch steps groupName fuel index batch =
        some (next, (collectGroup groupName batch (steps.drop index)).1) ∧
      steps.drop next = (collectGroup groupName batch (steps.drop index)).2 := by
  induction fuel generalizing index batch with
  | zero => exact absurd hfuel (Nat.not_lt_zero _)
  | succ fuel ih =>
      rw [growBatch]
      cases hstep : steps[index]? with
      | none =>
          have hend : steps.drop index = [] :=
            List.drop_eq_nil_of_le (List.getElem?_eq_none_iff.mp hstep)
          rw [hend]
          exact ⟨index, rfl, hend⟩
      | some step =>
          have hdrop := drop_of_getElem? hstep
          rw [hdrop, List.length_cons] at hfuel
          rw [hdrop, collectGroup]
          by_cases hgroup : step.parallelGroup = some groupName
          · rw [if_pos hgroup]
            simpa only [if_pos hgroup] using ih (Nat.lt_of_succ_lt_succ hfuel)
          · rw [if_neg hgroup]
            exact ⟨index, by simp only [if_neg hgroup], hdrop⟩

/-- The outer loop ends with the batches of the steps from the cursor on. -/
theorem growBatches_eq {fuel index : Nat} {batches : List (List PlanStep)}
    (hfuel : (steps.drop index).length < fuel) :
    growBatches steps fuel index batches =
      some (batches ++ (steps.drop index).splitBy sameGroup) := by
  induction fuel generalizing index batches with
  | zero => exact absurd hfuel (Nat.not_lt_zero _)
  | succ fuel ih =>
      rw [growBatches]
      cases hstep : steps[index]? with
      | none =>
          have hend : steps.drop index = [] :=
            List.drop_eq_nil_of_le (List.getElem?_eq_none_iff.mp hstep)
          rw [hend, List.splitBy_nil, List.append_nil]
      | some step =>
          have hdrop := drop_of_getElem? hstep
          rw [hdrop, List.length_cons] at hfuel
          have hrest := Nat.lt_of_succ_lt_succ hfuel
          dsimp only
          rw [hdrop]
          cases hgroup : step.parallelGroup with
          | none =>
              dsimp only
              rw [ih hrest, splitBy_of_none hgroup, List.append_assoc]
              rfl
          | some groupName =>
              have hgrow : ∃ next, growBatch steps groupName fuel (index + 1) [step] =
                  some (next, (collectGroup groupName [step] (steps.drop (index + 1))).1) ∧
                    steps.drop next =
                      (collectGroup groupName [step] (steps.drop (index + 1))).2 :=
                growBatch_eq hrest
              obtain ⟨next, hgrown, hnext⟩ := hgrow
              have hlength := length_collectGroup_le groupName [step] (steps.drop (index + 1))
              rw [← hnext] at hlength
              dsimp only
              rw [hgrown]
              dsimp only
              rw [ih (hlength.trans_lt hrest), splitBy_of_some hgroup, ← hnext, List.append_assoc]
              rfl

/-- Batching is a faithful maximal grouping.  The loops end for every plan, with
its batches; these are maximal runs of the plan, and there are no others. -/
theorem batches_maximal_runs (steps : List PlanStep) :
    (∀ fuel, steps.length < fuel → growBatches steps fuel 0 [] = some (stepBatches steps)) ∧
      MaximalRuns steps (stepBatches steps) ∧
      ∀ batches, MaximalRuns steps batches → batches = stepBatches steps := by
  have hbatches := stepBatches_eq steps
  refine ⟨?_, maximalRuns_iff.mpr hbatches.symm, ?_⟩
  · intro fuel hfuel
    rw [hbatches]
    have hloops : growBatches steps fuel 0 [] = some ([] ++ (steps.drop 0).splitBy sameGroup) :=
      growBatches_eq hfuel
    exact hloops
  · intro batches hmaximal
    rw [hbatches]
    exact (maximalRuns_iff.mp hmaximal).symm

end Conductor
