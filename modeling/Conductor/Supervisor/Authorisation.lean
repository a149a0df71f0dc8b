/-
Who may execute.  At every call of `capability.execute` in a sequential run the
`run_task` call it belongs to was authorised, by the policy engine or by an
approval, and a task is put into `RUNNING` at most once.
-/
import Conductor.Supervisor.Sequential

namespace Conductor

open Effects

/-- The history so far is `before`, then the entry of `run_task`, then `during`,
in which no other method was entered and no operation ended. -/
structure InRunTask (h : Trace) (taskId : TaskId) (during before : Trace) : Prop where
  split : ∃ answer, h = during ++ ⟨.runTaskEntered taskId, answer⟩ :: before
  same : ∀ e ∈ during, e.call.isMark = false

theorem InRunTask.cons {h during before : Trace} {taskId : TaskId} {e : Event Call Answer}
    (hin : InRunTask h taskId during before) (hmark : e.call.isMark = false) :
    InRunTask (e :: h) taskId (e :: during) before := by
  obtain ⟨⟨answer, rfl⟩, hsame⟩ := hin
  refine ⟨⟨answer, rfl⟩, ?_⟩
  intro e' he'
  rcases List.mem_cons.mp he' with rfl | he'
  · exact hmark
  · exact hsame e' he'

theorem InRunTask.mem {h during before : Trace} {taskId : TaskId} {e : Event Call Answer}
    (hin : InRunTask h taskId during before) (hmem : e ∈ during) : e ∈ h := by
  obtain ⟨⟨answer, rfl⟩, -⟩ := hin
  exact List.mem_append_left _ hmem

/-- The desk of a `run_task` call read back from its history. -/
structure Witnessed (d : Desk) (h during before : Trace) : Prop where
  untouched : d.untouched = true → ∀ taskId, stored h taskId = stored before taskId
  entry : ∀ r, d.entry = some r → stored before r.taskId = some r
  descriptors : ∀ item ∈ d.descriptors,
    (⟨.descriptor item.1, .ok item.2⟩ : Event Call Answer) ∈ during
  verdicts : ∀ verdict ∈ d.verdicts,
    (⟨.evaluate verdict.task verdict.context, .ok verdict.decision⟩ : Event Call Answer) ∈ during

theorem Witnessed.cons {d : Desk} {h during before : Trace} {e : Event Call Answer}
    (hseen : Witnessed d h during before) (hsave : ∀ t, e.call ≠ .storeSave t) :
    Witnessed d (e :: h) (e :: during) before where
  untouched hclean taskId := by
    rw [stored_cons_of_not_save hsave]
    exact hseen.untouched hclean taskId
  entry := hseen.entry
  descriptors item hitem := List.mem_cons_of_mem _ (hseen.descriptors item hitem)
  verdicts verdict hverdict := List.mem_cons_of_mem _ (hseen.verdicts verdict hverdict)

theorem Witnessed.described {d : Desk} {h during before : Trace} {capability : String}
    {descriptor : CapabilityDescriptor} (hseen : Witnessed d h during before) :
    Witnessed (d.described capability descriptor) (⟨.descriptor capability, .ok descriptor⟩ :: h)
      (⟨.descriptor capability, .ok descriptor⟩ :: during) before where
  untouched := (hseen.cons (by simp)).untouched
  entry := hseen.entry
  descriptors item hitem := by
    rcases List.mem_cons.mp hitem with rfl | hitem
    · exact List.mem_cons_self
    · exact List.mem_cons_of_mem _ (hseen.descriptors item hitem)
  verdicts := (hseen.cons (by simp)).verdicts

theorem Witnessed.judged {d : Desk} {h during before : Trace} {v : Verdict}
    (hseen : Witnessed d h during before) :
    Witnessed (d.judged v) (⟨.evaluate v.task v.context, .ok v.decision⟩ :: h)
      (⟨.evaluate v.task v.context, .ok v.decision⟩ :: during) before where
  untouched := (hseen.cons (by simp)).untouched
  entry := hseen.entry
  descriptors := (hseen.cons (by simp)).descriptors
  verdicts judged hjudged := by
    rcases List.mem_cons.mp hjudged with rfl | hjudged
    · exact List.mem_cons_self
    · exact List.mem_cons_of_mem _ (hseen.verdicts judged hjudged)

variable {sup : Supervisor} {env : Env} {queue : TaskQueue} {h : Trace}

/-- The `run_task` call in progress can be found in the history, and the desk
tells what it has seen since. -/
theorem Sequential.run_task_call (hseq : Sequential sup env queue h) {taskId : TaskId}
    (hrunning : (desk h).running = some taskId) :
    ∃ during before, InRunTask h taskId during before ∧
      Witnessed (desk h) h during before := by
  induction h with
  | nil => cases hrunning
  | cons e h ih =>
      obtain ⟨c, answer⟩ := e
      have hlonger (hsame : (desk h).running = some taskId) (hmark : c.isMark = false) :
          ∃ during before, InRunTask (⟨c, answer⟩ :: h) taskId (⟨c, answer⟩ :: during) before ∧
            Witnessed (desk h) h during before := by
        obtain ⟨during, before, hin, hseen⟩ := ih hseq.tail hsame
        exact ⟨during, before, hin.cons hmark, hseen⟩
      cases c with
      | entered | left => cases hrunning
      | runTaskEntered id =>
          cases hrunning
          refine ⟨[], h, ⟨⟨answer, rfl⟩, by simp⟩, fun _ _ => rfl, ?_, ?_, ?_⟩
          · rintro r ⟨⟩
          · rintro item ⟨⟩
          · rintro verdict ⟨⟩
      | storeSave t =>
          obtain ⟨during, before, hin, hseen⟩ := hlonger hrunning rfl
          refine ⟨_, before, hin, ?_, hseen.entry, ?_, ?_⟩
          · rintro ⟨⟩
          · exact fun item hitem => List.mem_cons_of_mem _ (hseen.descriptors item hitem)
          · exact fun v hv => List.mem_cons_of_mem _ (hseen.verdicts v hv)
      | storeGet id =>
          have hfound := hseq.answer_storeGet
          rcases answer with e | _ | r
          · obtain ⟨during, before, hin, hseen⟩ := hlonger hrunning rfl
            exact ⟨_, before, hin, hseen.cons (by simp)⟩
          · obtain ⟨during, before, hin, hseen⟩ := hlonger hrunning rfl
            exact ⟨_, before, hin, hseen.cons (by simp)⟩
          · obtain ⟨during, before, hin, hseen⟩ := hlonger hrunning rfl
            have hlater := hseen.cons (e := ⟨.storeGet id, .ok (some r)⟩) (by simp)
            refine ⟨_, before, hin, hlater.untouched, ?_, hlater.descriptors, hlater.verdicts⟩
            intro r' hentry
            change (if _ then _ else _) = _ at hentry
            split at hentry
            · rename_i hclean
              cases hentry
              have hr : stored h id = some r := (Except.ok.inj hfound).symm
              rw [← hseen.untouched hclean.2, stored_keyed hr, hr]
            · exact hseen.entry r' hentry
      | descriptor capability =>
          obtain ⟨during, before, hin, hseen⟩ := hlonger
            (by cases answer <;> exact hrunning) rfl
          refine ⟨_, before, hin, ?_⟩
          cases answer with
          | error e => exact hseen.cons (by simp)
          | ok descriptor => exact hseen.described
      | evaluate task context =>
          obtain ⟨during, before, hin, hseen⟩ := hlonger
            (by cases answer <;> exact hrunning) rfl
          refine ⟨_, before, hin, ?_⟩
          cases answer with
          | error e => exact hseen.cons (by simp)
          | ok decision => exact hseen.judged (v := ⟨task, context, decision⟩)
      | _ =>
          obtain ⟨during, before, hin, hseen⟩ := hlonger
            (by cases answer <;> exact hrunning) rfl
          have hlater := hseen.cons (e := ⟨_, answer⟩) (by simp)
          refine ⟨_, before, hin, ?_⟩
          cases answer <;>
            exact ⟨hlater.untouched, hlater.entry, hlater.descriptors, hlater.verdicts⟩

/-- An `approve_task` found the task awaiting approval and stored it as
approved. -/
def ApprovalRecorded (h : Trace) (taskId : TaskId) : Prop :=
  ∃ later earlier t answer, h = later ++ ⟨.storeSave t, answer⟩ :: earlier ∧
    t.taskId = taskId ∧ t.status = .approved ∧
    (∃ r, stored earlier taskId = some r ∧ r.status = .awaitingApproval) ∧
    ∃ actor note run, (desk earlier).operation = some (.approveTask taskId actor note run)

theorem ApprovalRecorded.cons {taskId : TaskId} (happroval : ApprovalRecorded h taskId)
    (e : Event Call Answer) :
    ApprovalRecorded (e :: h) taskId := by
  obtain ⟨later, earlier, t, answer, rfl, hrest⟩ := happroval
  exact ⟨e :: later, earlier, t, answer, rfl, hrest⟩

/-- A stored approval was given. -/
theorem Sequential.approval_recorded (hseq : Sequential sup env queue h) {taskId : TaskId}
    {r : TaskRecord}
    (hstored : stored h taskId = some r) (hstatus : r.status = .approved) :
    ApprovalRecorded h taskId := by
  have hid := stored_keyed hstored
  subst hid
  have hall : r.status = .approved → ApprovalRecorded h r.taskId := by
    refine stored_induction (P := fun h r => r.status = .approved → ApprovalRecorded h r.taskId)
      ?_ ?_ ?_ hseq hstored
    · rintro h t answer _ ⟨_, _, _, _, _, hpending, _⟩ happroved
      rw [hpending] at happroved
      cases happroved
    · intro h r t answer _ hold ih _ hmove happroved
      rcases hmove.of_approved happroved with hbefore | ⟨hawaiting, hoperation⟩
      · exact hmove.taskId_eq ▸ (ih hbefore).cons _
      · refine ⟨[], h, t, answer, rfl, rfl, happroved, ⟨r, hold, hawaiting⟩, ?_⟩
        rw [hmove.taskId_eq]
        exact hoperation
    · intro h r e _ _ _ ih happroved
      exact (ih happroved).cons e
  exact hall hstatus

/-- The `run_task` call in progress may execute the task: it was entered with
the task stored as pending, the capability's descriptor asked for no approval
and the policy engine allowed the task during this call; or it was entered with
the task stored as approved, after an approval. -/
def Authorised (h : Trace) (taskId : TaskId) : Prop :=
  ∃ during before r, InRunTask h taskId during before ∧ stored before taskId = some r ∧
    (r.status = .pending ∧
        (∃ descriptor, (⟨.descriptor r.capability, .ok descriptor⟩ : Event Call Answer) ∈ during ∧
          descriptor.requireApproval = false) ∧
        (∃ task context decision,
          (⟨.evaluate task context, .ok decision⟩ : Event Call Answer) ∈ during ∧
            task.taskId = taskId ∧ decision.decision = .allow) ∨
      r.status = .approved ∧ ApprovalRecorded before taskId)

/-- How often the task was put into `RUNNING` from another status. -/
def runningEntries (taskId : TaskId) : Trace → Nat
  | [] => 0
  | ⟨.storeSave t, _⟩ :: h =>
      if t.taskId = taskId ∧ t.status = .running ∧
          (stored h taskId).all (fun r => r.status ≠ .running) then
        runningEntries taskId h + 1
      else runningEntries taskId h
  | _ :: h => runningEntries taskId h

namespace Sequential

/-- What the desk says about an execution, read back from the history. -/
theorem authorised_of_permitted (hseq : Sequential sup env queue h) {task : TaskRecord}
    (hadmitted : Admitted (desk h) task) : Authorised h task.taskId := by
  obtain ⟨hrunning, entry, hentry, hid, hcapability, hgates⟩ := hadmitted
  obtain ⟨during, before, hin, hseen⟩ := hseq.run_task_call hrunning
  have hstored : stored before task.taskId = some entry := hid ▸ hseen.entry entry hentry
  refine ⟨during, before, entry, hin, hstored, ?_⟩
  rcases hgates with happroved | ⟨hpending, ⟨descriptor, hdescriptor, hflag⟩, verdict, hverdict,
    hverdictId, -, hallowed⟩
  · refine .inr ⟨happroved, ?_⟩
    obtain ⟨⟨answer, hsplit⟩, -⟩ := hin
    have hbefore : Sequential sup env queue (⟨.runTaskEntered task.taskId, answer⟩ :: before) :=
      of_append (hsplit ▸ hseq)
    exact hbefore.tail.approval_recorded hstored happroved
  · refine .inl ⟨hpending, ⟨descriptor, ?_, hflag⟩, verdict.task, verdict.context,
      verdict.decision, hseen.verdicts verdict hverdict, hverdictId, hallowed⟩
    rw [hcapability]
    exact hseen.descriptors _ hdescriptor

/-- A task that has not come as far as `RUNNING` has never entered it. -/
theorem runningEntries_le (hunique : UniqueIds env) (hsafe : GuildSafe sup env)
    (hseq : Sequential sup env queue h) (taskId : TaskId) :
    runningEntries taskId h ≤ 1 ∧
      ((∀ r, stored h taskId = some r → r.status.rank < 3) → runningEntries taskId h = 0) := by
  induction h with
  | nil => exact ⟨Nat.zero_le 1, fun _ => rfl⟩
  | cons e h ih =>
      have ih := ih hseq.tail
      obtain ⟨c, answer⟩ := e
      cases c with
      | storeSave t =>
          simp only [runningEntries, stored_save]
          by_cases hid : t.taskId = taskId
          · subst hid
            have hnew : ∀ n : Nat, (∀ r, some t = some r → r.status.rank < n) ↔
                t.status.rank < n := by simp
            simp only [true_and, if_true, hnew]
            rcases hseq.saved with hcreated | ⟨r, hr, -, hmove⟩
            · have hnone := hseq.tail.created_fresh hunique hcreated
              obtain ⟨_, _, -, -, -, hpending, -⟩ := hcreated
              have hzero := ih.2 (by simp [hnone])
              simp [hnone, hpending, hzero]
            · have hrank := hmove.rank_le
              simp only [hr, Option.all_some, Option.some.injEq, forall_eq'] at ih ⊢
              split
              · rename_i henters
                obtain ⟨hrunning, hbefore⟩ := henters
                rcases hmove.status_step (hseq.tail.not_faulted hsafe) with hsame | hedge
                · simp [← hsame, hrunning] at hbefore
                · have hlt := TaskStatus.rank_lt_of_canBecome hedge
                  rw [hrunning] at hlt ⊢
                  rw [ih.2 hlt]
                  exact ⟨Nat.le_refl 1, fun h => absurd h (by decide)⟩
              · exact ⟨ih.1, fun hlow => ih.2 (Nat.lt_of_le_of_lt hrank hlow)⟩
          · simp only [hid, false_and, if_false]
            exact ih
      | _ => exact ih

end Sequential

/-- Execution is always authorised.  In every sequential run from an empty
store, without a guild and with unique task ids, `capability.execute` is called
only in an authorised `run_task` call, never for a task that was stored with a
terminal status, and a task enters `RUNNING` at most once. -/
theorem execution_authorised (sup : Supervisor) (env : Env) (queue : TaskQueue)
    (fuel : Nat) (ops : List Operation) (hguild : sup.guildKnowledge = false)
    (hunique : UniqueIds env) :
    (∀ later earlier capability task payload context timeout answer,
      (sup.run env fuel ops (.initial queue)).history =
          later ++ ⟨.execute capability task payload context timeout, answer⟩ :: earlier →
        context.taskId = task.taskId ∧ Authorised earlier task.taskId ∧
          ∀ t, Saved earlier t → t.taskId = task.taskId →
            t.status ≠ .policyDenied ∧ t.status ≠ .cancelled ∧ t.status ≠ .completed ∧
              t.status ≠ .failed ∧ t.status ≠ .escalated) ∧
      ∀ taskId, runningEntries taskId (sup.run env fuel ops (.initial queue)).history ≤ 1 := by
  have hsafe : GuildSafe sup env := fun h => by simp [hguild] at h
  have hrun := run_sequential sup env fuel ops queue
  refine ⟨?_, ?_⟩
  · intro later earlier capability task payload context timeout answer hsplit
    rw [hsplit] at hrun
    have hhere := hrun.of_append
    obtain ⟨hheld, hunderway, hadmitted, -, -, hcontext⟩ := hhere.permitted
    have hrunning := hunderway.running (hhere.tail.not_faulted hsafe)
    refine ⟨hcontext, hhere.tail.authorised_of_permitted hadmitted, ?_⟩
    intro t hsaved hid
    have hrank := hhere.tail.rank_le_of_saved hunique
      (hhere.tail.held_stored hheld) hsaved hid
    rw [hrunning] at hrank
    refine ⟨?_, ?_, ?_, ?_, ?_⟩ <;> intro hterminal <;> rw [hterminal] at hrank <;>
      simp [TaskStatus.rank] at hrank
  · exact fun taskId => (hrun.runningEntries_le hunique hsafe taskId).1

theorem execution_authorised_echo :
    (executions echoRun.history).map (·.taskId) = ["x"] ∧
      ∀ taskId, runningEntries taskId echoRun.history ≤ 1 :=
  ⟨by decide +kernel, (execution_authorised _ _ _ _ _ rfl (uniqueIds_of_freshId rfl)).2⟩

/-- A capability is registered under the name its descriptor gives. -/
def SelfNamed (env : Env) : Prop :=
  ∀ h name descriptor, env.descriptor h name = .ok descriptor → descriptor.name = name

/-- The task was parked by a `run_task` that found the approval flag in the
descriptor of its capability. -/
def ParkedByDescriptor (h : Trace) (taskId : TaskId) (capability : String) : Prop :=
  ∃ later earlier t answer during before descriptor,
    h = later ++ ⟨.storeSave t, answer⟩ :: earlier ∧
      t.taskId = taskId ∧ t.status = .awaitingApproval ∧
      InRunTask earlier taskId during before ∧
      (⟨.descriptor capability, .ok descriptor⟩ : Event Call Answer) ∈ during ∧
      descriptor.requireApproval = true

theorem ParkedByDescriptor.cons {taskId : TaskId} {capability : String}
    (hparked : ParkedByDescriptor h taskId capability) (e : Event Call Answer) :
    ParkedByDescriptor (e :: h) taskId capability := by
  obtain ⟨later, earlier, t, answer, during, before, descriptor, rfl, hrest⟩ := hparked
  exact ⟨e :: later, earlier, t, answer, during, before, descriptor, rfl, hrest⟩

theorem ParkedByDescriptor.append {taskId : TaskId} {capability : String}
    (hparked : ParkedByDescriptor h taskId capability) (later : Trace) :
    ParkedByDescriptor (later ++ h) taskId capability := by
  induction later with
  | nil => exact hparked
  | cons e later ih => exact ih.cons e

theorem ApprovalRecorded.append {taskId : TaskId} (happroval : ApprovalRecorded h taskId)
    (later : Trace) : ApprovalRecorded (later ++ h) taskId := by
  induction later with
  | nil => exact happroval
  | cons e later ih => exact ih.cons e

namespace Sequential

/-- Descriptors on the desk bear the names they were asked for. -/
theorem descriptors_named (hnamed : SelfNamed env) (hseq : Sequential sup env queue h) :
    ∀ item ∈ (desk h).descriptors, item.2.name = item.1 := by
  induction h with
  | nil => rintro item ⟨⟩
  | cons e h ih =>
      have ih := ih hseq.tail
      obtain ⟨c, answer⟩ := e
      cases c with
      | entered | left | runTaskEntered => rintro item ⟨⟩
      | storeGet taskId => rcases answer with e | _ | task <;> exact ih
      | descriptor capability =>
          have hanswer : answer = env.descriptor h capability := hseq.genuine.1
          cases answer with
          | error e => exact ih
          | ok descriptor =>
              intro item hitem
              rcases List.mem_cons.mp hitem with rfl | hitem
              · exact hnamed h capability descriptor hanswer.symm
              · exact ih item hitem
      | _ => cases answer <;> exact ih

end Sequential

section DenyByDefault

variable {policy : DenyByDefaultPolicy}

/-- The engine judges a task by the name of its capability. -/
theorem Sequential.verdict_deny_by_default (hnamed : SelfNamed (env.withPolicy policy))
    (hseq : Sequential sup (env.withPolicy policy) queue h) {task : TaskRecord}
    {context : PolicyContext} {decision : PolicyDecision}
    (hmem : (⟨.evaluate task context, .ok decision⟩ : Event Call Answer) ∈ h) :
    decision.decision ≠ .requireApproval ∧
      (decision.decision = .allow → task.capability ∈ policy.allowedCapabilities) := by
  obtain ⟨later, earlier, rfl, hanswer⟩ := hseq.genuine.of_mem hmem
  have hdecision : decision = policy.evaluate context := Except.ok.inj hanswer
  subst hdecision
  refine ⟨policy.evaluate_ne_requireApproval context, ?_⟩
  intro hallowed
  have hhere := hseq.of_append
  have hname := hhere.tail.descriptors_named hnamed _ hhere.permitted.2
  rw [← show context.capability.name = task.capability from hname]
  exact (policy.evaluate_allow_iff context).mp hallowed

/-- Under the default-deny engine only the descriptor's own flag parks a task. -/
theorem Sequential.parked_by_descriptor (hnamed : SelfNamed (env.withPolicy policy))
    (hseq : Sequential sup (env.withPolicy policy) queue h) {taskId : TaskId} {r : TaskRecord}
    (hstored : stored h taskId = some r)
    (hstatus : r.status = .awaitingApproval ∨ r.status = .approved) :
    ParkedByDescriptor h taskId r.capability := by
  have hid := stored_keyed hstored
  subst hid
  have hall : r.status = .awaitingApproval ∨ r.status = .approved →
      ParkedByDescriptor h r.taskId r.capability := by
    refine stored_induction (P := fun h r => r.status = .awaitingApproval ∨
      r.status = .approved → ParkedByDescriptor h r.taskId r.capability) ?_ ?_ ?_
      hseq hstored
    · rintro h t answer _ ⟨_, _, _, _, _, hpending, _⟩ hstatus
      rw [hpending] at hstatus
      rcases hstatus with hstatus | hstatus <;> cases hstatus
    · intro h r t answer hsaved hold ih _ hmove hstatus
      rw [hmove.taskId_eq, hmove.capability_eq]
      rcases hstatus with hawaiting | happroved
      · rcases hmove.of_awaiting hawaiting with hbefore | ⟨hrunning, hgate⟩
        · exact (ih (.inl hbefore)).cons _
        · obtain ⟨during, before, hin, hseen⟩ := hsaved.tail.run_task_call hrunning
          rcases hgate with ⟨descriptor, hdescriptor, hflag⟩ | ⟨verdict, hverdict, -, happroval⟩
          · exact ⟨[], h, t, answer, during, before, descriptor, rfl, hmove.taskId_eq,
              hawaiting, hin, hseen.descriptors _ hdescriptor, hflag⟩
          · have hmem := hin.mem (hseen.verdicts verdict hverdict)
            exact absurd happroval (hsaved.tail.verdict_deny_by_default hnamed hmem).1
      · rcases hmove.of_approved happroved with hbefore | ⟨hbefore, -⟩
        · exact (ih (.inr hbefore)).cons _
        · exact (ih (.inl hbefore)).cons _
    · intro h r e _ _ _ ih hstatus
      exact (ih hstatus).cons e
  exact hall hstatus

end DenyByDefault

/-- Denial under the default-deny engine gives way to an approval only.  In
every sequential run from an empty store a task whose capability is not on the
list is executed only after it was parked by the approval flag of its
capability's descriptor and then approved. -/
theorem denied_unless_approved (sup : Supervisor) (env : Env) (policy : DenyByDefaultPolicy)
    (queue : TaskQueue) (fuel : Nat) (ops : List Operation) (hnamed : SelfNamed env)
    {later earlier : Trace} {capability : String} {task : TaskRecord}
    {payload : Value} {context : CapabilityContext} {timeout : Option Rat}
    {answer : Answer (.execute capability task payload context timeout)}
    (hsplit : (sup.run (env.withPolicy policy) fuel ops (.initial queue)).history =
      later ++ ⟨.execute capability task payload context timeout, answer⟩ :: earlier)
    (hdenied : capability ∉ policy.allowedCapabilities) :
    ParkedByDescriptor earlier task.taskId capability ∧ ApprovalRecorded earlier task.taskId := by
  replace hnamed : SelfNamed (env.withPolicy policy) := hnamed
  have hrun := run_sequential sup (env.withPolicy policy) fuel ops queue
  rw [hsplit] at hrun
  have hhere := hrun.of_append
  obtain ⟨-, -, hadmitted, rfl, -, -⟩ := hhere.permitted
  obtain ⟨hrunning, entry, hentry, hid, hcapability, hgates⟩ := hadmitted
  obtain ⟨during, before, hin, hseen⟩ := hhere.tail.run_task_call hrunning
  have hstored := hseen.entry entry hentry
  rcases hgates with happroved | ⟨-, -, verdict, hverdict, -, hsame, hallowed⟩
  · rw [← hid, ← hcapability]
    obtain ⟨⟨entered, rfl⟩, -⟩ := hin
    have hbefore := hhere.tail.of_append.tail
    refine ⟨?_, ?_⟩
    · exact ((hbefore.parked_by_descriptor hnamed hstored (.inr happroved)).cons _).append _
    · exact ((hbefore.approval_recorded hstored happroved).cons _).append _
  · have hmem := hin.mem (hseen.verdicts verdict hverdict)
    have hlisted := (hhere.tail.verdict_deny_by_default hnamed hmem).2 hallowed
    rw [hsame] at hlisted
    exact absurd hlisted hdenied

/-- Collaborators whose capabilities all ask for approval. -/
def Env.guarded : Env :=
  { Env.returning with
    descriptor := fun _ name => .ok ⟨name, "", .low, [], true⟩ }

theorem guarded_selfNamed : SelfNamed Env.guarded := by
  rintro h name descriptor ⟨⟩
  rfl

/-- Submitted, parked and approved. -/
def guardedOps : List Operation :=
  [.submit ⟨"say", "echo", [], [], 0, none⟩, .runNext, .approveTask "x" "user" none true]

/-- The operations under a default-deny engine with nothing on its list. -/
def guardedRun : State :=
  (Supervisor.unconfigured ["echo"]).run (Env.guarded.withPolicy ⟨[]⟩) 1 guardedOps
    (.initial (.inMemory []))

theorem guardedRun_executes :
    ∃ task ∈ executions guardedRun.history, task.capability = "echo" := by
  have hexecuted : (executions guardedRun.history).map (·.capability) = ["echo"] := by
    decide +kernel
  have hmem : "echo" ∈ (executions guardedRun.history).map (·.capability) := by simp [hexecuted]
  exact List.mem_map.mp hmem

/-- Denial by the engine is not absolute. -/
theorem denied_capability_executed :
    ¬ ∀ (sup : Supervisor) (env : Env) (policy : DenyByDefaultPolicy) (queue : TaskQueue)
      (fuel : Nat) (ops : List Operation), SelfNamed env → UniqueIds env →
      ∀ task ∈ executions (sup.run (env.withPolicy policy) fuel ops (.initial queue)).history,
        task.capability ∈ policy.allowedCapabilities := by
  intro habsolute
  obtain ⟨task, htask, -⟩ := guardedRun_executes
  have hlisted := habsolute (.unconfigured ["echo"]) .guarded ⟨[]⟩ (.inMemory []) 1 guardedOps
    guarded_selfNamed (uniqueIds_of_freshId rfl) task htask
  cases hlisted

theorem denied_unless_approved_guarded :
    ∃ earlier taskId capability,
      ParkedByDescriptor earlier taskId capability ∧ ApprovalRecorded earlier taskId := by
  obtain ⟨task, htask, -⟩ := guardedRun_executes
  obtain ⟨later, earlier, capability, payload, context, timeout, answer, hsplit⟩ :=
    exists_split_of_mem_executions htask
  exact ⟨earlier, task.taskId, capability,
    denied_unless_approved (.unconfigured ["echo"]) .guarded ⟨[]⟩ (.inMemory []) 1 guardedOps
      guarded_selfNamed hsplit List.not_mem_nil⟩

end Conductor
