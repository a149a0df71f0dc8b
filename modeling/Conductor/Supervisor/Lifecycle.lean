/-
The life of a task record: the edges of its state machine, the versions one
operation may save, and what an operation must have seen before it may make
each of its calls.  The text of the supervisor does not occur here.
-/
import Conductor.Supervisor.Calls

namespace Conductor

open Effects

namespace TaskStatus

/-- The edges of the documented state machine. -/
def canBecome : TaskStatus → TaskStatus → Bool
  | .pending, .running | .pending, .awaitingApproval | .pending, .policyDenied => true
  | .awaitingApproval, .approved | .awaitingApproval, .cancelled => true
  | .approved, .running => true
  | .running, .completed | .running, .failed | .running, .escalated => true
  | _, _ => false

/-- How far a task has come.  Every edge goes up. -/
def rank : TaskStatus → Nat
  | .pending => 0
  | .awaitingApproval => 1
  | .approved => 2
  | .running => 3
  | .completed | .failed | .escalated | .policyDenied | .cancelled => 4

/-- No edge leaves a terminal status. -/
def terminal (status : TaskStatus) : Bool := status.rank == 4

theorem rank_lt_of_canBecome {source target : TaskStatus}
    (hedge : source.canBecome target = true) : source.rank < target.rank := by
  revert hedge
  cases source <;> cases target <;> decide

/-- The step that the source takes beside the edges when reporting a success
has failed: the completed task is then failed or escalated. -/
def undone (source target : TaskStatus) : Prop :=
  source = .completed ∧ (target = .failed ∨ target = .escalated)

/-- The statuses that paths can lead to, by edges only or also by undoing. -/
def reaches (faults : Bool) : TaskStatus → TaskStatus → Bool
  | .pending, _ => true
  | .awaitingApproval, target => target != .pending && target != .policyDenied
  | .approved, target =>
      target == .approved || target == .running || target == .completed ||
        target == .failed || target == .escalated
  | .running, target =>
      target == .running || target == .completed || target == .failed || target == .escalated
  | .completed, target =>
      target == .completed || faults && (target == .failed || target == .escalated)
  | source, target => source == target

theorem reaches_refl (faults : Bool) (status : TaskStatus) :
    status.reaches faults status = true := by
  cases status <;> rfl

theorem reaches_edge {faults : Bool} {source middle target : TaskStatus}
    (hpath : source.reaches faults middle = true)
    (hedge : target = middle ∨ middle.canBecome target = true) :
    source.reaches faults target = true := by
  revert hpath hedge
  cases faults <;> cases source <;> cases middle <;> cases target <;> decide

theorem reaches_undone {source middle target : TaskStatus}
    (hpath : source.reaches true middle = true) (hundone : middle.undone target) :
    source.reaches true target = true := by
  obtain ⟨rfl, rfl | rfl⟩ := hundone <;> revert hpath <;> cases source <;> decide

theorem eq_of_reaches_of_terminal {source target : TaskStatus} (hterminal : source.terminal = true)
    (hpath : source.reaches false target = true) : target = source := by
  revert hterminal hpath
  cases source <;> cases target <;> decide

theorem rank_le_of_reaches {faults : Bool} {source target : TaskStatus}
    (hpath : source.reaches faults target = true) : source.rank ≤ target.rank := by
  revert hpath
  cases faults <;> cases source <;> cases target <;> decide

end TaskStatus

namespace TaskRecord

/-- The record with one more audit entry, saved at `saved`. -/
def noted (task : TaskRecord) (entry : AuditEntry) (saved : Time) : TaskRecord :=
  { task with auditTrail := task.auditTrail ++ [entry], updatedAt := saved }

/-- The record in another status, with the audit entry of the transition. -/
def transitioned (task : TaskRecord) (toStatus : TaskStatus) (actor action : String)
    (metadata : Dict) (ts : Time) : TaskRecord :=
  { task with
    status := toStatus
    auditTrail := task.auditTrail ++
      [⟨ts, actor, action, some task.status, some toStatus, metadata⟩]
    updatedAt := ts }

end TaskRecord

/-- A policy decision with what it was asked about. -/
structure Verdict where
  task : TaskRecord
  context : PolicyContext
  decision : PolicyDecision

/-- What the operation in progress has seen and done.  `running`, `untouched`,
`entry`, `descriptors`, `verdicts`, `validated` and `faulted` belong to its
`run_task` call, which is `untouched` until it first saves; `clock` holds the
readings since `held` was last read or written. -/
structure Desk where
  operation : Option Operation
  running : Option TaskId
  untouched : Bool
  entry : Option TaskRecord
  held : Option TaskRecord
  saved : List TaskRecord
  clock : List Time
  issued : Option TaskId
  descriptors : List (String × CapabilityDescriptor)
  verdicts : List Verdict
  validated : Option (Dict × Value)
  faulted : Bool

namespace Desk

/-- Between operations. -/
def idle : Desk := ⟨none, none, true, none, none, [], [], none, [], [], none, false⟩

def started (op : Operation) : Desk := { idle with operation := some op }

def enteredRunTask (d : Desk) (taskId : TaskId) : Desk :=
  { idle with operation := d.operation, running := some taskId, saved := d.saved }

def readClock (d : Desk) (ts : Time) : Desk := { d with clock := ts :: d.clock }

/-- A record was read from the store.  `run_task` is entered with the record
it reads before it saves anything. -/
def took (d : Desk) (task : TaskRecord) : Desk :=
  { d with
    held := some task
    clock := []
    entry :=
      if d.running = some task.taskId ∧ d.untouched = true then some task else d.entry }

def wrote (d : Desk) (task : TaskRecord) : Desk :=
  { d with
    held := some task
    clock := []
    issued := none
    untouched := false
    saved := task :: d.saved }

def described (d : Desk) (capability : String) (descriptor : CapabilityDescriptor) : Desk :=
  { d with descriptors := (capability, descriptor) :: d.descriptors }

def judged (d : Desk) (verdict : Verdict) : Desk :=
  { d with verdicts := verdict :: d.verdicts }

def checked (d : Desk) (input : Dict) (payload : Value) : Desk :=
  { d with validated := some (input, payload) }

def fault (d : Desk) : Desk := { d with faulted := true }

/-- The desk after one more call. -/
def after (d : Desk) : (c : Call) → Answer c → Desk
  | .entered op, _ => started op
  | .left _ _, _ => idle
  | .runTaskEntered taskId, _ => d.enteredRunTask taskId
  | .now, .ok ts => d.readClock ts
  | .uuid4, .ok taskId => { d with issued := some taskId }
  | .storeGet _, .ok (some task) => d.took task
  | .storeSave task, _ => d.wrote task
  | .descriptor capability, .ok descriptor => d.described capability descriptor
  | .evaluate task context, .ok decision => d.judged ⟨task, context, decision⟩
  | .validateInput _ input, .ok payload => d.checked input payload
  | .publishSuccess _ _, .error _ => d.fault
  | _, _ => d

end Desk

/-- `run_task` was entered with an approved record, or with a pending one that
passed both gates. -/
def Admitted (d : Desk) (task : TaskRecord) : Prop :=
  d.running = some task.taskId ∧
    ∃ entry, d.entry = some entry ∧ entry.taskId = task.taskId ∧
      entry.capability = task.capability ∧
      (entry.status = .approved ∨
        entry.status = .pending ∧
          (∃ descriptor, (task.capability, descriptor) ∈ d.descriptors ∧
            descriptor.requireApproval = false) ∧
          ∃ verdict ∈ d.verdicts, verdict.task.taskId = task.taskId ∧
            verdict.task.capability = task.capability ∧
            verdict.decision.decision = .allow)

/-- The operation has put the task into `RUNNING` and is still at it.  A
completed task is still worked on when reporting its success has failed. -/
def Underway (d : Desk) (task : TaskRecord) : Prop :=
  (∃ t ∈ d.saved, t.taskId = task.taskId ∧ t.status = .running) ∧
    (task.status = .running ∨ task.status = .completed ∧ d.faulted = true)

theorem Underway.running {d : Desk} {task : TaskRecord} (hunderway : Underway d task)
    (hfaulted : d.faulted = false) : task.status = .running := by
  rcases hunderway.2 with hrunning | ⟨-, hfault⟩
  · exact hrunning
  · rw [hfaulted] at hfault
    cases hfault

/-- The record that a submission becomes, as it is saved first. -/
def Created (d : Desk) (task : TaskRecord) : Prop :=
  ∃ ts metadata, d.held = none ∧ d.issued = some task.taskId ∧ ts ∈ d.clock ∧
    task.status = .pending ∧ task.attempt = 0 ∧
    task.auditTrail = [⟨ts, "supervisor", "submitted", none, some .pending, metadata⟩]

/-- The capability asks for approval, or the policy engine does. -/
def Gated (d : Desk) (task : TaskRecord) : Prop :=
  d.running = some task.taskId ∧
    ((∃ descriptor, (task.capability, descriptor) ∈ d.descriptors ∧
        descriptor.requireApproval = true) ∨
      ∃ verdict ∈ d.verdicts, verdict.task = task ∧
        verdict.decision.decision = .requireApproval)

/-- The record last read or written may be followed by this one. -/
inductive Move (d : Desk) (r : TaskRecord) : TaskRecord → Prop
  | allowed (metadata : Dict) (ts saved : Time) (hstatus : r.status = .pending)
      (hts : ts ∈ d.clock) (hsaved : saved ∈ d.clock) :
      Move d r (r.noted ⟨ts, "policy", "allowed", some .pending, some .pending, metadata⟩ saved)
  | denied (result : TaskResult) (metadata : Dict) (ts : Time) (hstatus : r.status = .pending)
      (hts : ts ∈ d.clock) :
      Move d r ({ r with result := some result }.transitioned
        .policyDenied "policy" "denied" metadata ts)
  | parked (actor : String) (metadata : Dict) (ts : Time) (hstatus : r.status = .pending)
      (hgated : Gated d r) (hts : ts ∈ d.clock) :
      Move d r (r.transitioned .awaitingApproval actor "awaiting_approval" metadata ts)
  | suggested (input metadata : Dict) (ts saved : Time) (hadmitted : Admitted d r)
      (hstatus : r.status = .pending ∨ r.status = .approved) (hts : ts ∈ d.clock)
      (hsaved : saved ∈ d.clock) :
      Move d r ({ r with input := input }.noted
        ⟨ts, "guild", "peer_suggestion_applied", none, none, metadata⟩ saved)
  | started (metadata : Dict) (ts : Time) (hadmitted : Admitted d r)
      (hstatus : r.status = .pending ∨ r.status = .approved) (hts : ts ∈ d.clock) :
      Move d r ({ r with attempt := r.attempt + 1 }.transitioned
        .running "supervisor" "started" metadata ts)
  | failureRecorded (metadata : Dict) (ts saved : Time) (hunderway : Underway d r)
      (hts : ts ∈ d.clock) (hsaved : saved ∈ d.clock) :
      Move d r (r.noted ⟨ts, "supervisor", "failure_recorded", none, none, metadata⟩ saved)
  | retried (input metadata : Dict) (ts saved : Time) (hunderway : Underway d r)
      (hts : ts ∈ d.clock) (hsaved : saved ∈ d.clock) :
      Move d r ({ r with attempt := r.attempt + 1, input := input }.noted
        ⟨ts, "supervisor", "retry", some .running, some .running, metadata⟩ saved)
  | completed (result : TaskResult) (metadata : Dict) (ts : Time) (hunderway : Underway d r)
      (hts : ts ∈ d.clock) :
      Move d r ({ r with result := some result }.transitioned
        .completed "supervisor" "completed" metadata ts)
  | failed (result : TaskResult) (metadata : Dict) (ts : Time) (hunderway : Underway d r)
      (hts : ts ∈ d.clock) :
      Move d r ({ r with result := some result }.transitioned
        .failed "supervisor" "failed" metadata ts)
  | escalated (attempt : Int) (input : Dict) (result : TaskResult) (metadata : Dict) (ts : Time)
      (hunderway : Underway d r) (hts : ts ∈ d.clock) :
      Move d r ({ r with attempt := attempt, input := input, result := some result }.transitioned
        .escalated "supervisor" "escalated" metadata ts)
  | approved (actor : String) (note : Option Dict) (run : Bool) (metadata : Dict) (ts : Time)
      (hstatus : r.status = .awaitingApproval)
      (hoperation : d.operation = some (.approveTask r.taskId actor note run))
      (hts : ts ∈ d.clock) :
      Move d r (r.transitioned .approved actor "approved" metadata ts)
  | cancelled (actor : String) (result : TaskResult) (metadata : Dict) (ts : Time)
      (hstatus : r.status = .awaitingApproval) (hts : ts ∈ d.clock) :
      Move d r ({ r with result := some result }.transitioned
        .cancelled actor "cancelled" metadata ts)

/-- The failure of the current attempt is the last thing the record tells. -/
def FailureRecorded (task : TaskRecord) (failure : FailureContext) : Prop :=
  failure.taskId = task.taskId ∧ failure.attempt = task.attempt ∧
    ∃ before ts, task.auditTrail = before ++
      [⟨ts, "supervisor", "failure_recorded", none, none, failure.modelDump⟩]

/-- The event describes the record. -/
def Describes (event : TaskEvent) (task : TaskRecord) : Prop :=
  event.taskId = task.taskId ∧ event.taskName = task.name ∧
    event.capability = task.capability ∧ event.status = task.status ∧
    event.attempt = task.attempt ∧ event.workflowId = task.workflowId

/-- What an operation has done by the time it returns `task`. -/
def Settled (d : Desk) (task : TaskRecord) : Operation → Prop
  | .approveTask taskId _ _ _ =>
      ∃ t ∈ d.saved, t.taskId = taskId ∧ t.status = .approved
  | .cancelTask taskId _ _ _ =>
      task ∈ d.saved ∧ task.taskId = taskId ∧ task.status = .cancelled
  | _ => True

/-- The calls an operation may make with this desk; only with a guild knowledge
base does it report failures and successes. -/
def Permitted (guild : Bool) (d : Desk) : Call → Prop
  | .storeSave task => Created d task ∨ ∃ r, d.held = some r ∧ Move d r task
  | .execute capability task payload context _ =>
      d.held = some task ∧ Underway d task ∧ Admitted d task ∧ capability = task.capability ∧
        d.validated = some (task.input, payload) ∧ context.taskId = task.taskId
  | .decide task failure => d.held = some task ∧ Underway d task ∧ FailureRecorded task failure
  | .emit task event => d.held = some task ∧ Describes event task
  | .evaluate task context =>
      d.held = some task ∧ (task.capability, context.capability) ∈ d.descriptors
  | .publish _ _ _ => guild = true
  | .publishSuccess _ _ => guild = true
  | .left op (.ok task) => d.operation = some op ∧ d.held = some task ∧ Settled d task op
  | _ => True

/-- Calls that any operation may make at any time and that leave the desk as it
is. -/
def Call.quiet : Call → Bool
  | .localNow | .monotonic | .sleep _ | .enqueue _ | .dequeue | .lastStart _
  | .setLastStart _ _ | .shouldEscalate _ _ | .buildRecord _ _ | .suggest _ _ => true
  | _ => false

theorem Call.permitted_of_quiet {c : Call} (hquiet : c.quiet = true) (guild : Bool)
    (d : Desk) : Permitted guild d c := by
  cases c <;> trivial

theorem Call.after_of_quiet {c : Call} (hquiet : c.quiet = true) (d : Desk)
    (answer : Answer c) : d.after c answer = d := by
  cases c <;> first | rfl | cases hquiet

/-- What every store, clock and id source answers.  The other collaborators
may answer or raise as they like. -/
def Sound : (c : Call) → Answer c → Prop
  | .now, answer => ∃ ts, answer = .ok ts
  | .uuid4, answer => ∃ taskId, answer = .ok taskId
  | .storeGet taskId, answer =>
      ∃ found, answer = .ok found ∧ ∀ task ∈ found, task.taskId = taskId
  | .storeSave _, answer => answer = .ok ()
  | _, _ => True

/-- Calls that mark where a method was entered or an operation ended. -/
def Call.isMark : Call → Bool
  | .entered _ | .left _ _ | .runTaskEntered _ => true
  | _ => false

/-- The monitor of one client. -/
def discipline (guild : Bool) : Monitor Desk Call Answer where
  initial := .idle
  next := Desk.after
  allows := Permitted guild
  answers := Sound

/-- The desk after a history. -/
def desk : Trace → Desk
  | [] => .idle
  | e :: h => (desk h).after e.call e.answer

@[simp] theorem desk_nil : desk [] = .idle := rfl

@[simp] theorem desk_cons (e : Event Call Answer) (h : Trace) :
    desk (e :: h) = (desk h).after e.call e.answer := rfl

@[simp] theorem view_discipline (guild : Bool) (h : Trace) :
    (discipline guild).view h = desk h := by
  induction h with
  | nil => rfl
  | cons e h ih => rw [Monitor.view_cons, ih]; rfl

/-- Only a failed success report puts a fault on the desk. -/
theorem Desk.after_calm {d : Desk} (hcalm : d.faulted = false) {e : Event Call Answer}
    (hreport : ∀ capability input exc, e ≠ ⟨.publishSuccess capability input, .error exc⟩) :
    (d.after e.call e.answer).faulted = false := by
  obtain ⟨c, answer⟩ := e
  cases c with
  | entered | left | runTaskEntered => rfl
  | publishSuccess capability input =>
      cases answer with
      | error exc => exact absurd rfl (hreport capability input exc)
      | ok value => exact hcalm
  | storeGet taskId => rcases answer with e | _ | task <;> exact hcalm
  | _ => cases answer <;> exact hcalm

namespace Move

variable {d : Desk} {r t : TaskRecord}

theorem taskId_eq (h : Move d r t) : t.taskId = r.taskId := by
  cases h <;> rfl

theorem capability_eq (h : Move d r t) : t.capability = r.capability := by
  cases h <;> rfl

/-- A move keeps the status, follows an edge, or undoes a completion whose
report has failed. -/
theorem status_cases (h : Move d r t) :
    (t.status = r.status ∨ r.status.canBecome t.status = true) ∨
      d.faulted = true ∧ r.status.undone t.status := by
  have hworked (hunderway : Underway d r) (hedge : TaskStatus.running.canBecome t.status = true)
      (hundone : t.status = .completed ∨ t.status = .failed ∨ t.status = .escalated) :
      (t.status = r.status ∨ r.status.canBecome t.status = true) ∨
        d.faulted = true ∧ r.status.undone t.status := by
    rcases hunderway.2 with hrunning | ⟨hcompleted, hfaulted⟩
    · exact .inl (.inr (by rw [hrunning]; exact hedge))
    · rcases hundone with hsame | hlost
      · exact .inl (.inl (hsame.trans hcompleted.symm))
      · exact .inr ⟨hfaulted, hcompleted, hlost⟩
  cases h with
  | allowed | suggested | failureRecorded | retried => exact .inl (.inl rfl)
  | denied _ _ _ hstatus | parked _ _ _ hstatus => exact .inl (.inr (by rw [hstatus]; rfl))
  | started _ _ _ hstatus =>
      refine .inl (.inr ?_)
      rcases hstatus with hstatus | hstatus <;> rw [hstatus] <;> rfl
  | completed _ _ _ hunderway => exact hworked hunderway rfl (.inl rfl)
  | failed _ _ _ hunderway => exact hworked hunderway rfl (.inr (.inl rfl))
  | escalated _ _ _ _ _ hunderway => exact hworked hunderway rfl (.inr (.inr rfl))
  | approved _ _ _ _ _ hstatus | cancelled _ _ _ _ hstatus =>
      exact .inl (.inr (by rw [hstatus]; rfl))

theorem status_step (h : Move d r t) (hfaulted : d.faulted = false) :
    t.status = r.status ∨ r.status.canBecome t.status = true := by
  refine h.status_cases.resolve_right ?_
  rw [hfaulted]
  exact fun hundone => Bool.false_ne_true hundone.1

theorem rank_le (h : Move d r t) : r.status.rank ≤ t.status.rank := by
  rcases h.status_cases with (hsame | hedge) | ⟨-, hcompleted, hlost⟩
  · exact hsame ▸ Nat.le_refl _
  · exact Nat.le_of_lt (TaskStatus.rank_lt_of_canBecome hedge)
  · rw [hcompleted]
    rcases hlost with hlost | hlost <;> rw [hlost] <;> decide

/-- A move appends one entry.  The entry tells the change of status, or it has
no statuses and there was none. -/
theorem audit (h : Move d r t) (hfaulted : d.faulted = false) :
    ∃ entry, t.auditTrail = r.auditTrail ++ [entry] ∧ entry.timestamp ∈ d.clock ∧
      (entry.toStatus = none ∧ t.status = r.status ∨
        entry.fromStatus = some r.status ∧ entry.toStatus = some t.status) := by
  cases h with
  | suggested _ _ _ _ _ _ hts | failureRecorded _ _ _ _ hts =>
      exact ⟨_, rfl, hts, .inl ⟨rfl, rfl⟩⟩
  | allowed _ _ _ hstatus hts =>
      exact ⟨_, rfl, hts, .inr ⟨congrArg some hstatus.symm, congrArg some hstatus.symm⟩⟩
  | retried _ _ _ _ hunderway hts =>
      have hrunning := hunderway.running hfaulted
      exact ⟨_, rfl, hts, .inr ⟨congrArg some hrunning.symm, congrArg some hrunning.symm⟩⟩
  | denied _ _ _ _ hts | parked _ _ _ _ _ hts | started _ _ _ _ hts | completed _ _ _ _ hts
  | failed _ _ _ _ hts | escalated _ _ _ _ _ _ hts | approved _ _ _ _ _ _ _ hts
  | cancelled _ _ _ _ _ hts => exact ⟨_, rfl, hts, .inr ⟨rfl, rfl⟩⟩

/-- Only an `approve_task` on a parked task makes it approved. -/
theorem of_approved (h : Move d r t) (hstatus : t.status = .approved) :
    r.status = .approved ∨ r.status = .awaitingApproval ∧
      ∃ actor note run, d.operation = some (.approveTask r.taskId actor note run) := by
  cases h with
  | allowed | suggested | failureRecorded | retried => exact .inl hstatus
  | approved actor note run _ _ hawaiting hoperation =>
      exact .inr ⟨hawaiting, actor, note, run, hoperation⟩
  | _ => cases hstatus

/-- Only a gate parks a task. -/
theorem of_awaiting (h : Move d r t) (hstatus : t.status = .awaitingApproval) :
    r.status = .awaitingApproval ∨ Gated d r := by
  cases h with
  | allowed | suggested | failureRecorded | retried => exact .inl hstatus
  | parked _ _ _ _ hgated => exact .inr hgated
  | _ => cases hstatus

/-- A task is put into `RUNNING` from a lower status, or kept there by the
operation that put it there. -/
theorem of_running (h : Move d r t) (hstatus : t.status = .running) :
    r.status.rank < 3 ∨
      ∃ run ∈ d.saved, run.taskId = r.taskId ∧ run.status = .running := by
  cases h with
  | allowed _ _ _ hpending => exact .inl (by rw [hpending]; decide)
  | suggested _ _ _ _ _ hbefore | started _ _ _ hbefore =>
      refine .inl ?_
      rcases hbefore with hbefore | hbefore <;> rw [hbefore] <;> decide
  | failureRecorded _ _ _ hunderway | retried _ _ _ _ hunderway => exact .inr hunderway.1
  | _ => cases hstatus

end Move

end Conductor
