/-
Custody of waiting tasks.  A monitor follows which task the operation in
progress has in its hands, and whether it still owes that task a place in the
queue or another status.
-/
import Conductor.Supervisor.Provenance

namespace Conductor

open Effects Block

/-- `EXECUTABLE_STATUSES`: the task waits to be run. -/
def TaskStatus.waiting : TaskStatus → Bool
  | .pending | .approved => true
  | _ => false

theorem TaskStatus.waiting_iff (status : TaskStatus) :
    status.waiting = true ↔ status = .pending ∨ status = .approved := by
  cases status <;> simp [waiting]

/-- The guardrails find nothing wrong with the task itself. -/
def Supervisor.accepts (sup : Supervisor) (task : TaskRecord) : Bool :=
  !isBlank task.name && !isBlank task.capability &&
    decide (task.capability ∈ sup.registry.capabilities)

/-- The operation is asked to work on this task. -/
def Operation.named : Operation → Option TaskId
  | .runTask taskId => some taskId
  | _ => none

/-- The operation ends with an entry in the queue. -/
def Operation.enqueues : Operation → Bool
  | .submit _ => true
  | .approveTask _ _ _ run => !run
  | _ => false

/-- The operation begins by taking an entry from the queue. -/
def Operation.dequeues : Operation → Bool
  | .runNext => true
  | _ => false

/-! ### The monitor -/

/-- The task an operation has in its hands.  It is `owed` a place in the queue
or another status as long as it waits and the operation is what keeps it from
being queued; `raised` says that a call raised meanwhile. -/
structure Custody where
  operation : Option Operation
  hand : Option TaskId
  owed : Bool
  raised : Bool

namespace Custody

def idle : Custody := ⟨none, none, false, false⟩

def entered (op : Operation) : Custody := ⟨some op, op.named, false, false⟩

def took (v : Custody) (taskId : TaskId) : Custody :=
  { v with hand := some taskId, owed := true }

/-- Only a waiting task that would be accepted is owed anything. -/
def found (sup : Supervisor) (v : Custody) (found : Option TaskRecord) : Custody :=
  { v with owed := v.owed && found.any fun task => task.status.waiting && sup.accepts task }

/-- The first version of a task and its approval put it into custody. -/
def saved (v : Custody) (task : TaskRecord) : Custody :=
  { v with
    hand := some task.taskId
    owed := task.status.waiting &&
      if task.lastAction = some "submitted" ∨ task.lastAction = some "approved" then
        v.operation.any Operation.enqueues
      else v.owed }

def queued (v : Custody) : Custody := { v with hand := none, owed := false }

def refused (v : Custody) : Custody := { v with owed := false }

def interrupted (v : Custody) (e : PyExc) : Custody :=
  { v with raised := v.raised || !e.isException }

def disturbed (v : Custody) : Custody :=
  { v with raised := v.raised || v.owed && v.operation.any Operation.dequeues }

/-- The custody after one more call. -/
def after (sup : Supervisor) (v : Custody) : (c : Call) → Answer c → Custody
  | .entered op, _ => entered op
  | .left _ _, _ => idle
  | .dequeue, .ok (some taskId) => v.took taskId
  | .storeGet _, .ok task => v.found sup task
  | .storeSave task, _ => v.saved task
  | .enqueue _, .ok _ => v.queued
  | .enqueue _, .error _ => v.refused
  | .emit _ _, .error e => v.interrupted e
  | _, .error _ => v.disturbed
  | _, .ok _ => v

/-- No task is owed anything, or a call raised. -/
def Excused (v : Custody) : Prop := v.owed = false ∨ v.raised = true

/-- What the operation may do: it works on the task in its hands, takes one out
of the queue with empty hands, and leaves when nothing is owed. -/
def Allows (sup : Supervisor) (v : Custody) : Call → Prop
  | .entered _ => v.owed = false
  | .left _ _ => v.Excused
  | .dequeue => v.operation.any Operation.dequeues = true ∧ v.owed = false
  | .storeGet taskId => v.owed = true → v.hand = some taskId
  | .storeSave task =>
      (v.hand = some task.taskId ∨ v.hand = none ∧ v.owed = false ∧
        (task.lastAction = some "submitted" ∨ task.lastAction = some "approved" ∨
          task.lastAction = some "cancelled")) ∧
        (task.lastAction = some "submitted" → sup.accepts task = true)
  | .enqueue taskId => v.hand = some taskId ∧ v.owed = true
  | _ => True

end Custody

/-- Who keeps which task. -/
def custody (sup : Supervisor) : Monitor Custody Call Answer where
  initial := .idle
  next := Custody.after sup
  allows := Custody.Allows sup
  answers := Sound

theorem custody_timeless (sup : Supervisor) : Timeless (custody sup) :=
  ⟨rfl, fun _ => trivial, fun _ _ => rfl⟩

variable {sup : Supervisor} {σ : Type} {task : TaskRecord} {v : Custody}

/-- A task that comes into custody is owed what its operation has to enqueue. -/
theorem Custody.owed_saved {op : Operation} (hoperation : v.operation = some op)
    (hstatus : task.status.waiting = true)
    (haction : task.lastAction = some "submitted" ∨ task.lastAction = some "approved") :
    (v.saved task).owed = op.enqueues := by
  simp only [Custody.saved, if_pos haction, hoperation, hstatus, Option.any_some, Bool.true_and]

/-- `run_task` works on a task that its operation has in hand; only an entry
taken from the queue is owed anything. -/
structure InHand (task : TaskRecord) (v : Custody) : Prop where
  hand : v.hand = some task.taskId
  keeps : v.operation.any Operation.enqueues = false
  taken : v.owed = true → v.operation.any Operation.dequeues = true

theorem InHand.version (hheld : InHand task v) {t : TaskRecord} (hid : t.taskId = task.taskId) :
    InHand t v :=
  ⟨hid ▸ hheld.hand, hheld.keeps, hheld.taken⟩

theorem InHand.saved (hheld : InHand task v) (t : TaskRecord) : InHand t (v.saved t) := by
  refine ⟨rfl, hheld.keeps, ?_⟩
  intro howed
  apply hheld.taken
  simp only [Custody.saved, hheld.keeps, Bool.and_eq_true] at howed
  split at howed
  · exact absurd howed.2 Bool.false_ne_true
  · exact howed.2

theorem InHand.interrupted (hheld : InHand task v) (e : PyExc) :
    InHand task (v.interrupted e) :=
  ⟨hheld.hand, hheld.keeps, hheld.taken⟩

theorem InHand.disturbed (hheld : InHand task v) :
    InHand task v.disturbed ∧ v.disturbed.Excused := by
  refine ⟨⟨hheld.hand, hheld.keeps, hheld.taken⟩, ?_⟩
  cases howed : v.owed with
  | false => exact .inl howed
  | true => exact .inr (by simp [Custody.disturbed, howed, hheld.taken howed])

/-- Once the task is moved, nothing is owed until it leaves the hand. -/
structure Released (taskId : TaskId) (v : Custody) : Prop where
  hand : v.hand = some taskId
  keeps : v.operation.any Operation.enqueues = false
  moved : v.owed = false

theorem Released.saved {taskId : TaskId} (h : Released taskId v) {t : TaskRecord}
    (hid : t.taskId = taskId) : Released taskId (v.saved t) := by
  refine ⟨congrArg some hid, h.keeps, ?_⟩
  simp [Custody.saved, h.keeps, h.moved]

/-- Whatever a capability is up to, a moved task stays released. -/
theorem released_kept (sup : Supervisor) (taskId : TaskId) :
    KeptByCalls (custody sup).logic (fun t => t.taskId = taskId ∧ sup.accepts t = true)
      (Released taskId) where
  monotone := (custody sup).logic_monotone
  outOfFuel _ _ := trivial
  identifies task t hid hname hcapability h := by
    refine ⟨hid.trans h.1, ?_⟩
    rw [Supervisor.accepts, hname, hcapability]
    exact h.2
  calls c v hc hsave h := by
    cases c with
    | storeSave t =>
        have ht := hsave t rfl
        exact ⟨⟨.inl (ht.1 ▸ h.hand), fun _ => ht.2⟩, fun _ _ => h.saved ht.1⟩
    | entered | left | runTaskEntered | uuid4 | storeGet | enqueue | dequeue => cases hc
    | emit t event =>
        refine ⟨trivial, fun answer _ => ?_⟩
        cases answer with
        | ok value => exact h
        | error e => exact ⟨h.hand, h.keeps, h.moved⟩
    | _ =>
        refine ⟨trivial, fun answer _ => ?_⟩
        cases answer with
        | ok value => exact h
        | error e => exact ⟨h.hand, h.keeps, h.moved⟩

/-- A task in hand that the guardrails have accepted. -/
structure Ready (sup : Supervisor) (task : TaskRecord) (v : Custody) : Prop
    extends InHand task v where
  accepted : sup.accepts task = true

theorem Ready.version (hready : Ready sup task v) {t : TaskRecord}
    (hid : t.taskId = task.taskId) (hname : t.name = task.name)
    (hcapability : t.capability = task.capability) : Ready sup t v := by
  refine ⟨hready.toInHand.version hid, ?_⟩
  rw [Supervisor.accepts, hname, hcapability]
  exact hready.accepted

theorem Ready.registered (hready : Ready sup task v) :
    task.capability ∈ sup.registry.capabilities := by
  have haccepted := hready.accepted
  simp only [Supervisor.accepts, Bool.and_eq_true, decide_eq_true_eq] at haccepted
  exact haccepted.2

theorem Ready.released (hready : Ready sup task v) (hmoved : v.owed = false) :
    (task.taskId = task.taskId ∧ sup.accepts task = true) ∧ Released task.taskId v :=
  ⟨⟨rfl, hready.accepted⟩, hready.hand, hready.keeps, hmoved⟩

/-- Statements that keep the task in hand and raise only what a call raised. -/
def Watched (sup : Supervisor) {α : Type} (m : TaskBlock α) : Prop :=
  ∀ ⦃task v⦄, Ready sup task v → m.wp (custody sup).logic
    (fun outcome t v' => Ready sup t v' ∧ ((∃ e, outcome = .error e) → v'.Excused)) task v

namespace Watched

variable {α β : Type}

theorem pure (value : α) : Watched sup (Pure.pure value : TaskBlock α) :=
  fun _ _ hready => ⟨hready, by simp⟩

theorem object : Watched sup object :=
  fun _ _ hready => ⟨hready, by simp⟩

theorem mutate {f : TaskRecord → TaskRecord} (hid : ∀ task, (f task).taskId = task.taskId)
    (hname : ∀ task, (f task).name = task.name)
    (hcapability : ∀ task, (f task).capability = task.capability) :
    Watched sup (Block.mutate f) :=
  fun task _ hready => ⟨hready.version (hid task) (hname task) (hcapability task), by simp⟩

/-- A call that any operation may make. -/
theorem ask {c : Call} (hc : c.beside = true) : Watched sup (ask c) := by
  intro task v hready
  rw [wp_ask]
  constructor
  · cases c <;> trivial
  intro answer _
  cases answer with
  | ok value =>
      refine ⟨?_, by simp⟩
      cases c <;> first | exact hready | cases hc
  | error e =>
      obtain ⟨hheld, hexcused⟩ := hready.toInHand.disturbed
      cases c <;> first | exact ⟨⟨hheld, hready.accepted⟩, fun _ => hexcused⟩ | cases hc

theorem bind {m : TaskBlock α} {f : α → TaskBlock β} (hm : Watched sup m)
    (hf : ∀ value, Watched sup (f value)) : Watched sup (m >>= f) := by
  intro task v hready
  rw [wp_bind]
  refine wp_mono (custody sup).logic_monotone ?_ (hm hready)
  rintro outcome t v' ⟨hready, hexcused⟩
  cases outcome with
  | error e => exact ⟨hready, fun _ => hexcused ⟨e, rfl⟩⟩
  | ok value => exact hf value hready

end Watched

/-! ### From the record read to the first attempt -/

/-- A note in the audit trail keeps the task in hand. -/
theorem noted_watched (actor action : String) (fromStatus toStatus : Option TaskStatus)
    (metadata : Dict) :
    Watched sup (do
      appendAudit actor action fromStatus toStatus metadata none
      saveTask none) := by
  intro task v hready
  refine (custody_timeless sup).wp_note ?_
  rintro ts saved t rfl
  have hready := hready.version (t := task.noted ⟨ts, actor, action, fromStatus, toStatus,
    metadata⟩ saved) rfl rfl rfl
  refine ⟨⟨.inl hready.hand, fun _ => hready.accepted⟩, ?_, by simp⟩
  exact ⟨hready.toInHand.saved _, hready.accepted⟩

/-- A transition out of the waiting statuses releases the task. -/
theorem released_transition {toStatus : TaskStatus} {actor action : String}
    {eventType : EventType} {metadata : Dict} {error : Option String} {timestamp : Option Time}
    (hstatus : toStatus.waiting = false) (hready : Ready sup task v) :
    (transitionStatus toStatus actor action eventType metadata error timestamp).wp
      (custody sup).logic (fun _ t v' => Ready sup t v' ∧ v'.owed = false ∧
        t.status = toStatus) task v := by
  refine (custody_timeless sup).wp_transitionStatus ?_ ?_ ?_
  · exact fun ts => ⟨.inl hready.hand, fun _ => hready.accepted⟩
  · exact fun _ _ _ _ => trivial
  · rintro ts t rfl ts' answer outcome -
    have hready := hready.version (t := task.transitioned toStatus actor action metadata ts)
      rfl rfl rfl
    have hsaved := hready.toInHand.saved (task.transitioned toStatus actor action metadata ts)
    have hmoved : (v.saved (task.transitioned toStatus actor action metadata ts)).owed = false := by
      simp [Custody.saved, TaskRecord.transitioned, hstatus]
    cases answer with
    | ok value => exact ⟨⟨hsaved, hready.accepted⟩, hmoved, rfl⟩
    | error e => exact ⟨⟨hsaved.interrupted e, hready.accepted⟩, hmoved, rfl⟩

theorem applyPeerSuggestion_watched : Watched sup (applyPeerSuggestion sup) := by
  unfold applyPeerSuggestion
  split
  · refine .bind .object fun task => ?_
    refine .bind ?_ fun suggestions => ?_
    · intro task v hready
      rw [wp_ask]
      refine ⟨trivial, ?_⟩
      intro answer _
      cases answer with
      | ok value => exact ⟨hready, by simp⟩
      | error e =>
          obtain ⟨hheld, hexcused⟩ := hready.toInHand.disturbed
          exact ⟨⟨hheld, hready.accepted⟩, fun _ => hexcused⟩
    · cases suggestions with
      | nil => exact .pure ()
      | cons best rest =>
          refine .bind (.mutate (fun _ => rfl) (fun _ => rfl) fun _ => rfl) fun _ => ?_
          exact noted_watched _ _ _ _ _
  · exact .pure ()

theorem waitForExecutionWindow_watched {capability : String}
    (hregistered : capability ∈ sup.registry.capabilities) :
    Watched sup (waitForExecutionWindow sup capability) := by
  unfold waitForExecutionWindow CapabilityRegistry.executionControls
  rw [if_pos hregistered]
  refine .bind (.pure _) fun controls => ?_
  split
  · exact .pure ()
  refine .bind (.ask rfl) fun now => ?_
  refine .bind (.ask rfl) fun previousStart => ?_
  split
  · exact .ask rfl
  dsimp only
  split
  · refine .bind (.ask rfl) fun _ => ?_
    exact .bind (.ask rfl) fun _ => .ask rfl
  · exact .ask rfl

/-- A started task is released; before that only a call can have raised. -/
theorem startTask_released (hready : Ready sup task v) :
    (startTask sup).wp (custody sup).logic (fun outcome t v' => Ready sup t v' ∧
      v'.Excused ∧ ((∃ started, outcome = .ok started) → v'.owed = false)) task v := by
  have hL := (custody sup).logic_monotone
  unfold startTask CapabilityRegistry.executionControls
  rw [wp_bind, wp_object]
  dsimp only
  rw [if_pos hready.registered, wp_bind, wp_ofExcept]
  dsimp only
  rw [wp_bind]
  refine wp_mono hL ?_ (waitForExecutionWindow_watched hready.registered hready)
  rintro outcome t v₁ ⟨hready, hexcused⟩
  cases outcome with
  | error e => exact ⟨hready, hexcused ⟨e, rfl⟩, by simp⟩
  | ok waited =>
      dsimp only
      rw [wp_bind]
      refine wp_mono hL ?_ (Watched.ask rfl hready)
      rintro outcome t v₂ ⟨hready, hexcused⟩
      cases outcome with
      | error e => exact ⟨hready, hexcused ⟨e, rfl⟩, by simp⟩
      | ok startedAt =>
          dsimp only
          rw [wp_bind, wp_mutate]
          dsimp only
          rw [wp_bind, wp_object]
          dsimp only
          rw [wp_bind]
          refine wp_mono hL ?_ (released_transition rfl (hready.version rfl rfl rfl))
          rintro outcome t v₃ ⟨hready, hmoved, -⟩
          cases outcome with
          | error e => exact ⟨hready, .inl hmoved, by simp⟩
          | ok started => exact ⟨hready, .inl hmoved, fun _ => hmoved⟩

/-- However the work on an accepted task ends, nothing is owed or a call
raised. -/
theorem executeTask_excused {fuel : Nat} {capability : String} (hready : Ready sup task v) :
    (executeTask sup fuel capability).wp (custody sup).logic (fun _ _ v' => v'.Excused)
      task v := by
  have hL := (custody sup).logic_monotone
  unfold executeTask
  rw [wp_bind]
  refine wp_mono hL ?_ (applyPeerSuggestion_watched hready)
  rintro outcome t v₁ ⟨hready, hexcused⟩
  cases outcome with
  | error e => exact hexcused ⟨e, rfl⟩
  | ok suggested =>
      dsimp only
      rw [wp_bind]
      refine wp_mono hL ?_ (startTask_released hready)
      rintro outcome t v₂ ⟨hready, hexcused, hmoved⟩
      cases outcome with
      | error e => exact hexcused
      | ok started =>
          refine wp_mono hL ?_ ((released_kept sup t.taskId).taskInvariant.runAttempts fuel
            capability started.1 started.2 (hready.released (hmoved ⟨started, rfl⟩)))
          rintro _ _ _ ⟨-, hreleased⟩
          exact .inl hreleased.moved

/-- A gate leaves the task waiting, releases it, or fails with a call. -/
def AfterWatchedGate (sup : Supervisor) (outcome : Except PyExc Unit) (task : TaskRecord)
    (v : Custody) : Prop :=
  Ready sup task v ∧ ((∃ e, outcome = .error e) → v.Excused) ∧
    (task.status ≠ .pending → v.owed = false)

theorem applyPolicy_watched {decision : PolicyDecision} (hready : Ready sup task v)
    (hpending : task.status = .pending) :
    (applyPolicy sup decision).wp (custody sup).logic (AfterWatchedGate sup) task v := by
  have hL := (custody sup).logic_monotone
  have hclosed (outcome : Except PyExc Unit) {t : TaskRecord} {v' : Custody}
      (hready : Ready sup t v') (hmoved : v'.owed = false) : AfterWatchedGate sup outcome t v' :=
    ⟨hready, fun _ => .inl hmoved, fun _ => hmoved⟩
  unfold applyPolicy
  dsimp only
  split
  · rw [wp_bind, (custody_timeless sup).wp_now]
    intro deniedAt
    dsimp only
    rw [wp_bind, wp_mutate]
    refine wp_mono hL ?_ (released_transition rfl (hready.version rfl rfl rfl))
    exact fun outcome _ _ h => hclosed outcome h.1 h.2.1
  · refine wp_mono hL ?_ (released_transition rfl hready)
    exact fun outcome _ _ h => hclosed outcome h.1 h.2.1
  · refine (custody_timeless sup).wp_note ?_
    rintro ts saved t rfl
    refine ⟨⟨.inl hready.hand, fun _ => hready.accepted⟩, ⟨hready.toInHand.saved _,
      hready.accepted⟩, by simp, ?_⟩
    exact fun hstatus => absurd hpending hstatus

theorem gatePending_watched (hready : Ready sup task v) (hpending : task.status = .pending) :
    (gatePending sup task.capability).wp (custody sup).logic (AfterWatchedGate sup) task v := by
  have hL := (custody sup).logic_monotone
  have hraised {v' : Custody} (e : PyExc) (hready : Ready sup task v') :
      AfterWatchedGate sup (.error e) task v'.disturbed := by
    obtain ⟨hheld, hexcused⟩ := hready.toInHand.disturbed
    exact ⟨⟨hheld, hready.accepted⟩, fun _ => hexcused, fun hstatus => absurd hpending hstatus⟩
  unfold gatePending
  rw [wp_bind, wp_ask]
  refine ⟨trivial, ?_⟩
  intro answer _
  cases answer with
  | error e => exact hraised e hready
  | ok descriptor =>
      dsimp only
      split
      · rw [wp_bind, wp_object]
        refine wp_mono hL ?_ (released_transition rfl hready)
        exact fun outcome _ _ h => ⟨h.1, fun _ => .inl h.2.1, fun _ => h.2.1⟩
      · rw [wp_bind, wp_ask]
        refine ⟨trivial, ?_⟩
        intro answer _
        cases answer with
        | error e => exact hraised e hready
        | ok current =>
            dsimp only
            rw [wp_bind, wp_object]
            dsimp only
            rw [wp_bind, wp_ask]
            refine ⟨trivial, ?_⟩
            intro answer _
            cases answer with
            | error e => exact hraised e hready
            | ok decision => exact applyPolicy_watched hready hpending

theorem Supervisor.accepts_iff (sup : Supervisor) (task : TaskRecord) :
    sup.accepts task = true ↔ sup.Admits (buildSubmission task) := by
  simp [accepts, Admits, buildSubmission, and_assoc]

/-- The guardrails raise nothing for an accepted task, unless the capability
does, and they pass accepted tasks only. -/
theorem validateTaskSubmission_watched (sup : Supervisor) (hheld : InHand task v)
    (howed : v.owed = true → sup.accepts task = true) :
    (validateTaskSubmission sup (buildSubmission task)).wp (custody sup).logic
      (fun outcome t v' => t = task ∧ InHand task v' ∧
        ((∃ e, outcome = .error e) → v'.Excused) ∧
        ∀ capability, outcome = .ok capability →
          capability = task.capability ∧ sup.accepts task = true) task v := by
  refine wp_validateTaskSubmission (fun hrejected e => ?_) fun hadmitted => ⟨trivial, ?_⟩
  · refine ⟨rfl, hheld, fun _ => .inl ?_, nofun⟩
    cases hv : v.owed with
    | false => rfl
    | true => exact absurd ((sup.accepts_iff task).mp (howed hv)) hrejected
  · intro answer _
    cases answer with
    | error e =>
        obtain ⟨hheld, hexcused⟩ := hheld.disturbed
        exact ⟨rfl, hheld, fun _ => hexcused, nofun⟩
    | ok payload =>
        refine ⟨rfl, hheld, nofun, ?_⟩
        rintro capability ⟨⟩
        exact ⟨rfl, (sup.accepts_iff task).mpr hadmitted⟩

/-- `run_task` on a record that waits if it is owed anything. -/
theorem runLoadedTask_excused (fuel : Nat) (hheld : InHand task v)
    (howed : v.owed = true → task.status.waiting = true ∧ sup.accepts task = true) :
    (runLoadedTask sup fuel).wp (custody sup).logic (fun _ _ v' => v'.Excused) task v := by
  have hL := (custody sup).logic_monotone
  have hvalid := validateTaskSubmission_watched sup hheld fun h => (howed h).2
  unfold runLoadedTask
  rw [wp_bind, wp_object]
  dsimp only
  split
  · rename_i hpending
    rw [wp_bind]
    refine wp_mono hL ?_ hvalid
    rintro outcome _ v₁ ⟨rfl, hheld, hexcused, haccepted⟩
    cases outcome with
    | error e => exact hexcused ⟨e, rfl⟩
    | ok capability =>
        obtain ⟨rfl, haccepts⟩ := haccepted capability rfl
        dsimp only
        rw [wp_bind]
        refine wp_mono hL ?_ (gatePending_watched ⟨hheld, haccepts⟩ hpending)
        rintro outcome t v₂ ⟨hready, hexcused, hmoved⟩
        cases outcome with
        | error e => exact hexcused ⟨e, rfl⟩
        | ok gated =>
            dsimp only
            rw [wp_bind, wp_object]
            dsimp only
            split
            · exact executeTask_excused hready
            · rename_i hstatus
              exact .inl (hmoved hstatus)
  split
  · rw [wp_bind]
    refine wp_mono hL ?_ hvalid
    rintro outcome _ v₁ ⟨rfl, hheld, hexcused, haccepted⟩
    cases outcome with
    | error e => exact hexcused ⟨e, rfl⟩
    | ok capability => exact executeTask_excused ⟨hheld, (haccepted capability rfl).2⟩
  · rename_i hpending happroved
    refine .inl ?_
    cases hv : v.owed with
    | false => rfl
    | true =>
        rcases (TaskStatus.waiting_iff _).mp (howed hv).1 with hstatus | hstatus
        · exact absurd hstatus hpending
        · exact absurd hstatus happroved

/-! ### The operations -/

theorem runTask_excused {fuel : Nat} {taskId : TaskId} (hhand : v.hand = some taskId)
    (hkeeps : v.operation.any Operation.enqueues = false)
    (htaken : v.owed = true → v.operation.any Operation.dequeues = true) :
    (runTask sup fuel taskId).wp (custody sup).logic (fun _ _ v' => v'.Excused) () v := by
  have hL := (custody sup).logic_monotone
  unfold runTask getTask
  rw [wp_bind, wp_ask]
  refine ⟨trivial, ?_⟩
  intro answer _
  cases answer with
  | error e =>
      have hheld : InHand { foundTask .pending with taskId := taskId } v := ⟨hhand, hkeeps, htaken⟩
      exact hheld.disturbed.2
  | ok marked =>
      dsimp only
      rw [wp_bind, wp_bind, wp_ask]
      refine ⟨fun _ => hhand, ?_⟩
      rintro answer ⟨found, rfl, hfound⟩
      cases found with
      | none => exact .inl (Bool.and_false _)
      | some task =>
          have hid : task.taskId = taskId := hfound task rfl
          dsimp only
          rw [wp_pure]
          dsimp only
          rw [wp_bind, wp_on]
          refine wp_mono hL ?_ (runLoadedTask_excused fuel ⟨hid ▸ hhand, hkeeps, ?_⟩ ?_)
          · rintro (e | ran) t v' hexcused <;> exact hexcused
          · intro howed
            exact htaken (Bool.and_eq_true_iff.mp howed).1
          · intro howed
            have hwaits := (Bool.and_eq_true_iff.mp howed).2
            exact Bool.and_eq_true_iff.mp hwaits

/-- The first version of a task is accepted, and in hand when it is saved. -/
theorem createTaskRecord_custody {op : Operation} {submission : TaskSubmission}
    {enqueue : Bool} (henqueue : enqueue = op.enqueues) (hnamed : op.named = none) :
    (createTaskRecord sup submission enqueue).wp (custody sup).logic (fun outcome _ v' =>
      v'.Excused ∧ (enqueue = false → ∀ task, outcome = .ok task →
        v'.operation = some op ∧ v'.hand = some task.taskId ∧ v'.owed = false))
      () (.entered op) := by
  unfold createTaskRecord
  rw [wp_bind]
  refine wp_validateTaskSubmission (fun _ e => ⟨.inl rfl, by simp⟩) fun hadmitted => ⟨trivial, ?_⟩
  intro answer _
  cases answer with
  | error e => exact ⟨.inl rfl, by simp⟩
  | ok payload =>
      dsimp only [Except.map]
      rw [wp_bind, wp_ask]
      refine ⟨trivial, ?_⟩
      rintro answer ⟨taskId, rfl⟩
      dsimp only
      rw [wp_bind, (custody_timeless sup).wp_now]
      intro createdAt
      dsimp only
      rw [wp_bind, (custody_timeless sup).wp_now]
      intro updatedAt
      dsimp only
      rw [wp_bind, wp_on]
      simp only [appendAudit, timestampOrNow, wp_bind, wp_pure, wp_mutate, wp_object,
        (custody_timeless sup).wp_storeSave]
      refine ⟨⟨.inr ⟨hnamed, rfl, .inl rfl⟩, fun _ => (sup.accepts_iff _).mpr hadmitted⟩, ?_⟩
      split
      · rename_i hqueued
        rw [wp_bind, wp_ask]
        refine ⟨⟨rfl, (Custody.owed_saved rfl rfl (.inl rfl)).trans (henqueue ▸ hqueued)⟩, ?_⟩
        intro answer _
        cases answer with
        | error e => exact ⟨.inl rfl, by simp⟩
        | ok queued => exact ⟨.inl rfl, fun hskipped => by simp [hqueued] at hskipped⟩
      · rename_i hskipped
        have hskipped : op.enqueues = false := by simpa [henqueue] using hskipped
        refine ⟨.inl ((Custody.owed_saved rfl rfl (.inl rfl)).trans hskipped), ?_⟩
        rintro - task ⟨⟩
        exact ⟨rfl, rfl, (Custody.owed_saved rfl rfl (.inl rfl)).trans hskipped⟩

/-- An event leaves the task in the hands of its operation. -/
theorem Custody.after_emit (sup : Supervisor) (v : Custody) {t : TaskRecord} {event : TaskEvent}
    (answer : Answer (.emit t event)) :
    (v.after sup (.emit t event) answer).operation = v.operation ∧
      (v.after sup (.emit t event) answer).hand = v.hand ∧
      (v.after sup (.emit t event) answer).owed = v.owed := by
  cases answer <;> exact ⟨rfl, rfl, rfl⟩

/-- An approved task is in the hands of its approval, which owes it a place in
the queue or runs it. -/
theorem approved_custody {taskId : TaskId} {actor : String} {metadata : Option Dict}
    {run : Bool} (hid : task.taskId = taskId) :
    (transitionStatus .approved actor "approved" .taskApproved (metadata.getD []) none none).wp
      (custody sup).logic (fun outcome _ v' => ((∃ e, outcome = .error e) → v'.Excused) ∧
        v'.operation = some (.approveTask taskId actor metadata run) ∧
          v'.hand = some taskId ∧ v'.owed = !run)
      task (.entered (.approveTask taskId actor metadata run)) := by
  refine (custody_timeless sup).wp_transitionStatus ?_ (fun _ _ _ _ => trivial) ?_
  · exact fun ts => ⟨.inr ⟨rfl, rfl, .inr (.inl (by simp))⟩, by simp⟩
  rintro ts t rfl ts' answer outcome hescapes
  have howed : (Custody.saved (.entered (.approveTask taskId actor metadata run))
      (task.transitioned .approved actor "approved" (metadata.getD []) ts)).owed =
        Operation.enqueues (.approveTask taskId actor metadata run) :=
    Custody.owed_saved rfl rfl (.inr (TaskRecord.lastAction_transitioned ..))
  obtain ⟨hoperation, hhand, hsame⟩ := Custody.after_emit sup _ answer
  refine ⟨?_, hoperation, hhand.trans (congrArg some hid), hsame.trans howed⟩
  rintro ⟨e, rfl⟩
  obtain ⟨rfl, hinterrupt⟩ := hescapes e rfl
  exact .inr (by simp [Custody.after, custody, Custody.interrupted, hinterrupt])

theorem approveTask_excused {fuel : Nat} {taskId : TaskId} {actor : String}
    {metadata : Option Dict} {run : Bool} :
    (approveTask sup fuel taskId actor metadata run).wp (custody sup).logic
      (fun _ _ v' => v'.Excused) () (.entered (.approveTask taskId actor metadata run)) := by
  unfold approveTask getTask
  rw [wp_bind, wp_bind, wp_ask]
  refine ⟨fun howed => absurd howed Bool.false_ne_true, ?_⟩
  rintro answer ⟨found, rfl, hfound⟩
  cases found with
  | none => exact .inl rfl
  | some task =>
      dsimp only
      rw [wp_pure]
      dsimp only
      split
      · rw [wp_bind, wp_on]
        refine wp_mono (custody sup).logic_monotone ?_ (approved_custody (hfound task rfl))
        rintro outcome t v ⟨hexcused, hoperation, hhand, howed⟩
        cases outcome with
        | error e => exact hexcused ⟨e, rfl⟩
        | ok announced =>
            dsimp only
            split
            · rename_i hrun
              subst hrun
              exact runTask_excused hhand (by rw [hoperation]; rfl)
                fun h => absurd (h.symm.trans howed) (by decide)
            · rename_i hrun
              rw [wp_bind, wp_ask]
              refine ⟨⟨hhand, by simpa [hrun] using howed⟩, ?_⟩
              intro answer _
              cases answer <;> exact .inl rfl
      · exact .inl rfl

theorem cancelTask_excused {taskId : TaskId} {actor : String} {reason : Option String}
    {metadata : Option Dict} :
    (cancelTask taskId actor reason metadata).wp (custody sup).logic
      (fun _ _ v' => v'.Excused) () (.entered (.cancelTask taskId actor reason metadata)) := by
  unfold cancelTask getTask
  rw [wp_bind, wp_bind, wp_ask]
  refine ⟨fun howed => absurd howed Bool.false_ne_true, ?_⟩
  rintro answer ⟨found, rfl, -⟩
  cases found with
  | none => exact .inl rfl
  | some task =>
      dsimp only
      rw [wp_pure]
      dsimp only
      split
      · rw [wp_bind, (custody_timeless sup).wp_now]
        intro cancelledAt
        dsimp only
        rw [wp_bind, wp_on]
        refine (custody_timeless sup).wp_transitionStatus ?_ (fun _ _ _ _ => trivial) ?_
        · exact fun ts => ⟨.inr ⟨rfl, rfl, .inr (.inr (by simp))⟩, by simp⟩
        rintro ts t rfl ts' answer outcome -
        cases outcome <;> cases answer <;> exact .inl rfl
      · exact .inl rfl

/-- However an operation ends, nothing is owed or a call raised. -/
theorem runOperation_excused (sup : Supervisor) (fuel : Nat) (op : Operation) :
    (runOperation sup fuel op).wp (custody sup).logic (fun _ _ v' => v'.Excused) ()
      (.entered op) := by
  have hL := (custody sup).logic_monotone
  cases op with
  | submit submission =>
      exact wp_mono hL (fun _ _ _ h => h.1) (createTaskRecord_custody rfl rfl)
  | runSubmission submission =>
      unfold runOperation runSubmission
      rw [wp_bind]
      refine wp_mono hL ?_ (createTaskRecord_custody rfl rfl)
      rintro outcome _ v ⟨hexcused, hcreated⟩
      cases outcome with
      | error e => exact hexcused
      | ok task =>
          obtain ⟨hoperation, hhand, howed⟩ := hcreated rfl task rfl
          exact runTask_excused hhand (by rw [hoperation]; rfl)
            fun h => absurd (h.symm.trans howed) (by decide)
  | runNext =>
      unfold runOperation runNext
      rw [wp_bind, wp_ask]
      refine ⟨⟨rfl, rfl⟩, ?_⟩
      intro answer _
      rcases answer with e | _ | taskId
      · exact .inl rfl
      · exact .inl rfl
      · exact runTask_excused rfl rfl fun _ => rfl
  | runTask taskId =>
      exact runTask_excused rfl rfl fun howed => absurd howed Bool.false_ne_true
  | approveTask taskId actor metadata run => exact approveTask_excused
  | cancelTask taskId actor reason metadata => exact cancelTask_excused

/-- Every operation of a client keeps custody. -/
theorem client_custody (sup : Supervisor) (fuel : Nat) (ops : List Operation)
    (howed : v.owed = false) :
    (client sup fuel ops).wp (custody sup).logic (fun _ v' => v'.owed = false) v := by
  have hL := (custody sup).logic_monotone
  induction ops generalizing v with
  | nil => exact howed
  | cons op ops ih =>
      refine ⟨howed, fun _ _ => ?_⟩
      dsimp only
      rw [Prog.wp_bind]
      refine Prog.wp_mono hL ?_ (runOperation_excused sup fuel op)
      intro ended v' hexcused
      exact ⟨hexcused, fun _ _ => ih rfl⟩

/-- The history of every run keeps custody. -/
theorem run_custody (sup : Supervisor) (env : Env) (fuel : Nat) (ops : List Operation)
    (queue : TaskQueue) :
    (custody sup).Lawful (sup.run env fuel ops (.initial queue)).history :=
  Prog.exec_lawful (I := fun k => k.state.store.Keyed) (keyed_step env)
    (fun _ c hkeyed => sound_of_keyed env hkeyed c) MemoryTaskStore.keyed_empty
    (client_custody sup fuel ops rfl) trivial

end Conductor
