/-
What a failed operation leaves behind.  `submit`, `approve_task` without
running and `cancel_task` write to the store, the event bus and the queue one
after the other; the queue comes last and can refuse.
-/
import Conductor.Supervisor.Sequential

namespace Conductor

open Effects Block

/-- The events handed to the bus, the newest first. -/
def emissions : Trace → List TaskEvent
  | [] => []
  | ⟨.emit _ event, _⟩ :: h => event :: emissions h
  | _ :: h => emissions h

/-- The status and the audit trail of a stored task, where there is one. -/
def recorded (k : State) (taskId : TaskId) : Option (TaskStatus × List AuditEntry) :=
  (k.state.store.get taskId).map fun task => (task.status, task.auditTrail)

/-- The same tasks are stored with the same statuses and audit trails, the
queue is the same, and no event was emitted. -/
structure NoTrace (k k' : State) : Prop where
  records : ∀ taskId, recorded k' taskId = recorded k taskId
  queue : k'.state.queue = k.state.queue
  events : emissions k'.history = emissions k.history

theorem NoTrace.of_state {k k' : State} (hstate : k'.state = k.state)
    (hevents : emissions k'.history = emissions k.history) : NoTrace k k' where
  records taskId := by rw [recorded, recorded, hstate]
  queue := by rw [hstate]
  events := hevents

/-- A saved record that changes what is recorded is a trace. -/
theorem not_noTrace_of_save {k k' : State} {task : TaskRecord}
    (hstore : k'.state.store = k.state.store.save task)
    (hbefore : ∀ old, k.state.store.get task.taskId = some old → old.status ≠ task.status) :
    ¬ NoTrace k k' := by
  intro htrace
  have hrecorded := htrace.records task.taskId
  rw [recorded, recorded, hstore, MemoryTaskStore.get_save, if_pos rfl] at hrecorded
  cases hold : k.state.store.get task.taskId with
  | none => simp [hold] at hrecorded
  | some old =>
      rw [hold, Option.map_some, Option.map_some, Option.some.injEq, Prod.mk.injEq] at hrecorded
      exact hbefore old hold hrecorded.1.symm

namespace TaskQueue

/-- The entries, the oldest first. -/
def ids : TaskQueue → List TaskId
  | inMemory queue => queue
  | bounded queue _ => queue

/-- The queue takes no more entries. -/
def full : TaskQueue → Bool
  | inMemory _ => false
  | bounded queue maxSize => decide (maxSize ≤ queue.length)

theorem enqueue_full {queue : TaskQueue} (hfull : queue.full = true) (taskId : TaskId) :
    ∃ e, queue.enqueue taskId = .error e := by
  cases queue with
  | inMemory queue => cases hfull
  | bounded queue maxSize => exact ⟨_, if_pos (of_decide_eq_true hfull)⟩

theorem enqueue_room {queue : TaskQueue} (hroom : queue.full = false) (taskId : TaskId) :
    ∃ queue', queue.enqueue taskId = .ok queue' := by
  cases queue with
  | inMemory queue => exact ⟨_, rfl⟩
  | bounded queue maxSize => exact ⟨_, if_neg (of_decide_eq_false hroom)⟩

end TaskQueue

/-- The last call of the operation was the enqueue, and the queue refused. -/
def QueueRefused (k k' : State) : Prop :=
  ∃ taskId e new, k'.history = ⟨.enqueue taskId, .error e⟩ :: (new ++ k.history)

/-- The last call of the operation was an emit that raised what `except
Exception` does not catch. -/
def Interrupted (k k' : State) : Prop :=
  ∃ task event e new, k'.history = ⟨.emit task event, .error e⟩ :: (new ++ k.history) ∧
    e.isException = false

/-- An operation that makes no call is neither refused nor interrupted. -/
theorem not_refused_self (k : State) : ¬ QueueRefused k k ∧ ¬ Interrupted k k := by
  have hlonger (e : Event Call Answer) (new : Trace) : k.history ≠ e :: (new ++ k.history) := by
    intro hhistory
    have hlength := congrArg List.length hhistory
    simp only [List.length_cons, List.length_append] at hlength
    omega
  constructor
  · rintro ⟨taskId, e, new, hhistory⟩
    exact hlonger _ new hhistory
  · rintro ⟨task, event, e, new, hhistory, -⟩
    exact hlonger _ new hhistory

/-- The last call tells whether an operation was refused or interrupted. -/
theorem not_refused_of_last {k k' : State} {c : Call} {answer : Answer c} {h : Trace}
    (hlast : k'.history = ⟨c, answer⟩ :: h) (hqueue : ∀ taskId, c ≠ .enqueue taskId) :
    ¬ QueueRefused k k' := by
  rintro ⟨taskId, e, new, hhistory⟩
  have hsame := (List.cons.inj (hlast.symm.trans hhistory)).1
  exact hqueue taskId (congrArg Event.call hsame)

theorem not_interrupted_of_last {k k' : State} {c : Call} {answer : Answer c} {h : Trace}
    (hlast : k'.history = ⟨c, answer⟩ :: h) (hemit : ∀ task event, c ≠ .emit task event) :
    ¬ Interrupted k k' := by
  rintro ⟨task, event, e, new, hhistory, -⟩
  have hsame := (List.cons.inj (hlast.symm.trans hhistory)).1
  exact hemit task event (congrArg Event.call hsame)

/-- A full queue answers with an exception. -/
theorem step_enqueue_full (env : Env) {k : State} (hfull : k.state.queue.full = true)
    (taskId : TaskId) : ∃ e, env.machine.step k (.enqueue taskId) =
      (.error e, ⟨⟨.enqueue taskId, .error e⟩ :: k.history, k.state⟩) := by
  obtain ⟨e, he⟩ := TaskQueue.enqueue_full hfull taskId
  refine ⟨e, ?_⟩
  simp only [Machine.step, Env.machine, Env.respond, he]

theorem step_enqueue_room (env : Env) {k : State} (hroom : k.state.queue.full = false)
    (taskId : TaskId) : ∃ queue, env.machine.step k (.enqueue taskId) =
      (.ok (), ⟨⟨.enqueue taskId, .ok ()⟩ :: k.history, { k.state with queue := queue }⟩) := by
  obtain ⟨queue, hqueue⟩ := TaskQueue.enqueue_room hroom taskId
  refine ⟨queue, ?_⟩
  simp only [Machine.step, Env.machine, Env.respond, hqueue]

/-- The submission passes the guardrails and the capability's own validation. -/
def Accepted (sup : Supervisor) (env : Env) (k : State) (submission : TaskSubmission) : Prop :=
  isBlank submission.name = false ∧ isBlank submission.capability = false ∧
    submission.capability ∈ sup.registry.capabilities ∧
      ∃ payload, env.validateInput k.history submission.capability submission.input = .ok payload

/-- How `submit` can end. -/
inductive SubmitEnds (sup : Supervisor) (env : Env) (submission : TaskSubmission) (k : State) :
    Except PyExc TaskRecord → State → Prop
  | rejected (e : PyExc) (k' : State) (hrejected : ¬ Accepted sup env k submission)
      (hstate : k'.state = k.state) (hevents : emissions k'.history = emissions k.history)
      (hquiet : ¬ QueueRefused k k') (hcalm : ¬ Interrupted k k') :
      SubmitEnds sup env submission k (.error e) k'
  | refused (e : PyExc) (k' : State) (task : TaskRecord) (haccepted : Accepted sup env k submission)
      (hfull : k.state.queue.full = true) (hnew : k.state.store.get task.taskId = none)
      (hstore : k'.state.store = k.state.store.save task) (hlast : QueueRefused k k')
      (hcalm : ¬ Interrupted k k') :
      SubmitEnds sup env submission k (.error e) k'
  | queued (k' : State) (task : TaskRecord) (haccepted : Accepted sup env k submission)
      (hroom : k.state.queue.full = false) (hquiet : ¬ QueueRefused k k')
      (hcalm : ¬ Interrupted k k') :
      SubmitEnds sup env submission k (.ok task) k'

variable {sup : Supervisor} {env : Env}

/-- What was called in between wrote nothing, emitted nothing and left the
queue alone. -/
structure Unmarked (k k' : State) : Prop where
  state : k'.state = k.state
  events : emissions k'.history = emissions k.history
  stored : ∀ taskId, stored k'.history taskId = stored k.history taskId
  extends_history : ∃ new, k'.history = new ++ k.history
  silent : ¬ QueueRefused k k'
  calm : ¬ Interrupted k k'

theorem Unmarked.refl (k : State) : Unmarked k k where
  state := rfl
  events := rfl
  stored _ := rfl
  extends_history := ⟨[], rfl⟩
  silent := (not_refused_self k).1
  calm := (not_refused_self k).2

theorem Unmarked.validateInput (env : Env) (k : State) (capability : String) (input : Dict) :
    Unmarked k (env.machine.step k (.validateInput capability input)).2 where
  state := rfl
  events := rfl
  stored _ := rfl
  extends_history := ⟨[_], rfl⟩
  silent := not_refused_of_last rfl (by simp)
  calm := not_interrupted_of_last rfl (by simp)

/-- The guardrails raise exactly where the submission is not accepted. -/
theorem wp_validateTaskSubmission_machine (submission : TaskSubmission) (k : State) :
    (validateTaskSubmission sup submission : OpBlock String).wp
      (env.machine.logic fun _ => False) (fun outcome _ k' => Unmarked k k' ∧
        ((∃ capability, outcome = .ok capability) ↔ Accepted sup env k submission)) () k := by
  refine wp_validateTaskSubmission (fun hrejected e => ⟨.refl k, by simp, fun h => ?_⟩)
    fun hadmitted => ?_
  · exact absurd ⟨h.1, h.2.1, h.2.2.1⟩ hrejected
  · have hunmarked := Unmarked.validateInput env k submission.capability submission.input
    have hvalidate : env.machine.step k (.validateInput submission.capability submission.input) =
        (env.validateInput k.history submission.capability submission.input, _) := rfl
    refine Machine.call_of_step hvalidate ⟨hunmarked, ?_⟩
    obtain ⟨hname, hcapability, hregistered⟩ := hadmitted
    cases hanswer : env.validateInput k.history submission.capability submission.input with
    | error e =>
        refine ⟨by simp [Except.map], ?_⟩
        rintro ⟨-, -, -, payload, hpayload⟩
        simp [hanswer] at hpayload
    | ok payload =>
        exact ⟨fun _ => ⟨hname, hcapability, hregistered, payload, hanswer⟩, fun _ => ⟨_, rfl⟩⟩

/-- No submission is queued that the guardrails reject. -/
theorem submit_ends (hunique : UniqueIds env) (submission : TaskSubmission) {k : State}
    (hstored : ∀ taskId, k.state.store.get taskId = stored k.history taskId) :
    (submit sup submission).wp (env.machine.logic fun _ => False)
      (fun outcome _ k' => SubmitEnds sup env submission k outcome k') () k := by
  unfold submit createTaskRecord
  rw [wp_bind]
  refine wp_mono (env.machine.logic_monotone _) ?_
    (wp_validateTaskSubmission_machine submission k)
  rintro (e | capability) _ k₁ ⟨hunmarked, haccepts⟩
  · have hrejected : ¬ Accepted sup env k submission := fun h => by simpa using haccepts.mpr h
    exact .rejected _ _ hrejected hunmarked.state hunmarked.events hunmarked.silent hunmarked.calm
  · have haccepted := haccepts.mp ⟨capability, rfl⟩
    let taskId := env.uuid4 k₁.history
    have hnew : k.state.store.get taskId = none := by
      rw [hstored, ← hunmarked.stored]
      exact hunique k₁.history
    simp only [wp_bind, wp_pure, wp_ask, wp_on, wp_mutate, wp_object, now, appendAudit,
      timestampOrNow, Machine.logic]
    -- The clock is read once for each of the two times of the record.
    let k₂ := (env.machine.step k₁ .uuid4).2
    let k₃ := (env.machine.step k₂ .now).2
    let k₄ := (env.machine.step k₃ .now).2
    let task : TaskRecord := { newTaskRecord submission taskId (env.now k₂.history)
      (env.now k₃.history) with
        auditTrail := [⟨env.now k₂.history, "supervisor", "submitted", none, some .pending,
          [("max_retries", .int submission.maxRetries)]⟩] }
    let k₅ : State := (env.machine.step k₄ (.storeSave task)).2
    have hstore : k₅.state.store = k.state.store.save task :=
      congrArg (MemoryTaskStore.save · task) (congrArg World.store hunmarked.state)
    have hqueue : k₅.state.queue = k.state.queue := (congrArg World.queue hunmarked.state :)
    change wp (env.machine.logic fun _ => False) (do
      ask (.enqueue task.taskId)
      pure task : OpBlock TaskRecord) _ () k₅
    rw [wp_bind, wp_ask]
    cases hfull : k.state.queue.full with
    | true =>
        obtain ⟨e, hstep⟩ := step_enqueue_full env (hqueue ▸ hfull) task.taskId
        refine Machine.call_of_step hstep ?_
        obtain ⟨before, hbefore⟩ := hunmarked.extends_history
        have hlonger : ∃ new, k₅.history = new ++ k.history := by
          change ∃ new, _ :: _ :: _ :: _ :: k₁.history = new ++ k.history
          rw [hbefore]
          exact ⟨_ :: _ :: _ :: _ :: before, rfl⟩
        obtain ⟨new, hhistory⟩ := hlonger
        exact .refused _ _ task haccepted hfull hnew hstore
          ⟨task.taskId, e, new, congrArg (_ :: ·) hhistory⟩ (not_interrupted_of_last rfl (by simp))
    | false =>
        obtain ⟨queue, hstep⟩ := step_enqueue_room env (hqueue ▸ hfull) task.taskId
        refine Machine.call_of_step hstep ?_
        refine .queued _ task haccepted hfull ?_ (not_interrupted_of_last rfl (by simp))
        rintro ⟨taskId, e, new, hhistory⟩
        cases (List.cons.inj hhistory).1

/-- A transition saves the record and ends with the event; it raises what the
bus raises beside `Exception`s. -/
structure Transitioned (k : State) (task : TaskRecord) (outcome : Except PyExc Unit)
    (k' : State) : Prop where
  state : k'.state = { k.state with store := k.state.store.save task }
  emitted : ∃ event answer new, k'.history = ⟨.emit task event, answer⟩ :: (new ++ k.history) ∧
    ((∃ e, outcome = .error e) ↔ ∃ e, answer = .error e ∧ e.isException = false)

/-- An operation that ends with an emit is interrupted by what was raised. -/
theorem interrupted_emit_iff {k k' : State} {task : TaskRecord} {event : TaskEvent}
    {answer : Except PyExc Unit} {new : Trace}
    (hlast : k'.history = ⟨.emit task event, answer⟩ :: (new ++ k.history)) :
    Interrupted k k' ↔ ∃ e, answer = .error e ∧ e.isException = false := by
  constructor
  · rintro ⟨task', event', e, new', hhistory, hinterrupt⟩
    have hsame := (List.cons.inj (hlast.symm.trans hhistory)).1
    cases hsame
    exact ⟨e, rfl, hinterrupt⟩
  · rintro ⟨e, rfl, hinterrupt⟩
    exact ⟨task, event, e, new, hlast, hinterrupt⟩

theorem wp_emitEvent_machine (env : Env) (eventType : EventType) (error : Option String)
    (metadata : Dict) (task : TaskRecord) (k : State) :
    (emitEvent eventType error metadata).wp (env.machine.logic fun _ => False)
      (fun outcome t k' => t = task ∧ k'.state = k.state ∧
        (∃ event answer, k'.history =
          ⟨.emit task event, answer⟩ :: ⟨.now, .ok (env.now k.history)⟩ :: k.history ∧
            ((∃ e, outcome = .error e) ↔ ∃ e, answer = .error e ∧ e.isException = false)))
      task k := by
  let k₁ := (env.machine.step k .now).2
  let event := taskEvent task eventType (env.now k.history) error metadata
  have hnow : env.machine.step k .now = (.ok (env.now k.history), k₁) := rfl
  have hemit : env.machine.step k₁ (.emit task event) =
      (env.emit k₁.history event, (env.machine.step k₁ (.emit task event)).2) := rfl
  unfold emitEvent
  rw [wp_tryExcept, wp_bind, now, wp_ask]
  refine Machine.call_of_step hnow ?_
  dsimp only
  rw [wp_bind, wp_object]
  dsimp only
  rw [wp_ask]
  refine Machine.call_of_step hemit ?_
  cases hanswer : env.emit k₁.history event with
  | ok emitted => exact ⟨rfl, rfl, event, env.emit k₁.history event, rfl, by simp [hanswer]⟩
  | error e =>
      dsimp only
      split
      · rename_i hcaught
        exact ⟨rfl, rfl, event, env.emit k₁.history event, rfl, by simp [hanswer, hcaught]⟩
      · rename_i hinterrupt
        exact ⟨rfl, rfl, event, env.emit k₁.history event, rfl, by simp [hanswer, hinterrupt]⟩

theorem wp_transitionStatus_machine (env : Env) (toStatus : TaskStatus) (actor action : String)
    (eventType : EventType) (metadata : Dict) (error : Option String) (timestamp : Option Time)
    (task : TaskRecord) (k : State) :
    (transitionStatus toStatus actor action eventType metadata error timestamp).wp
      (env.machine.logic fun _ => False) (fun outcome _ k' => ∃ ts,
        Transitioned k (task.transitioned toStatus actor action metadata ts) outcome k')
      task k := by
  have hrest (ts : Time) (k₁ : State) (hstate : k₁.state = k.state)
      (hhistory : ∃ new, k₁.history = new ++ k.history) :
      (transitionStatus toStatus actor action eventType metadata error (some ts)).wp
        (env.machine.logic fun _ => False) (fun outcome _ k' => ∃ ts,
          Transitioned k (task.transitioned toStatus actor action metadata ts) outcome k')
        task k₁ := by
    let saved := task.transitioned toStatus actor action metadata ts
    let k₂ := (env.machine.step k₁ (.storeSave saved)).2
    have hsave : env.machine.step k₁ (.storeSave saved) = (.ok (), k₂) := rfl
    simp only [transitionStatus, appendAudit, saveTask, timestampOrNow, wp_bind, wp_pure,
      wp_object, wp_mutate, wp_ask]
    refine Machine.call_of_step hsave ?_
    refine wp_mono (env.machine.logic_monotone _) ?_
      (wp_emitEvent_machine env eventType error metadata saved k₂)
    rintro outcome t k' ⟨-, hstate', event, answer, hlast, hraised⟩
    obtain ⟨new, hnew⟩ := hhistory
    have hlast : k'.history = ⟨.emit saved event, answer⟩ :: (([⟨.now, .ok (env.now k₂.history)⟩,
        ⟨.storeSave saved, .ok ()⟩] ++ new) ++ k.history) := by
      rw [hlast]
      change _ = _ :: _ :: _ :: (new ++ k.history)
      rw [← hnew]
      rfl
    refine ⟨ts, ?_, event, answer, _, hlast, hraised⟩
    rw [hstate', ← hstate]
    rfl
  cases timestamp with
  | some ts => exact hrest ts k rfl ⟨[], rfl⟩
  | none =>
      let k₁ := (env.machine.step k .now).2
      have hnow : env.machine.step k .now = (.ok (env.now k.history), k₁) := rfl
      simp only [transitionStatus, timestampOrNow, now, wp_bind, wp_ask]
      refine Machine.call_of_step hnow ?_
      simpa only [transitionStatus, timestampOrNow, wp_bind, wp_pure] using
        hrest (env.now k.history) k₁ rfl ⟨[⟨.now, .ok (env.now k.history)⟩], rfl⟩

/-- `submit`, `approve_task` with `run=False` and `cancel_task`. -/
def Operation.runsNothing : Operation → Bool
  | .submit _ => true
  | .approveTask _ _ _ run => !run
  | .cancelTask _ _ _ _ => true
  | _ => false

/-- The task is stored and awaits approval. -/
def AwaitsApproval (k : State) (taskId : TaskId) : Prop :=
  ∃ task, k.state.store.get taskId = some task ∧ task.status = .awaitingApproval

/-- The queue is full and the operation saves a task that it has to enqueue. -/
def Overflows (sup : Supervisor) (env : Env) (k : State) : Operation → Prop
  | .submit submission => k.state.queue.full = true ∧ Accepted sup env k submission
  | .approveTask taskId _ _ _ => k.state.queue.full = true ∧ AwaitsApproval k taskId
  | _ => False

/-- What the operation does meets the law exactly on the condition. -/
def NoTraceIff (sup : Supervisor) (env : Env) (op : Operation) (k : State)
    (outcome : Except PyExc TaskRecord) (k' : State) : Prop :=
  ((∃ e, outcome = .error e) → NoTrace k k') ↔ ¬ Overflows sup env k op ∧ ¬ Interrupted k k'

theorem submit_noTrace (hunique : UniqueIds env) (submission : TaskSubmission) {k : State}
    (hstored : ∀ taskId, k.state.store.get taskId = stored k.history taskId) :
    (submit sup submission).wp (env.machine.logic fun _ => False)
      (fun outcome _ k' => NoTraceIff sup env (.submit submission) k outcome k') () k := by
  refine wp_mono (env.machine.logic_monotone _) ?_ (submit_ends hunique submission hstored)
  intro outcome _ k' hends
  cases hends with
  | rejected e k' hrejected hstate hevents hquiet hcalm =>
      exact ⟨fun _ => ⟨fun h => hrejected h.2, hcalm⟩, fun _ _ => .of_state hstate hevents⟩
  | refused e k' task haccepted hfull hnew hstore hlast hcalm =>
      have htrace : ¬ NoTrace k k' := not_noTrace_of_save hstore (by simp [hnew])
      exact ⟨fun h => absurd (h ⟨e, rfl⟩) htrace, fun h => absurd ⟨hfull, haccepted⟩ h.1⟩
  | queued k' task haccepted hroom hquiet hcalm =>
      refine ⟨fun _ => ⟨fun h => ?_, hcalm⟩, by simp⟩
      exact absurd h.1 (by simp [hroom])

/-- An operation that reads a task from the store and then transitions it. -/
theorem Transitioned.raised_iff {k k' : State} {task : TaskRecord} {outcome : Except PyExc Unit}
    {before : Trace} (hdone : Transitioned ⟨before ++ k.history, k.state⟩ task outcome k') :
    (∃ e, outcome = .error e) ↔ Interrupted k k' := by
  obtain ⟨event, answer, new, hlast, hraised⟩ := hdone.emitted
  have hlast : k'.history = ⟨.emit task event, answer⟩ :: ((new ++ before) ++ k.history) := by
    simpa using hlast
  rw [hraised, interrupted_emit_iff hlast]

/-- A transition to another status is a trace. -/
theorem Transitioned.leaves_trace {k k₁ k₂ k' : State} {task t : TaskRecord}
    {outcome : Except PyExc Unit} (hdone : Transitioned k₁ t outcome k₂)
    (hbefore : k₁.state.store = k.state.store)
    (hfound : k.state.store.get t.taskId = some task) (hstatus : task.status ≠ t.status)
    (hafter : k'.state.store = k₂.state.store) : ¬ NoTrace k k' := by
  have hstore : k'.state.store = k.state.store.save t := by rw [hafter, hdone.state, hbefore]
  refine not_noTrace_of_save hstore ?_
  intro old hold
  rw [hfound] at hold
  cases hold
  exact hstatus

/-- The state once a task was looked up. -/
abbrev lookedUp (k : State) (taskId : TaskId) : State :=
  ⟨[⟨.storeGet taskId, .ok (k.state.store.get taskId)⟩] ++ k.history, k.state⟩

theorem not_interrupted_lookedUp {k : State} {taskId : TaskId} :
    ¬ Interrupted k (lookedUp k taskId) :=
  not_interrupted_of_last rfl (by simp)

theorem wp_getTask_machine {taskId : TaskId} {k : State}
    {post : Except PyExc TaskRecord → Unit → State → Prop}
    (hmissing : k.state.store.get taskId = none → ∀ e, post (.error e) () (lookedUp k taskId))
    (hfound : ∀ task, k.state.store.get taskId = some task →
      post (.ok task) () (lookedUp k taskId)) :
    (getTask taskId : OpBlock TaskRecord).wp (env.machine.logic fun _ => False) post () k := by
  have hget : env.machine.step k (.storeGet taskId) =
      (.ok (k.state.store.get taskId), lookedUp k taskId) := rfl
  unfold getTask
  rw [wp_bind, wp_ask]
  refine Machine.call_of_step hget ?_
  cases htask : k.state.store.get taskId with
  | none => exact hmissing htask _
  | some task => exact hfound task htask

theorem approveTask_noTrace {fuel : Nat} {taskId : TaskId} {actor : String}
    {metadata : Option Dict} {k : State}
    (hstored : ∀ taskId, k.state.store.get taskId = stored k.history taskId) :
    (approveTask sup fuel taskId actor metadata false).wp (env.machine.logic fun _ => False)
      (fun outcome _ k' =>
        NoTraceIff sup env (.approveTask taskId actor metadata false) k outcome k')
      () k := by
  have hrefuses (e : PyExc) (hparked : ¬ AwaitsApproval k taskId) :
      NoTraceIff sup env (.approveTask taskId actor metadata false) k (.error e)
        (lookedUp k taskId) :=
    ⟨fun _ => ⟨fun h => hparked h.2, not_interrupted_lookedUp⟩, fun _ _ => .of_state rfl rfl⟩
  unfold approveTask
  rw [wp_bind]
  refine wp_getTask_machine (fun hmissing e => hrefuses e ?_) fun task hfound => ?_
  · rintro ⟨task, htask, -⟩
    simp [hmissing] at htask
  dsimp only
  split
  · rename_i hawaiting
    rw [wp_bind, wp_on]
    refine wp_mono (env.machine.logic_monotone _) ?_
      (wp_transitionStatus_machine env .approved actor "approved" .taskApproved
        (metadata.getD []) none none task (lookedUp k taskId))
    rintro outcome t k₂ ⟨ts, hdone⟩
    have hid : task.taskId = taskId := stored_keyed (hstored taskId ▸ hfound)
    have htrace {k' : State} : k'.state.store = k₂.state.store → ¬ NoTrace k k' :=
      hdone.leaves_trace rfl (hid.symm ▸ hfound) (by simp [hawaiting, TaskRecord.transitioned])
    have hqueue : k₂.state.queue = k.state.queue := by rw [hdone.state]
    cases outcome with
    | error e =>
        have hinterrupted : Interrupted k k₂ := hdone.raised_iff.mp ⟨e, rfl⟩
        exact ⟨fun h => absurd (h ⟨e, rfl⟩) (htrace rfl), fun h => absurd hinterrupted h.2⟩
    | ok announced =>
        dsimp only
        rw [if_neg Bool.false_ne_true, wp_bind, wp_ask]
        cases hfull : k.state.queue.full with
        | true =>
            obtain ⟨e, hstep⟩ := step_enqueue_full env (hqueue ▸ hfull) taskId
            refine Machine.call_of_step hstep ?_
            exact ⟨fun h => absurd (h ⟨e, rfl⟩) (htrace rfl),
              fun h => absurd ⟨hfull, task, hfound, hawaiting⟩ h.1⟩
        | false =>
            obtain ⟨queue, hstep⟩ := step_enqueue_room env (hqueue ▸ hfull) taskId
            refine Machine.call_of_step hstep ?_
            refine ⟨fun _ => ⟨fun h => ?_, not_interrupted_of_last rfl (by simp)⟩, by simp⟩
            exact absurd h.1 (by simp [hfull])
  · rename_i hother
    refine hrefuses _ ?_
    rintro ⟨found, hfound', hawaiting⟩
    rw [hfound] at hfound'
    cases hfound'
    exact hother hawaiting

theorem cancelTask_noTrace {taskId : TaskId} {actor : String} {reason : Option String}
    {metadata : Option Dict} {k : State}
    (hstored : ∀ taskId, k.state.store.get taskId = stored k.history taskId) :
    (cancelTask taskId actor reason metadata).wp (env.machine.logic fun _ => False)
      (fun outcome _ k' =>
        NoTraceIff sup env (.cancelTask taskId actor reason metadata) k outcome k')
      () k := by
  have hrefuses (e : PyExc) :
      NoTraceIff sup env (.cancelTask taskId actor reason metadata) k (.error e)
        (lookedUp k taskId) :=
    ⟨fun _ => ⟨not_false, not_interrupted_lookedUp⟩, fun _ _ => .of_state rfl rfl⟩
  unfold cancelTask
  rw [wp_bind]
  refine wp_getTask_machine (fun _ e => hrefuses e) fun task hfound => ?_
  dsimp only
  split
  · rename_i hawaiting
    let k₁ := lookedUp k taskId
    let k₂ : State := ⟨[⟨.now, .ok (env.now k₁.history)⟩,
      ⟨.storeGet taskId, .ok (k.state.store.get taskId)⟩] ++ k.history, k.state⟩
    have hnow : env.machine.step k₁ .now = (.ok (env.now k₁.history), k₂) := rfl
    rw [wp_bind, now, wp_ask]
    refine Machine.call_of_step hnow ?_
    dsimp only
    rw [wp_bind, wp_on]
    refine wp_mono (env.machine.logic_monotone _) ?_
      (wp_transitionStatus_machine env .cancelled actor "cancelled" .taskCancelled _ _ _ _ k₂)
    rintro outcome t k₃ ⟨ts, hdone⟩
    have hid : task.taskId = taskId := stored_keyed (hstored taskId ▸ hfound)
    have htrace : ¬ NoTrace k k₃ :=
      hdone.leaves_trace rfl (hid.symm ▸ hfound)
        (by simp [hawaiting, TaskRecord.transitioned]) rfl
    cases outcome with
    | error e =>
        have hinterrupted : Interrupted k k₃ := hdone.raised_iff.mp ⟨e, rfl⟩
        exact ⟨fun h => absurd (h ⟨e, rfl⟩) htrace, fun h => absurd hinterrupted h.2⟩
    | ok announced =>
        have hcalm : ¬ Interrupted k k₃ := fun h => by simpa using hdone.raised_iff.mpr h
        exact ⟨fun _ => ⟨not_false, hcalm⟩, by simp⟩
  · exact hrefuses _

/-- A failed operation leaves no trace unless the queue overflows.  In every
state of a sequential run from an empty store `submit`, `approve_task` without
running and `cancel_task` end; and that a failure changes neither a stored
status or audit trail nor the queue nor the events holds exactly if the queue
has room for what the operation saves and the bus does not interrupt it. -/
theorem failed_without_trace_iff (sup : Supervisor) (env : Env) (queue : TaskQueue) (fuel : Nat)
    (ops : List Operation) (hunique : UniqueIds env) (op : Operation)
    (hop : op.runsNothing = true) :
    ∃ outcome k', ((runOperation sup fuel op).run ()).exec env.machine
        (sup.run env fuel ops (.initial queue)) = (some (outcome, ()), k') ∧
      (((∃ e, outcome = .error e) → NoTrace (sup.run env fuel ops (.initial queue)) k') ↔
        ¬ Overflows sup env (sup.run env fuel ops (.initial queue)) op ∧
          ¬ Interrupted (sup.run env fuel ops (.initial queue)) k') := by
  have hstored := run_store sup env fuel ops queue
  have hmeets : (runOperation sup fuel op).wp (env.machine.logic fun _ => False)
      (fun outcome _ k' => NoTraceIff sup env op (sup.run env fuel ops (.initial queue)) outcome k')
      () (sup.run env fuel ops (.initial queue)) := by
    cases op with
    | submit submission => exact submit_noTrace hunique submission hstored
    | approveTask taskId actor metadata run =>
        cases run with
        | false => exact approveTask_noTrace hstored
        | true => cases hop
    | cancelTask taskId actor reason metadata => exact cancelTask_noTrace hstored
    | runSubmission | runNext | runTask => cases hop
  obtain ⟨⟨outcome, _⟩, k', hexec, hmeets⟩ := Machine.exec_of_wp hmeets
  exact ⟨outcome, k', hexec, hmeets⟩

/-- A supervisor with one echo task in a queue that holds one. -/
def fullRun : State :=
  (Supervisor.unconfigured ["echo"]).run .returning 1 [.submit ⟨"say", "echo", [], [], 0, none⟩]
    (.initial (.bounded [] 1))

/-- One more echo task is submitted. -/
def submitEcho (k : State) : Option (Except PyExc TaskRecord × Unit) × State :=
  ((submit (.unconfigured ["echo"]) ⟨"say", "echo", [], [], 0, none⟩).run ()).exec
    Env.returning.machine k

/-- The submission that the full queue refuses is stored nevertheless. -/
theorem refused_task_stored :
    ¬ ∀ (sup : Supervisor) (env : Env) (maxSize : Int) (fuel : Nat) (ops : List Operation),
      UniqueIds env → ∀ op : Operation, op.runsNothing = true → ∀ outcome k',
        ((runOperation sup fuel op).run ()).exec env.machine
          (sup.run env fuel ops (.initial (.bounded [] maxSize))) = (some (outcome, ()), k') →
        (∃ e, outcome = .error e) →
          NoTrace (sup.run env fuel ops (.initial (.bounded [] maxSize))) k' := by
  intro hnever
  have hraised : ((submitEcho fullRun).1.map fun ended => ended.1.isOk) = some false := by
    decide +kernel
  have hafter : (recorded (submitEcho fullRun).2 "xx").isSome = true := by decide +kernel
  have hbefore : (recorded fullRun "xx").isSome = false := by decide +kernel
  obtain ⟨⟨outcome, _⟩, hended, hfailed⟩ := Option.map_eq_some_iff.mp hraised
  have htrace := hnever (.unconfigured ["echo"]) .returning 1 1 _ (uniqueIds_of_freshId rfl)
    (.submit ⟨"say", "echo", [], [], 0, none⟩) rfl outcome (submitEcho fullRun).2
    (Prod.ext hended rfl) (by
      cases outcome with
      | error e => exact ⟨e, rfl⟩
      | ok task => cases hfailed)
  have hsame : recorded (submitEcho fullRun).2 "xx" = recorded fullRun "xx" := htrace.records "xx"
  rw [hsame, hbefore] at hafter
  cases hafter

/-- The refused submission overflows the queue. -/
theorem failed_without_trace_iff_full :
    ∃ outcome k', submitEcho fullRun = (some (outcome, ()), k') ∧
      (((∃ e, outcome = .error e) → NoTrace fullRun k') ↔
        ¬ Overflows (.unconfigured ["echo"]) .returning fullRun
            (.submit ⟨"say", "echo", [], [], 0, none⟩) ∧ ¬ Interrupted fullRun k') :=
  failed_without_trace_iff _ _ (.bounded [] 1) 1 _ (uniqueIds_of_freshId rfl)
    (.submit ⟨"say", "echo", [], [], 0, none⟩) rfl

end Conductor
