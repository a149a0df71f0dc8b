/-
The event bus beside a sequential run.  A run is compared with the run of the
same supervisor and the same collaborators under the null event bus: whatever
the bus answers, the two look alike.
-/
import Conductor.Effects.Relational
import Conductor.Supervisor.Visible

namespace Conductor

open Effects Block

/-- The collaborators with another event bus. -/
def Env.withEventBus (env : Env) (emit : Trace → TaskEvent → Except PyExc Unit) : Env :=
  { env with emit := emit }

/-- The collaborators with `NullEventBus`. -/
def Env.withNullEventBus (env : Env) : Env := env.withEventBus fun _ _ => .ok ()

/-- The monotonic clock reads the same in both runs. -/
def Env.SteadyClock (env : Env) (f : Time → Time) : Prop :=
  ∀ h h', visible f h = visible f h' → env.monotonic h = env.monotonic h'

/-- No collaborator knows the answers of the event bus: after histories that
look alike it answers alike.  The clocks are asked for as much of the time as
`f` shows; a monotonic clock that differs may cause other waits, which then
must not raise. -/
structure Env.Unaware (env : Env) (f : Time → Time) : Prop where
  now : ∀ h h', visible f h = visible f h' → f (env.now h) = f (env.now h')
  uuid4 : ∀ h h', visible f h = visible f h' → env.uuid4 h = env.uuid4 h'
  clock : env.SteadyClock f ∨ ∀ h seconds, env.sleep h seconds = .ok ()
  sleep : ∀ h h' seconds, visible f h = visible f h' → env.sleep h seconds = env.sleep h' seconds
  descriptor : ∀ h h' capability, visible f h = visible f h' →
    env.descriptor h capability = env.descriptor h' capability
  validateInput : ∀ h h' capability input, visible f h = visible f h' →
    env.validateInput h capability input = env.validateInput h' capability input
  execute : ∀ h h' capability payload context timeout, visible f h = visible f h' →
    env.execute h capability payload context timeout =
      env.execute h' capability payload context timeout
  evaluate : ∀ h h' x y context, visible f h = visible f h' → Alike f x y →
    env.evaluate h x context = env.evaluate h' y context
  decide : ∀ h h' x y failure, visible f h = visible f h' → Alike f x y →
    env.decide h x failure = env.decide h' y failure
  shouldEscalate : ∀ h h' x y failures, visible f h = visible f h' → Alike f x y →
    env.shouldEscalate h x failures = env.shouldEscalate h' y failures
  buildRecord : ∀ h h' x y failures, visible f h = visible f h' → Alike f x y →
    (env.buildRecord h x failures).map (EscalationRecord.retimed f) =
      (env.buildRecord h' y failures).map (EscalationRecord.retimed f)
  suggest : ∀ h h' capability input, visible f h = visible f h' →
    env.suggest h capability input = env.suggest h' capability input
  publish : ∀ h h' capability failures hint, visible f h = visible f h' →
    env.publish h capability failures hint = env.publish h' capability failures hint
  publishSuccess : ∀ h h' capability input, visible f h = visible f h' →
    env.publishSuccess h capability input = env.publishSuccess h' capability input

/-- The two runs have reached the same point. -/
structure Abreast (env : Env) (f : Time → Time) (k k' : State) : Prop where
  history : visible f k.history = visible f k'.history
  store : ∀ taskId, (k.state.store.get taskId).map (TaskRecord.retimed f) =
    (k'.state.store.get taskId).map (TaskRecord.retimed f)
  queue : k.state.queue = k'.state.queue
  starts : env.SteadyClock f → k.state.lastCapabilityStart = k'.state.lastCapabilityStart

variable {env : Env} {f : Time → Time} {k k' : State}

theorem visible_cons {e e' : Event Call Answer} {h h' : Trace} (hevent : shown f e = shown f e')
    (hvisible : visible f h = visible f h') : visible f (e :: h) = visible f (e' :: h') := by
  rw [visible, visible, List.filterMap_cons, List.filterMap_cons, hevent]
  cases shown f e' with
  | none => exact hvisible
  | some event => exact congrArg (event :: ·) hvisible

/-- Nothing but the histories has changed. -/
theorem Abreast.note (habreast : Abreast env f k k') {e e' : Event Call Answer}
    (hevent : shown f e = shown f e') :
    Abreast env f ⟨e :: k.history, k.state⟩ ⟨e' :: k'.history, k'.state⟩ :=
  ⟨visible_cons hevent habreast.history, habreast.store, habreast.queue, habreast.starts⟩

/-- Blocks that go the same way under the bus and under the null bus. -/
abbrev Isolated {σ α β : Type} (env : Env) (f : Time → Time) (P : σ → σ → Prop)
    (Q : α → β → Prop) (m : Block Call Response PyExc σ α)
    (m' : Block Call Response PyExc σ β) : Prop :=
  Twin env.machine env.withNullEventBus.machine (Abreast env f) P Q m m'

/-! ### The calls -/

variable {σ : Type} {P : σ → σ → Prop}

/-- Two calls under which the runs stay abreast. -/
theorem ask_isolated (c c' : Call) {Q : Response c → Response c' → Prop}
    (hstep : ∀ k k', Abreast env f k k' →
      Agree Q (env.machine.step k c).1 (env.withNullEventBus.machine.step k' c').1 ∧
        Abreast env f (env.machine.step k c).2 (env.withNullEventBus.machine.step k' c').2) :
    Isolated env f P Q (ask c) (ask c') :=
  Twin.perform c c' fun k k' => hstep k k'

theorem shown_now {t t' : Time} (htime : SameTime f t t') :
    shown f ⟨.now, .ok t⟩ = shown f ⟨.now, .ok t'⟩ :=
  congrArg some (congrArg (Event.mk Call.now) (congrArg Except.ok htime))

theorem now_isolated (hunaware : env.Unaware f) : Isolated env f P (SameTime f) now now := by
  refine ask_isolated .now .now fun k k' habreast => ?_
  have htime := hunaware.now _ _ habreast.history
  exact ⟨.ok htime, habreast.note (shown_now htime)⟩

/-- A call that leaves the world alone and is answered the same in both runs. -/
theorem ask_same_isolated {c : Call} (hstate : ∀ (env : Env) h w, (env.respond h w c).2 = w)
    (hanswer : ∀ k k', Abreast env f k k' → (env.respond k.history k.state c).1 =
      (env.withNullEventBus.respond k'.history k'.state c).1) :
    Isolated env f P Eq (ask c) (ask c) := by
  refine ask_isolated c c fun k k' habreast => ?_
  have hsame := hanswer k k' habreast
  refine ⟨.of_eq hsame, ?_⟩
  simp only [Machine.step, Env.machine, hstate, hsame]
  exact habreast.note rfl

variable {x y : TaskRecord}

theorem execute_isolated (hunaware : env.Unaware f) (halike : Alike f x y)
    {capability : String} {payload : Value} {context : CapabilityContext} {timeout : Option Rat} :
    Isolated env f P Eq (ask (.execute capability x payload context timeout))
      (ask (.execute capability y payload context timeout)) := by
  refine ask_isolated (.execute capability x payload context timeout)
    (.execute capability y payload context timeout) fun k k' habreast => ?_
  have hanswer := hunaware.execute _ _ capability payload context timeout habreast.history
  refine ⟨.of_eq hanswer, habreast.note ?_⟩
  simp only [shown]
  rw [halike]
  exact congrArg some (congrArg (Event.mk _) hanswer)

theorem evaluate_isolated (hunaware : env.Unaware f) (halike : Alike f x y)
    {context : PolicyContext} :
    Isolated env f P Eq (ask (.evaluate x context)) (ask (.evaluate y context)) := by
  refine ask_isolated (.evaluate x context) (.evaluate y context)
    fun k k' habreast => ?_
  have hanswer := hunaware.evaluate _ _ x y context habreast.history halike
  refine ⟨.of_eq hanswer, habreast.note ?_⟩
  simp only [shown]
  rw [halike]
  exact congrArg some (congrArg (Event.mk _) hanswer)

theorem decide_isolated (hunaware : env.Unaware f) (halike : Alike f x y)
    {failure : FailureContext} :
    Isolated env f P Eq (ask (.decide x failure)) (ask (.decide y failure)) := by
  refine ask_isolated (.decide x failure) (.decide y failure)
    fun k k' habreast => ?_
  have hanswer := hunaware.decide _ _ x y failure habreast.history halike
  refine ⟨.of_eq hanswer, habreast.note ?_⟩
  simp only [shown]
  rw [halike]
  exact congrArg some (congrArg (Event.mk _) hanswer)

theorem shouldEscalate_isolated (hunaware : env.Unaware f) (halike : Alike f x y)
    {failures : List FailureContext} :
    Isolated env f P Eq (ask (.shouldEscalate x failures)) (ask (.shouldEscalate y failures)) := by
  refine ask_isolated (.shouldEscalate x failures) (.shouldEscalate y failures)
    fun k k' habreast => ?_
  have hanswer := hunaware.shouldEscalate _ _ x y failures habreast.history halike
  refine ⟨.of_eq hanswer, habreast.note ?_⟩
  simp only [shown]
  rw [halike]
  exact congrArg some (congrArg (Event.mk _) hanswer)

theorem buildRecord_isolated (hunaware : env.Unaware f) (halike : Alike f x y)
    {failures : List FailureContext} :
    Isolated env f P (SameRecord f) (ask (.buildRecord x failures))
      (ask (.buildRecord y failures)) := by
  refine ask_isolated (.buildRecord x failures) (.buildRecord y failures)
    fun k k' habreast => ?_
  have hanswer := hunaware.buildRecord _ _ x y failures habreast.history halike
  constructor
  · change Agree _ (env.buildRecord k.history x failures) (env.buildRecord k'.history y failures)
    generalize env.buildRecord k.history x failures = answer at hanswer ⊢
    generalize env.buildRecord k'.history y failures = answer' at hanswer ⊢
    cases answer with
    | error e =>
        cases answer' with
        | error e' =>
            cases hanswer
            exact .error e
        | ok record' => cases hanswer
    | ok record =>
        cases answer' with
        | error e' => cases hanswer
        | ok record' => exact .ok (Except.ok.inj hanswer)
  · apply habreast.note
    simp only [shown]
    rw [halike]
    exact congrArg some (congrArg (Event.mk _) hanswer)

theorem storeGet_isolated {taskId : TaskId} :
    Isolated env f P (fun found found' => found.map (TaskRecord.retimed f) =
        found'.map (TaskRecord.retimed f))
      (ask (.storeGet taskId)) (ask (.storeGet taskId)) := by
  refine ask_isolated (.storeGet taskId) (.storeGet taskId) fun k k' habreast => ?_
  have hfound := habreast.store taskId
  refine ⟨.ok hfound, habreast.note ?_⟩
  exact congrArg some (congrArg (Event.mk _) (congrArg Except.ok hfound))

theorem storeSave_isolated (halike : Alike f x y) :
    Isolated env f P Eq (ask (.storeSave x)) (ask (.storeSave y)) := by
  refine ask_isolated (.storeSave x) (.storeSave y) fun k k' habreast => ?_
  refine ⟨.ok rfl, ?_, ?_, habreast.queue, habreast.starts⟩
  · refine visible_cons ?_ habreast.history
    change some (Event.mk (Call.storeSave (x.retimed f)) _) = some ⟨.storeSave (y.retimed f), _⟩
    rw [halike]
    rfl
  · intro taskId
    change ((k.state.store.save x).get taskId).map _ = ((k'.state.store.save y).get taskId).map _
    rw [MemoryTaskStore.get_save, MemoryTaskStore.get_save, halike.taskId]
    split
    · exact congrArg some halike
    · exact habreast.store taskId

theorem enqueue_isolated {taskId : TaskId} :
    Isolated env f P Eq (ask (.enqueue taskId)) (ask (.enqueue taskId)) := by
  refine ask_isolated (.enqueue taskId) (.enqueue taskId) fun k k' habreast => ?_
  obtain ⟨hhistory, hstore, hqueue, hstarts⟩ := habreast
  simp only [Machine.step, Env.machine, Env.respond, ← hqueue]
  cases k.state.queue.enqueue taskId with
  | error e => exact ⟨.error e, visible_cons rfl hhistory, hstore, hqueue, hstarts⟩
  | ok queue => exact ⟨.ok rfl, visible_cons rfl hhistory, hstore, rfl, hstarts⟩

theorem dequeue_isolated : Isolated env f P Eq (ask .dequeue) (ask .dequeue) := by
  refine ask_isolated .dequeue .dequeue fun k k' habreast => ?_
  obtain ⟨hhistory, hstore, hqueue, hstarts⟩ := habreast
  simp only [Machine.step, Env.machine, Env.respond, ← hqueue]
  exact ⟨.ok rfl, visible_cons rfl hhistory, hstore, rfl, hstarts⟩

theorem sleep_isolated (hunaware : env.Unaware f) {seconds : Rat} :
    Isolated env f P Eq (ask (.sleep seconds)) (ask (.sleep seconds)) :=
  ask_same_isolated (fun _ _ _ => rfl)
    fun _ _ habreast => hunaware.sleep _ _ seconds habreast.history

theorem setLastStart_isolated {capability : String} {start : Rat} :
    Isolated env f P Eq (ask (.setLastStart capability start))
      (ask (.setLastStart capability start)) := by
  refine ask_isolated (.setLastStart capability start) (.setLastStart capability start)
    fun k k' habreast => ?_
  obtain ⟨hhistory, hstore, hqueue, hstarts⟩ := habreast
  refine ⟨.ok rfl, visible_cons rfl hhistory, hstore, hqueue, fun hsteady => ?_⟩
  exact congrArg ((capability, start) :: ·) (hstarts hsteady)

theorem exec_ask {M : Machine World Call Answer} (c : Call) (x : σ) (k : State) :
    @Block.exec Call Response PyExc σ (no_index (Response c)) World M (ask c) x k =
      (some ((M.step k c).1, x), (M.step k c).2) := rfl

/-- Where sleeping does not raise, waiting shows nothing and changes neither
the store nor the queue. -/
theorem waitForExecutionWindow_exec (hsleep : ∀ h seconds, env.sleep h seconds = .ok ())
    (sup : Supervisor) (capability : String) (x : σ) (k : State) :
    ∃ k', (waitForExecutionWindow sup capability).exec env.machine x k =
        (some ((sup.registry.executionControls capability).map fun _ => (), x), k') ∧
      visible f k'.history = visible f k.history ∧ k'.state.store = k.state.store ∧
      k'.state.queue = k.state.queue := by
  unfold waitForExecutionWindow
  rw [exec_bind, exec_ofExcept]
  cases sup.registry.executionControls capability with
  | error e => exact ⟨k, rfl, rfl, rfl, rfl⟩
  | ok controls =>
      obtain ⟨timeout, minInterval⟩ := controls
      cases minInterval with
      | none => exact ⟨k, rfl, rfl, rfl, rfl⟩
      | some minInterval =>
          simp only [Result.next, exec_bind, exec_ask, Machine.step, Env.machine, Env.respond]
          cases k.state.lastCapabilityStart.lookup capability with
          | none => exact ⟨_, rfl, rfl, rfl, rfl⟩
          | some previousStart =>
              dsimp only
              split
              · simp only [Result.next, exec_bind, exec_ask, Machine.step, Env.respond, hsleep]
                exact ⟨_, rfl, rfl, rfl, rfl⟩
              · exact ⟨_, rfl, rfl, rfl, rfl⟩

theorem waitForExecutionWindow_isolated (hunaware : env.Unaware f) {sup : Supervisor}
    {capability : String} :
    Isolated env f P Eq (waitForExecutionWindow sup capability)
      (waitForExecutionWindow sup capability) := by
  by_cases hsteady : env.SteadyClock f
  · have hmonotonic : Isolated env f P Eq (ask .monotonic) (ask .monotonic) :=
      ask_same_isolated (fun _ _ _ => rfl)
        fun k k' habreast => congrArg Except.ok (hsteady _ _ habreast.history)
    have hlast : Isolated env f P Eq (ask (.lastStart capability)) (ask (.lastStart capability)) :=
      ask_same_isolated (fun _ _ _ => rfl) fun k k' habreast =>
        congrArg (fun starts => Except.ok (List.lookup capability starts)) (habreast.starts hsteady)
    unfold waitForExecutionWindow
    refine Twin.seq (.ofExcept (.of_eq rfl)) fun controls => ?_
    cases controls.minIntervalSeconds with
    | none => exact .pure rfl
    | some minInterval =>
        refine Twin.seq hmonotonic fun now => Twin.seq hlast fun previousStart => ?_
        cases previousStart with
        | none => exact setLastStart_isolated
        | some previousStart =>
            refine Twin.ite (fun _ => ?_) fun _ => setLastStart_isolated
            refine Twin.seq (sleep_isolated hunaware) fun _ =>
              Twin.seq hmonotonic fun now => ?_
            exact setLastStart_isolated
  · -- The waits may differ, but neither of them raises.
    have hsleep := hunaware.clock.resolve_left hsteady
    have hsleep' : ∀ h seconds, env.withNullEventBus.sleep h seconds = .ok () := hsleep
    intro x x' k k' hobject habreast
    obtain ⟨k₁, hexec, hhistory, hstore, hqueue⟩ :=
      waitForExecutionWindow_exec (f := f) hsleep sup capability x k
    obtain ⟨k₁', hexec', hhistory', hstore', hqueue'⟩ :=
      waitForExecutionWindow_exec (f := f) hsleep' sup capability x' k'
    rw [hexec, hexec']
    refine .ended (.of_eq rfl) hobject ⟨?_, ?_, ?_, fun h => absurd h hsteady⟩
    · rw [hhistory, hhistory', habreast.history]
    · rw [hstore, hstore']
      exact habreast.store
    · rw [hqueue, hqueue', habreast.queue]

/-- Whatever the bus answers, an event leaves the runs abreast. -/
theorem emitEvent_isolated (hunaware : env.Unaware f) (hbus : env.BusContained)
    {eventType : EventType} {error : Option String} {metadata : Dict} :
    Isolated env f (Alike f) Eq (emitEvent eventType error metadata)
      (emitEvent eventType error metadata) := by
  intro x x' k k' halike habreast
  have hnull : env.withNullEventBus.BusContained := fun _ _ _ h => by cases h
  rw [emitEvent_returns hbus, emitEvent_returns hnull]
  have htime := hunaware.now _ _ habreast.history
  refine .ended (.ok rfl) halike ((habreast.note (shown_now htime)).note ?_)
  have hevent : (taskEvent x eventType (env.now k.history) error metadata).retimed f =
      (taskEvent x' eventType (env.now k'.history) error metadata).retimed f := by
    rw [taskEvent_retimed, taskEvent_retimed, halike, htime]
  change some (Event.mk (Call.emit _ _) _) = some (Event.mk (Call.emit _ (TaskEvent.retimed f
    (taskEvent x' eventType (env.now k'.history) error metadata))) _)
  rw [halike, hevent]

/-! ### The methods -/

section Methods

variable (hunaware : env.Unaware f) (hbus : env.BusContained)
include hunaware

theorem timestampOrNow_isolated {timestamp timestamp' : Option Time}
    (htimestamp : timestamp.map f = timestamp'.map f) :
    Isolated env f P (SameTime f) (timestampOrNow timestamp) (timestampOrNow timestamp') := by
  cases timestamp with
  | none =>
      cases timestamp' with
      | none => exact now_isolated hunaware
      | some t' => cases htimestamp
  | some t =>
      cases timestamp' with
      | none => cases htimestamp
      | some t' => exact .pure (Option.some.inj htimestamp)

theorem appendAudit_isolated {actor action : String} {fromStatus toStatus : Option TaskStatus}
    {metadata : Dict} {timestamp timestamp' : Option Time}
    (htimestamp : timestamp.map f = timestamp'.map f) :
    Isolated env f (Alike f) Eq
      (appendAudit actor action fromStatus toStatus metadata timestamp)
      (appendAudit actor action fromStatus toStatus metadata timestamp') := by
  unfold appendAudit
  refine (timestampOrNow_isolated hunaware htimestamp).bind fun t t' htime => ?_
  exact .mutate fun x y halike => halike.withEntry
    (congrArg (AuditEntry.mk · actor action fromStatus toStatus metadata) htime)

theorem saveTask_isolated {timestamp timestamp' : Option Time}
    (htimestamp : timestamp.map f = timestamp'.map f) :
    Isolated env f (Alike f) Eq (saveTask timestamp) (saveTask timestamp') := by
  unfold saveTask
  refine (timestampOrNow_isolated hunaware htimestamp).bind fun t t' htime => ?_
  refine Twin.seq (.mutate fun x y halike => halike.withUpdatedAt htime) fun _ => ?_
  exact Twin.object.bind fun task task' halike => storeSave_isolated halike

include hbus

theorem transitionStatus_isolated {toStatus : TaskStatus} {actor action : String}
    {eventType : EventType} {metadata : Dict} {error : Option String}
    {timestamp timestamp' : Option Time} (htimestamp : timestamp.map f = timestamp'.map f) :
    Isolated env f (Alike f) Eq
      (transitionStatus toStatus actor action eventType metadata error timestamp)
      (transitionStatus toStatus actor action eventType metadata error timestamp') := by
  unfold transitionStatus
  refine (timestampOrNow_isolated hunaware htimestamp).bind fun t t' htime => ?_
  have htransition : (some t).map f = (some t').map f := congrArg some htime
  refine Twin.object.bind fun task task' halike => ?_
  rw [halike.status]
  refine Twin.seq (.mutate fun x y halike => halike.withStatus toStatus) fun _ => ?_
  refine Twin.seq (appendAudit_isolated hunaware htransition) fun _ => ?_
  refine Twin.seq (saveTask_isolated hunaware htransition) fun _ => ?_
  exact emitEvent_isolated hunaware hbus

omit hbus in
theorem validateTaskSubmission_isolated {sup : Supervisor} {submission : TaskSubmission} :
    Isolated env f P Eq (validateTaskSubmission sup submission)
      (validateTaskSubmission sup submission) := by
  unfold validateTaskSubmission
  refine Twin.ite (fun _ => .raise _) fun _ => Twin.ite (fun _ => .raise _) fun _ => ?_
  cases sup.registry.get submission.capability with
  | error e => exact .raise _
  | ok capability =>
      refine Twin.seq (ask_same_isolated (fun _ _ _ => rfl) fun k k' habreast => ?_)
        fun _ => .pure rfl
      exact hunaware.validateInput _ _ capability submission.input habreast.history

omit hbus in
theorem createTaskRecord_isolated {sup : Supervisor} {submission : TaskSubmission}
    {enqueue : Bool} :
    Isolated env f Eq (Alike f) (createTaskRecord sup submission enqueue)
      (createTaskRecord sup submission enqueue) := by
  unfold createTaskRecord
  refine Twin.seq (validateTaskSubmission_isolated hunaware) fun _ => ?_
  refine Twin.seq (ask_same_isolated (fun _ _ _ => rfl) fun k k' habreast =>
    congrArg Except.ok (hunaware.uuid4 _ _ habreast.history)) fun taskId => ?_
  refine (now_isolated hunaware).bind fun createdAt createdAt' hcreated => ?_
  refine (now_isolated hunaware).bind fun updatedAt updatedAt' hupdated => ?_
  have hnew : Alike f (newTaskRecord submission taskId createdAt updatedAt)
      (newTaskRecord submission taskId createdAt' updatedAt') := by
    simp only [Alike, TaskRecord.retimed, newTaskRecord]
    rw [hcreated, hupdated]
  have hsubmitted : (some createdAt).map f = (some createdAt').map f := congrArg some hcreated
  refine (Twin.on (Q := Eq) hnew ?_).bind fun created created' hpair => ?_
  · refine Twin.seq (appendAudit_isolated hunaware (congrArg some hcreated)) fun _ => ?_
    exact Twin.object.bind fun task task' halike => storeSave_isolated halike
  rw [hpair.2.taskId]
  refine Twin.ite (fun _ => ?_) fun _ => .pure hpair.2
  exact Twin.seq enqueue_isolated fun _ => .pure hpair.2

theorem applyPolicy_isolated {sup : Supervisor} {decision : PolicyDecision} :
    Isolated env f (Alike f) Eq (applyPolicy sup decision) (applyPolicy sup decision) := by
  unfold applyPolicy
  dsimp only
  cases decision.decision with
  | deny =>
      refine (now_isolated hunaware).bind fun deniedAt deniedAt' hdenied => ?_
      refine Twin.seq (.mutate fun x y halike => halike.withResult ?_) fun _ =>
        transitionStatus_isolated hunaware hbus (congrArg some hdenied)
      simp only [TaskResult.retimed, Option.map_some]
      rw [hdenied]
  | requireApproval => exact transitionStatus_isolated hunaware hbus rfl
  | allow =>
      exact Twin.seq (appendAudit_isolated hunaware rfl) fun _ => saveTask_isolated hunaware rfl

omit hbus in
theorem buildEscalationRecord_isolated {sup : Supervisor} {failures : List FailureContext} :
    Isolated env f (Alike f) (fun record record' => record.map (EscalationRecord.retimed f) =
        record'.map (EscalationRecord.retimed f))
      (buildEscalationRecord sup failures) (buildEscalationRecord sup failures) := by
  unfold buildEscalationRecord
  refine Twin.ite (fun _ => ?_) fun _ => .pure rfl
  refine Twin.object.bind fun task task' halike => ?_
  refine (buildRecord_isolated hunaware halike).bind fun record record' hrecord => ?_
  exact .pure (congrArg some hrecord)

omit hbus in
theorem publishFailures_isolated {sup : Supervisor} {failures : List FailureContext}
    {hint : String} :
    Isolated env f (Alike f) Eq (publishFailures sup failures hint)
      (publishFailures sup failures hint) := by
  unfold publishFailures
  refine Twin.ite (fun _ => ?_) fun _ => .pure rfl
  refine Twin.object.bind fun task task' halike => ?_
  rw [halike.capability]
  exact ask_same_isolated (c := .publish _ failures hint) (fun _ _ _ => rfl)
    fun k k' habreast => hunaware.publish _ _ _ failures hint habreast.history

theorem doEscalate_isolated {sup : Supervisor} {failures : List FailureContext}
    {startedAt startedAt' : Time} (hstarted : SameTime f startedAt startedAt') {exc : PyExc}
    {reason : Option String} :
    Isolated env f (Alike f) Eq (doEscalate sup failures startedAt exc reason)
      (doEscalate sup failures startedAt' exc reason) := by
  unfold doEscalate
  refine (now_isolated hunaware).bind fun escalatedAt escalatedAt' hescalated => ?_
  refine (buildEscalationRecord_isolated hunaware).bind fun record record' hrecord => ?_
  refine Twin.seq (.ofExcept (.of_eq rfl)) fun error => ?_
  refine Twin.seq (.mutate fun x y halike => halike.withResult ?_) fun _ => ?_
  · simp only [TaskResult.retimed, Option.map_some]
    rw [hstarted, hescalated, escalationMetadata_retimed hrecord]
  refine Twin.object.bind fun task task' halike => ?_
  rw [halike.attempt]
  refine Twin.seq (transitionStatus_isolated hunaware hbus (congrArg some hescalated)) fun _ => ?_
  exact publishFailures_isolated hunaware

theorem failTask_isolated {sup : Supervisor} {failures : List FailureContext}
    {startedAt startedAt' : Time} (hstarted : SameTime f startedAt startedAt') {exc : PyExc} :
    Isolated env f (Alike f) Eq (failTask sup failures startedAt exc)
      (failTask sup failures startedAt' exc) := by
  unfold failTask
  refine Twin.seq (publishFailures_isolated hunaware) fun _ => ?_
  refine (now_isolated hunaware).bind fun failedAt failedAt' hfailed => ?_
  refine Twin.seq (.ofExcept (.of_eq rfl)) fun error => ?_
  refine Twin.seq (.mutate fun x y halike => halike.withResult ?_) fun _ => ?_
  · simp only [TaskResult.retimed, Option.map_some]
    rw [hstarted, hfailed]
  refine Twin.object.bind fun task task' halike => ?_
  rw [halike.attempt]
  exact transitionStatus_isolated hunaware hbus (congrArg some hfailed)

omit hunaware hbus in
theorem getTask_isolated {taskId : TaskId} :
    Isolated env f Eq (Alike f) (getTask taskId) (getTask taskId) := by
  unfold getTask
  refine storeGet_isolated.bind fun found found' hfound => ?_
  cases found with
  | none =>
      cases found' with
      | none => exact .raise _
      | some task' => cases hfound
  | some task =>
      cases found' with
      | none => cases hfound
      | some task' => exact .pure (Option.some.inj hfound)

omit hbus in
theorem applyPeerSuggestion_isolated {sup : Supervisor} :
    Isolated env f (Alike f) Eq (applyPeerSuggestion sup) (applyPeerSuggestion sup) := by
  unfold applyPeerSuggestion
  refine Twin.ite (fun _ => ?_) fun _ => .pure rfl
  refine Twin.object.bind fun task task' halike => ?_
  rw [halike.capability, halike.input]
  refine Twin.seq (ask_same_isolated (c := .suggest _ _) (fun _ _ _ => rfl) fun k k' habreast =>
    hunaware.suggest _ _ _ _ habreast.history) fun suggestions => ?_
  cases suggestions with
  | nil => exact .pure rfl
  | cons best rest =>
      refine Twin.seq (.mutate fun x y halike => ?_) fun _ => ?_
      · rw [halike.input]
        exact halike.withInput _
      exact Twin.seq (appendAudit_isolated hunaware rfl) fun _ => saveTask_isolated hunaware rfl

theorem attempt_isolated {sup : Supervisor} {capability : String}
    {controls : CapabilityExecutionControls} {startedAt startedAt' : Time}
    (hstarted : SameTime f startedAt startedAt') :
    Isolated env f (Alike f) Eq (attempt sup capability controls startedAt)
      (attempt sup capability controls startedAt') := by
  unfold attempt
  refine Twin.object.bind fun task task' halike => ?_
  rw [halike.input]
  refine Twin.seq (ask_same_isolated (c := .validateInput _ _) (fun _ _ _ => rfl)
    fun k k' habreast => hunaware.validateInput _ _ _ _ habreast.history) fun payload => ?_
  rw [halike.taskId, halike.name]
  refine Twin.seq (execute_isolated hunaware halike) fun result => ?_
  refine (now_isolated hunaware).bind fun completedAt completedAt' hcompleted => ?_
  refine Twin.seq (.mutate fun x y halike => halike.withResult ?_) fun _ => ?_
  · simp only [TaskResult.retimed, Option.map_some]
    rw [hstarted, hcompleted]
  rw [halike.attempt]
  refine Twin.seq (transitionStatus_isolated hunaware hbus (congrArg some hcompleted)) fun _ => ?_
  refine Twin.ite (fun _ => ?_) fun _ => .pure rfl
  refine Twin.object.bind fun task task' halike => ?_
  rw [halike.capability, halike.input]
  exact ask_same_isolated (c := .publishSuccess _ _) (fun _ _ _ => rfl)
    fun k k' habreast => hunaware.publishSuccess _ _ _ _ habreast.history

omit hbus in
theorem policyEscalates_isolated {sup : Supervisor} {failures : List FailureContext} :
    Isolated env f (Alike f) Eq (policyEscalates sup failures) (policyEscalates sup failures) := by
  unfold policyEscalates
  refine Twin.ite (fun _ => ?_) fun _ => .pure rfl
  exact Twin.object.bind fun task task' halike => shouldEscalate_isolated hunaware halike

omit hbus in
theorem recordFailure_isolated {sup : Supervisor} {exc : PyExc} :
    Isolated env f (Alike f) Eq (recordFailure sup exc) (recordFailure sup exc) := by
  unfold recordFailure
  refine Twin.object.bind fun task task' halike => ?_
  rw [halike.input, halike.taskId, halike.capability, halike.attempt, halike.maxRetries]
  refine Twin.seq (.ofExcept (.of_eq rfl)) fun fingerprint => ?_
  refine Twin.seq (.ofExcept (.of_eq rfl)) fun message => ?_
  refine Twin.seq (appendAudit_isolated hunaware rfl) fun _ => ?_
  exact Twin.seq (saveTask_isolated hunaware rfl) fun _ => .pure rfl

omit hbus in
theorem retryDelay_isolated {decision : RetryDecision} :
    Isolated env f (Alike f) Eq (retryDelay decision) (retryDelay decision) := by
  unfold retryDelay
  cases decision.delaySeconds with
  | none => exact .pure rfl
  | some delay => exact Twin.ite (fun _ => sleep_isolated hunaware) fun _ => .pure rfl

omit hbus in
theorem escalates_isolated {sup : Supervisor} {decision : RetryDecision}
    {failures : List FailureContext} :
    Isolated env f (Alike f) Eq (escalates sup decision failures)
      (escalates sup decision failures) := by
  unfold escalates
  exact Twin.ite (fun _ => .pure rfl) fun _ => policyEscalates_isolated hunaware

theorem giveUp_isolated {sup : Supervisor} {startedAt startedAt' : Time}
    (hstarted : SameTime f startedAt startedAt') {exc : PyExc} {failures : List FailureContext}
    {decision : RetryDecision} :
    Isolated env f (Alike f) Eq (giveUp sup startedAt exc failures decision)
      (giveUp sup startedAt' exc failures decision) := by
  unfold giveUp
  refine Twin.seq (escalates_isolated hunaware) fun escalate => ?_
  refine Twin.ite (fun _ => ?_) fun _ => .pure rfl
  exact Twin.seq (doEscalate_isolated hunaware hbus hstarted) fun _ => .pure rfl

theorem retry_isolated {sup : Supervisor} {startedAt startedAt' : Time}
    (hstarted : SameTime f startedAt startedAt') {exc : PyExc} {failures : List FailureContext}
    {decision : RetryDecision} :
    Isolated env f (Alike f) Eq (retry sup startedAt exc failures decision)
      (retry sup startedAt' exc failures decision) := by
  unfold retry
  refine Twin.seq (.mutate fun x y halike => ?_) fun _ => ?_
  · rw [halike.attempt, halike.input]
    exact (halike.withAttempt (y.attempt + 1)).withInput (decision.adjustedInput.getD y.input)
  refine Twin.seq (policyEscalates_isolated hunaware) fun escalate => ?_
  refine Twin.ite (fun _ => ?_) fun _ => ?_
  · exact Twin.seq (doEscalate_isolated hunaware hbus hstarted) fun _ => .pure rfl
  · refine Twin.object.bind fun task task' halike => ?_
    refine Twin.seq (.ofExcept (.of_eq rfl)) fun error => ?_
    have hmetadata : retryMetadata task error decision = retryMetadata task' error decision := by
      simp only [retryMetadata, halike.attempt, halike.maxRetries]
    dsimp only
    rw [hmetadata]
    refine Twin.seq (appendAudit_isolated hunaware rfl) fun _ => ?_
    refine Twin.seq (saveTask_isolated hunaware rfl) fun _ => ?_
    refine Twin.seq (emitEvent_isolated hunaware hbus) fun _ => ?_
    exact Twin.seq (retryDelay_isolated hunaware) fun _ => .pure rfl

theorem handleFailure_isolated {sup : Supervisor} {startedAt startedAt' : Time}
    (hstarted : SameTime f startedAt startedAt') {failures : List FailureContext} {exc : PyExc} :
    Isolated env f (Alike f) Eq (handleFailure sup startedAt failures exc)
      (handleFailure sup startedAt' failures exc) := by
  unfold handleFailure
  refine Twin.seq (recordFailure_isolated hunaware) fun failure => ?_
  refine Twin.object.bind fun task task' halike => ?_
  refine Twin.seq (decide_isolated hunaware halike) fun decision => ?_
  exact Twin.ite (fun _ => retry_isolated hunaware hbus hstarted)
    fun _ => giveUp_isolated hunaware hbus hstarted

/-- An event lost inside the `try` block is no failed attempt, and one lost in
the handler does not leave it. -/
theorem attemptRound_isolated {sup : Supervisor} {capability : String}
    {controls : CapabilityExecutionControls} {startedAt startedAt' : Time}
    (hstarted : SameTime f startedAt startedAt') {failures : List FailureContext} :
    Isolated env f (Alike f) Eq (attemptRound sup capability controls startedAt failures)
      (attemptRound sup capability controls startedAt' failures) := by
  unfold attemptRound
  apply Twin.tryExcept
  · exact Twin.seq (attempt_isolated hunaware hbus hstarted) fun _ => .pure rfl
  · exact fun exc => handleFailure_isolated hunaware hbus hstarted

theorem attemptLoop_isolated {sup : Supervisor} {capability : String}
    {controls : CapabilityExecutionControls} {startedAt startedAt' : Time}
    (hstarted : SameTime f startedAt startedAt') (fuel : Nat) (failures : List FailureContext) :
    Isolated env f (Alike f) Eq (attemptLoop sup capability controls startedAt fuel failures)
      (attemptLoop sup capability controls startedAt' fuel failures) := by
  induction fuel generalizing failures with
  | zero => exact .outOfFuel
  | succ fuel ih =>
      unfold attemptLoop
      refine Twin.seq (attemptRound_isolated hunaware hbus hstarted) fun flow => ?_
      cases flow with
      | stop lastExc failures => exact .pure rfl
      | again failures => exact ih failures

theorem startTask_isolated {sup : Supervisor} :
    Isolated env f (Alike f)
      (fun started started' => started.1 = started'.1 ∧ SameTime f started.2 started'.2)
      (startTask sup) (startTask sup) := by
  unfold startTask
  refine Twin.object.bind fun task task' halike => ?_
  rw [halike.capability]
  refine Twin.seq (.ofExcept (.of_eq rfl)) fun controls => ?_
  refine Twin.seq (waitForExecutionWindow_isolated hunaware) fun _ => ?_
  refine (now_isolated hunaware).bind fun startedAt startedAt' hstarted => ?_
  refine Twin.seq (.mutate fun x y halike => ?_) fun _ => ?_
  · rw [halike.attempt]
    exact halike.withAttempt _
  refine Twin.object.bind fun task task' halike => ?_
  rw [halike.attempt, halike.maxRetries]
  refine Twin.seq (transitionStatus_isolated hunaware hbus (congrArg some hstarted)) fun _ => ?_
  exact .pure ⟨rfl, hstarted⟩

theorem runAttempts_isolated {sup : Supervisor} {fuel : Nat} {capability : String}
    {controls : CapabilityExecutionControls} {startedAt startedAt' : Time}
    (hstarted : SameTime f startedAt startedAt') :
    Isolated env f (Alike f) Eq (runAttempts sup fuel capability controls startedAt)
      (runAttempts sup fuel capability controls startedAt') := by
  unfold runAttempts
  refine Twin.seq (attemptLoop_isolated hunaware hbus hstarted fuel []) fun ended => ?_
  cases ended.1 with
  | none => exact .pure rfl
  | some lastExc => exact failTask_isolated hunaware hbus hstarted

theorem executeTask_isolated {sup : Supervisor} {fuel : Nat} {capability : String} :
    Isolated env f (Alike f) Eq (executeTask sup fuel capability)
      (executeTask sup fuel capability) := by
  unfold executeTask
  refine Twin.seq (applyPeerSuggestion_isolated hunaware) fun _ => ?_
  refine (startTask_isolated hunaware hbus).bind fun started started' hstarted => ?_
  rw [hstarted.1]
  exact runAttempts_isolated hunaware hbus hstarted.2

theorem gatePending_isolated {sup : Supervisor} {capability : String} :
    Isolated env f (Alike f) Eq (gatePending sup capability) (gatePending sup capability) := by
  have hdescriptor : Isolated env f (Alike f) Eq (ask (.descriptor capability))
      (ask (.descriptor capability)) :=
    ask_same_isolated (fun _ _ _ => rfl)
      fun k k' habreast => hunaware.descriptor _ _ capability habreast.history
  unfold gatePending
  refine Twin.seq hdescriptor fun descriptor => Twin.ite (fun _ => ?_) fun _ => ?_
  · refine Twin.object.bind fun task task' halike => ?_
    rw [halike.capability]
    exact transitionStatus_isolated hunaware hbus rfl
  · refine Twin.seq hdescriptor fun descriptor => ?_
    refine Twin.object.bind fun task task' halike => ?_
    refine Twin.seq (evaluate_isolated hunaware halike) fun decision => ?_
    exact applyPolicy_isolated hunaware hbus

theorem runLoadedTask_isolated {sup : Supervisor} {fuel : Nat} :
    Isolated env f (Alike f) Eq (runLoadedTask sup fuel) (runLoadedTask sup fuel) := by
  unfold runLoadedTask
  refine Twin.object.bind fun task task' halike => ?_
  rw [halike.status, halike.buildSubmission]
  refine Twin.ite (fun _ => ?_) fun _ => Twin.ite (fun _ => ?_) fun _ => .pure rfl
  · refine Twin.seq (validateTaskSubmission_isolated hunaware) fun capability => ?_
    refine Twin.seq (gatePending_isolated hunaware hbus) fun _ => ?_
    refine Twin.object.bind fun task task' halike => ?_
    rw [halike.status]
    exact Twin.ite (fun _ => executeTask_isolated hunaware hbus) fun _ => .pure rfl
  · refine Twin.seq (validateTaskSubmission_isolated hunaware) fun capability => ?_
    exact executeTask_isolated hunaware hbus

theorem runTask_isolated {sup : Supervisor} {fuel : Nat} {taskId : TaskId} :
    Isolated env f Eq (Alike f) (runTask sup fuel taskId) (runTask sup fuel taskId) := by
  unfold runTask
  refine Twin.seq (ask_same_isolated (c := .runTaskEntered taskId) (fun _ _ _ => rfl)
    fun _ _ _ => rfl) fun _ => ?_
  refine getTask_isolated.bind fun task task' halike => ?_
  refine (Twin.on halike (runLoadedTask_isolated hunaware hbus)).bind fun ran ran' hran => ?_
  exact .pure hran.2

theorem runSubmission_isolated {sup : Supervisor} {fuel : Nat} {submission : TaskSubmission} :
    Isolated env f Eq (Alike f) (runSubmission sup fuel submission)
      (runSubmission sup fuel submission) := by
  unfold runSubmission
  refine (createTaskRecord_isolated hunaware).bind fun task task' halike => ?_
  rw [halike.taskId]
  exact runTask_isolated hunaware hbus

theorem runNext_isolated {sup : Supervisor} {fuel : Nat} :
    Isolated env f Eq (Alike f) (runNext sup fuel) (runNext sup fuel) := by
  unfold runNext
  refine Twin.seq dequeue_isolated fun taskId => ?_
  cases taskId with
  | none => exact .raise _
  | some taskId => exact runTask_isolated hunaware hbus

theorem approveTask_isolated {sup : Supervisor} {fuel : Nat} {taskId : TaskId} {actor : String}
    {metadata : Option Dict} {run : Bool} :
    Isolated env f Eq (Alike f) (approveTask sup fuel taskId actor metadata run)
      (approveTask sup fuel taskId actor metadata run) := by
  unfold approveTask
  refine getTask_isolated.bind fun task task' halike => ?_
  rw [halike.status]
  refine Twin.ite (fun _ => ?_) fun _ => .raise _
  refine (Twin.on halike (transitionStatus_isolated hunaware hbus rfl)).bind
    fun approved approved' happroved => ?_
  refine Twin.ite (fun _ => runTask_isolated hunaware hbus) fun _ => ?_
  exact Twin.seq enqueue_isolated fun _ => .pure happroved.2

theorem cancelTask_isolated {taskId : TaskId} {actor : String} {reason : Option String}
    {metadata : Option Dict} :
    Isolated env f Eq (Alike f) (cancelTask taskId actor reason metadata)
      (cancelTask taskId actor reason metadata) := by
  unfold cancelTask
  refine getTask_isolated.bind fun task task' halike => ?_
  by_cases hwaiting : task.status = .awaitingApproval
  · rw [if_pos hwaiting, if_pos (halike.status ▸ hwaiting)]
    refine (now_isolated hunaware).bind fun cancelledAt cancelledAt' hcancelled => ?_
    refine (Twin.on (Q := Eq) (halike.withResult ?_) ?_).bind fun cancelled cancelled' hpair => ?_
    · simp only [TaskResult.retimed, Option.map_some]
      rw [hcancelled]
    · exact transitionStatus_isolated hunaware hbus (congrArg some hcancelled)
    · exact .pure hpair.2
  · rw [if_neg hwaiting, if_neg (halike.status ▸ hwaiting), halike.status]
    exact .raise _

theorem runOperation_isolated {sup : Supervisor} {fuel : Nat} (op : Operation) :
    Isolated env f Eq (Alike f) (runOperation sup fuel op) (runOperation sup fuel op) := by
  cases op with
  | submit submission => exact createTaskRecord_isolated hunaware
  | runSubmission submission => exact runSubmission_isolated hunaware hbus
  | runNext => exact runNext_isolated hunaware hbus
  | runTask taskId => exact runTask_isolated hunaware hbus
  | approveTask taskId actor metadata run => exact approveTask_isolated hunaware hbus
  | cancelTask taskId actor reason metadata => exact cancelTask_isolated hunaware hbus

end Methods

/-! ### Whole runs -/

theorem shown_left {op : Operation} {outcome outcome' : Except PyExc TaskRecord}
    (houtcome : Agree (Alike f) outcome outcome') :
    shown f ⟨.left op outcome, .ok ()⟩ = shown f ⟨.left op outcome', .ok ()⟩ := by
  cases houtcome with
  | error e => rfl
  | ok halike =>
      simp only [shown, Except.map]
      rw [halike]

/-- The runs of a client stay abreast. -/
theorem client_abreast (hunaware : env.Unaware f) (hbus : env.BusContained) (sup : Supervisor)
    (fuel : Nat) (ops : List Operation) (habreast : Abreast env f k k') :
    Abreast env f ((client sup fuel ops).exec env.machine k).2
      ((client sup fuel ops).exec env.withNullEventBus.machine k').2 := by
  induction ops generalizing k k' with
  | nil => exact habreast
  | cons op ops ih =>
      simp only [client, Prog.exec, Prog.exec_bind]
      have hentered : Abreast env f (env.machine.step k (.entered op)).2
          (env.withNullEventBus.machine.step k' (.entered op)).2 := habreast.note rfl
      have hmatched : Matched _ _ _ (((runOperation sup fuel op).run ()).exec _ _)
          (((runOperation sup fuel op).run ()).exec _ _) :=
        runOperation_isolated hunaware hbus op rfl hentered
      generalize ((runOperation sup fuel op).run ()).exec env.machine _ = r at hmatched ⊢
      generalize ((runOperation sup fuel op).run ()).exec env.withNullEventBus.machine _ = r'
        at hmatched ⊢
      cases hmatched with
      | unfinished hconfig => exact hconfig
      | ended houtcome _ hconfig =>
          exact ih (hconfig.note (shown_left houtcome))

/-- What a run does to the tasks. -/
structure SameTasks (f : Time → Time) (k k' : State) : Prop where
  saves : (saves k.history).map (TaskRecord.retimed f) =
    (saves k'.history).map (TaskRecord.retimed f)
  executeCalls : executeCalls k.history = executeCalls k'.history
  queue : k.state.queue = k'.state.queue
  outcomes : (outcomes k.history).map (Except.map (TaskRecord.retimed f)) =
    (outcomes k'.history).map (Except.map (TaskRecord.retimed f))

theorem Abreast.sameTasks (habreast : Abreast env f k k') : SameTasks f k k' where
  saves := by
    rw [← saves_visible, ← saves_visible, habreast.history]
  executeCalls := by
    rw [← executeCalls_visible f, ← executeCalls_visible f k'.history, habreast.history]
  queue := habreast.queue
  outcomes := by
    rw [← outcomes_visible, ← outcomes_visible, habreast.history]

/-- The event bus changes nothing that happens to a task: under a bus that
returns or raises exceptions at will, a sequential run saves, executes, queues
and ends its operations as it does under the null event bus. -/
theorem bus_isolated (sup : Supervisor) (env : Env) (f : Time → Time) (fuel : Nat)
    (ops : List Operation) (s : State) (hunaware : env.Unaware f) (hbus : env.BusContained) :
    SameTasks f (sup.run env fuel ops s) (sup.run env.withNullEventBus fuel ops s) := by
  have hsame : Abreast env f s s := ⟨rfl, fun _ => rfl, rfl, fun _ => rfl⟩
  exact (client_abreast hunaware hbus sup fuel ops hsame).sameTasks

theorem Env.Unaware.withEventBus (hunaware : env.Unaware f)
    (emit : Trace → TaskEvent → Except PyExc Unit) : (env.withEventBus emit).Unaware f :=
  { hunaware with }

/-- The collaborators of an unconfigured supervisor read no timestamps. -/
theorem returning_unaware : Env.returning.Unaware fun _ => 0 where
  now _ _ _ := rfl
  uuid4 h h' hvisible := by
    change freshId h = freshId h'
    rw [freshId, freshId, ← savedIds_visible fun _ => 0, hvisible, savedIds_visible]
  clock := .inr fun _ _ => rfl
  sleep _ _ _ _ := rfl
  descriptor _ _ _ _ := rfl
  validateInput _ _ _ _ _ := rfl
  execute _ _ _ _ _ _ _ := rfl
  evaluate _ _ _ _ _ _ _ := rfl
  decide _ _ _ _ _ _ _ := rfl
  shouldEscalate _ _ _ _ _ _ _ := rfl
  buildRecord h h' x y failures _ halike := by
    change Except.ok (EscalationRecord.mk x.taskId x.capability x.attempt failures 0 none) =
      .ok ⟨y.taskId, y.capability, y.attempt, failures, 0, none⟩
    rw [halike.taskId, halike.capability, halike.attempt]
  suggest _ _ _ _ _ := rfl
  publish _ _ _ _ _ _ := rfl
  publishSuccess _ _ _ _ _ := rfl

/-- A bus that is down. -/
def brokenBus : Trace → TaskEvent → Except PyExc Unit :=
  fun _ _ => .error (.exception "RuntimeError" "bus down")

theorem bus_isolated_broken :
    SameTasks (fun _ => 0)
      ((Supervisor.unconfigured ["echo"]).run (Env.returning.withEventBus brokenBus) 1
        [.submit ⟨"say", "echo", [], [], 0, none⟩, .runNext] (.initial (.inMemory [])))
      ((Supervisor.unconfigured ["echo"]).run
        (Env.returning.withEventBus brokenBus).withNullEventBus 1
        [.submit ⟨"say", "echo", [], [], 0, none⟩, .runNext] (.initial (.inMemory []))) :=
  bus_isolated _ _ _ _ _ _ (returning_unaware.withEventBus brokenBus)
    fun _ _ _ hraised => (Except.error.inj hraised) ▸ rfl

end Conductor
