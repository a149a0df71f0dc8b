/-
The queue and the waiting tasks.  Two representations of the same set, kept by
different operations: what must not happen in a run so that they stay in step.
-/
import Mathlib.Data.List.Perm.Subperm
import Conductor.Supervisor.Atomicity
import Conductor.Supervisor.Custody

namespace Conductor

open Effects

namespace TaskQueue

theorem ids_of_enqueue {queue queue' : TaskQueue} {taskId : TaskId}
    (henqueue : queue.enqueue taskId = .ok queue') : queue'.ids = queue.ids ++ [taskId] := by
  cases queue with
  | inMemory entries =>
      cases henqueue
      rfl
  | bounded entries maxSize =>
      rw [enqueue] at henqueue
      split at henqueue
      · cases henqueue
      · cases henqueue
        rfl

theorem dequeue_ids (queue : TaskQueue) :
    queue.dequeue.1 = queue.ids.head? ∧ queue.dequeue.2.ids = queue.ids.tail := by
  rcases queue with (_ | ⟨taskId, rest⟩) | ⟨_ | ⟨taskId, rest⟩, maxSize⟩ <;> exact ⟨rfl, rfl⟩

end TaskQueue

/-- The queue after a history of calls. -/
def queueAfter (start : TaskQueue) : Trace → TaskQueue
  | [] => start
  | ⟨.enqueue taskId, _⟩ :: h =>
      match (queueAfter start h).enqueue taskId with
      | .ok queue => queue
      | .error _ => queueAfter start h
  | ⟨.dequeue, _⟩ :: h => (queueAfter start h).dequeue.2
  | _ :: h => queueAfter start h

theorem stateAfter_queue (env : Env) (start : World) (h : Trace) :
    (env.machine.stateAfter start h).queue = queueAfter start.queue h := by
  induction h with
  | nil => rfl
  | cons e h ih =>
      obtain ⟨c, answer⟩ := e
      cases c with
      | enqueue taskId =>
          change (env.respond h (env.machine.stateAfter start h) (.enqueue taskId)).2.queue = _
          simp only [Env.respond, queueAfter, ← ih]
          generalize (env.machine.stateAfter start h).queue.enqueue taskId = result
          cases result <;> rfl
      | dequeue =>
          change (env.machine.stateAfter start h).queue.dequeue.2 = _
          rw [ih]
          rfl
      | _ => exact ih

/-- The queue of a run is told by its history. -/
theorem run_queue (sup : Supervisor) (env : Env) (fuel : Nat) (ops : List Operation)
    (queue : TaskQueue) :
    (sup.run env fuel ops (.initial queue)).state.queue =
      queueAfter queue (sup.run env fuel ops (.initial queue)).history := by
  have htraced : env.machine.Traced (World.initial queue) (State.initial queue) := ⟨rfl, trivial⟩
  have hstate := (Prog.exec_traced (client sup fuel ops) htraced).1
  change (((client sup fuel ops).exec env.machine _).2.state.queue) = _
  rw [hstate, stateAfter_queue]
  rfl

/-- A sequential history in which every task was kept as the monitor asks. -/
structure Kept (sup : Supervisor) (env : Env) (queue : TaskQueue) (h : Trace) : Prop
    extends Sequential sup env queue h where
  custody : (custody sup).Lawful h

theorem run_kept (sup : Supervisor) (env : Env) (fuel : Nat) (ops : List Operation)
    (queue : TaskQueue) : Kept sup env queue (sup.run env fuel ops (.initial queue)).history :=
  ⟨run_sequential sup env fuel ops queue, run_custody sup env fuel ops queue⟩

/-- The task that the operation in progress has in its hands. -/
abbrev inCustody (sup : Supervisor) (h : Trace) : Custody := (custody sup).view h

variable {sup : Supervisor} {env : Env} {queue : TaskQueue} {h : Trace}

namespace Kept

theorem tail {e : Event Call Answer} (hkept : Kept sup env queue (e :: h)) :
    Kept sup env queue h :=
  ⟨hkept.toSequential.tail, hkept.custody.2.2⟩

theorem allowed {e : Event Call Answer} (hkept : Kept sup env queue (e :: h)) :
    Custody.Allows sup (inCustody sup h) e.call :=
  hkept.custody.1

theorem answer_dequeue {answer : Answer .dequeue}
    (hkept : Kept sup env queue (⟨.dequeue, answer⟩ :: h)) :
    answer = .ok (queueAfter queue h).ids.head? := by
  have hanswer := hkept.genuine.1
  change answer = .ok (env.machine.stateAfter (.initial queue) h).queue.dequeue.1 at hanswer
  rw [hanswer, stateAfter_queue, (TaskQueue.dequeue_ids _).1]
  rfl

/-- An entry is appended, or the queue was full. -/
theorem answer_enqueue {taskId : TaskId} {answer : Answer (.enqueue taskId)}
    (hkept : Kept sup env queue (⟨.enqueue taskId, answer⟩ :: h)) :
    (answer = .ok () ∧ (queueAfter queue (⟨.enqueue taskId, answer⟩ :: h)).ids =
        (queueAfter queue h).ids ++ [taskId]) ∨
      ((∃ e, answer = .error e) ∧
        queueAfter queue (⟨.enqueue taskId, answer⟩ :: h) = queueAfter queue h) := by
  have hanswer := hkept.genuine.1
  change answer = (env.respond h (env.machine.stateAfter (.initial queue) h)
    (.enqueue taskId)).1 at hanswer
  simp only [Env.respond, stateAfter_queue] at hanswer
  change answer = (match (queueAfter queue h).enqueue taskId with
    | .ok queue => (Except.ok (), _)
    | .error e => (Except.error e, _)).1 at hanswer
  cases hresult : (queueAfter queue h).enqueue taskId with
  | ok queue' =>
      rw [hresult] at hanswer
      refine .inl ⟨hanswer, ?_⟩
      simp only [queueAfter, hresult]
      exact TaskQueue.ids_of_enqueue hresult
  | error e =>
      rw [hresult] at hanswer
      refine .inr ⟨⟨e, hanswer⟩, ?_⟩
      simp only [queueAfter, hresult]

end Kept

/-- A decision is taken about parked tasks only. -/
theorem Move.of_decision {d : Desk} {r t : TaskRecord} (hmove : Move d r t)
    (haction : t.lastAction = some "submitted" ∨ t.lastAction = some "approved" ∨
      t.lastAction = some "cancelled") : r.status = .awaitingApproval := by
  cases hmove with
  | approved _ _ _ _ _ hawaiting | cancelled _ _ _ _ hawaiting => exact hawaiting
  | _ => simp at haction

/-- No operation runs a task by its id while the id is queued. -/
def RunsUnqueued (queue : TaskQueue) (h : Trace) : Prop :=
  ∀ later taskId answer earlier, h = later ++ ⟨.entered (.runTask taskId), answer⟩ :: earlier →
    taskId ∉ (queueAfter queue earlier).ids

/-- The same, as a check of the history. -/
def runsUnqueued (queue : TaskQueue) : Trace → Bool
  | [] => true
  | ⟨.entered (.runTask taskId), _⟩ :: h =>
      !(queueAfter queue h).ids.contains taskId && runsUnqueued queue h
  | _ :: h => runsUnqueued queue h

theorem RunsUnqueued.of_check (hcheck : runsUnqueued queue h = true) : RunsUnqueued queue h := by
  induction h with
  | nil => exact fun later taskId answer earlier hsplit => by simp at hsplit
  | cons e h ih =>
      have hhere (taskId : TaskId) (hcall : e.call = .entered (.runTask taskId)) :
          taskId ∉ (queueAfter queue h).ids := by
        obtain ⟨c, answer⟩ := e
        cases hcall
        have hnot := (Bool.and_eq_true_iff.mp hcheck).1
        simpa using hnot
      have hbefore : runsUnqueued queue h = true := by
        unfold runsUnqueued at hcheck
        split at hcheck
        · cases ‹_ :: _ = []›
        · rename_i heq
          cases heq
          exact (Bool.and_eq_true_iff.mp hcheck).2
        · rename_i heq
          cases heq
          exact hcheck
      rintro (_ | ⟨head, later⟩) taskId answer earlier hsplit
      · cases hsplit
        exact hhere taskId rfl
      · cases hsplit
        exact ih hbefore later taskId answer earlier rfl

theorem RunsUnqueued.tail {e : Event Call Answer} (hruns : RunsUnqueued queue (e :: h)) :
    RunsUnqueued queue h := by
  rintro later taskId answer earlier rfl
  exact hruns (e :: later) taskId answer earlier rfl

/-- The stored task waits. -/
def StoredWaiting (h : Trace) (taskId : TaskId) : Prop :=
  ∃ r, stored h taskId = some r ∧ r.status.waiting = true

/-- Every entry is a different waiting task, and none is in the hands of the
operation in progress. -/
structure Backlog (sup : Supervisor) (queue : TaskQueue) (h : Trace) : Prop where
  nodup : (queueAfter queue h).ids.Nodup
  waits : ∀ taskId ∈ (queueAfter queue h).ids, StoredWaiting h taskId
  apart : ∀ taskId, (inCustody sup h).hand = some taskId → taskId ∉ (queueAfter queue h).ids
  owed : (inCustody sup h).owed = true → ∀ taskId, (inCustody sup h).hand = some taskId →
    StoredWaiting h taskId

namespace Backlog

/-- A call that touches neither the store nor the queue. -/
theorem untouched (hbacklog : Backlog sup queue h) {e : Event Call Answer}
    (hsave : ∀ t, e.call ≠ .storeSave t) (hqueue : queueAfter queue (e :: h) = queueAfter queue h)
    (hhand : (inCustody sup (e :: h)).hand = (inCustody sup h).hand ∨
      ∀ taskId, (inCustody sup (e :: h)).hand = some taskId → taskId ∉ (queueAfter queue h).ids)
    (howed : (inCustody sup (e :: h)).owed = true →
      (inCustody sup h).owed = true ∧ (inCustody sup (e :: h)).hand = (inCustody sup h).hand) :
    Backlog sup queue (e :: h) := by
  have hwaiting {taskId : TaskId} (hbefore : StoredWaiting h taskId) :
      StoredWaiting (e :: h) taskId := by
    rwa [StoredWaiting, stored_cons_of_not_save hsave]
  refine ⟨hqueue ▸ hbacklog.nodup, ?_, ?_, ?_⟩
  · rw [hqueue]
    exact fun taskId hmem => hwaiting (hbacklog.waits taskId hmem)
  · rw [hqueue]
    rcases hhand with hsame | hapart
    · rw [hsame]
      exact hbacklog.apart
    · exact hapart
  · intro hnow taskId htask
    obtain ⟨hbefore, hsame⟩ := howed hnow
    exact hwaiting (hbacklog.owed hbefore taskId (hsame ▸ htask))

/-- The entry that is taken out goes into the hands of the operation. -/
theorem dequeued (hbacklog : Backlog sup queue h) {answer : Answer .dequeue}
    (hkept : Kept sup env queue (⟨.dequeue, answer⟩ :: h)) :
    Backlog sup queue (⟨.dequeue, answer⟩ :: h) := by
  have hids : (queueAfter queue (⟨.dequeue, answer⟩ :: h)).ids = (queueAfter queue h).ids.tail :=
    (TaskQueue.dequeue_ids _).2
  have hanswer := hkept.answer_dequeue
  cases hentries : (queueAfter queue h).ids with
  | nil =>
      rw [hentries] at hids hanswer
      subst hanswer
      refine ⟨hids ▸ List.nodup_nil, ?_, ?_, hbacklog.owed⟩
      · rw [hids]
        exact fun id hmem => absurd hmem List.not_mem_nil
      · rw [hids]
        exact fun id _ => List.not_mem_nil
  | cons taskId rest =>
      rw [hentries] at hids hanswer
      subst hanswer
      have hnodup := hbacklog.nodup
      rw [hentries, List.nodup_cons] at hnodup
      have hwaits (id : TaskId) (hmem : id ∈ taskId :: rest) : StoredWaiting h id :=
        hbacklog.waits id (hentries ▸ hmem)
      refine ⟨hids ▸ hnodup.2, ?_, ?_, ?_⟩
      · rw [hids]
        exact fun id hmem => hwaits id (List.mem_cons_of_mem _ hmem)
      · rw [hids]
        rintro id ⟨⟩
        exact hnodup.1
      · rintro - id ⟨⟩
        exact hwaits taskId List.mem_cons_self

/-- The task in hand is appended to the queue. -/
theorem enqueued (hbacklog : Backlog sup queue h) {taskId : TaskId}
    {answer : Answer (.enqueue taskId)}
    (hkept : Kept sup env queue (⟨.enqueue taskId, answer⟩ :: h)) :
    Backlog sup queue (⟨.enqueue taskId, answer⟩ :: h) := by
  obtain ⟨hhand, howed⟩ : (inCustody sup h).hand = some taskId ∧ _ := hkept.allowed
  rcases hkept.answer_enqueue with ⟨rfl, hids⟩ | ⟨⟨e, rfl⟩, hqueue⟩
  · refine ⟨?_, ?_, nofun, nofun⟩
    · rw [hids, List.nodup_append_comm]
      exact List.nodup_cons.mpr ⟨hbacklog.apart taskId hhand, hbacklog.nodup⟩
    · intro id hmem
      rw [hids, List.mem_append, List.mem_singleton] at hmem
      rcases hmem with hmem | rfl
      · exact hbacklog.waits id hmem
      · exact hbacklog.owed howed id hhand
  · exact hbacklog.untouched (by simp) hqueue (.inl rfl) fun h => absurd h Bool.false_ne_true

/-- Only a task that is not queued is saved, and what is owed a place waits. -/
theorem saved (hunique : UniqueIds env) (hbacklog : Backlog sup queue h) {t : TaskRecord}
    {answer : Answer (.storeSave t)} (hkept : Kept sup env queue (⟨.storeSave t, answer⟩ :: h)) :
    Backlog sup queue (⟨.storeSave t, answer⟩ :: h) := by
  have hapart : t.taskId ∉ (queueAfter queue h).ids := by
    rcases hkept.allowed.1 with hhand | ⟨-, -, haction⟩
    · exact hbacklog.apart _ hhand
    · intro hmem
      obtain ⟨r, hstored, hwaits⟩ := hbacklog.waits _ hmem
      rcases hkept.toSequential.saved with hcreated | ⟨old, hold, -, hmove⟩
      · rw [hkept.tail.toSequential.created_fresh hunique hcreated] at hstored
        cases hstored
      · rw [hold] at hstored
        cases hstored
        rw [hmove.of_decision haction] at hwaits
        cases hwaits
  have hother {taskId : TaskId} (hmem : taskId ∈ (queueAfter queue h).ids) :
      StoredWaiting (⟨.storeSave t, answer⟩ :: h) taskId := by
    have hid : t.taskId ≠ taskId := by
      rintro rfl
      exact hapart hmem
    rw [StoredWaiting, stored_save, if_neg hid]
    exact hbacklog.waits taskId hmem
  refine ⟨hbacklog.nodup, fun taskId hmem => hother hmem, ?_, ?_⟩
  · rintro taskId ⟨⟩
    exact hapart
  · rintro howed taskId ⟨⟩
    refine ⟨t, by rw [stored_save, if_pos rfl], ?_⟩
    exact (Bool.and_eq_true_iff.mp howed).1

/-- Other calls leave store, queue and hands alone. -/
theorem step (hunique : UniqueIds env) {e : Event Call Answer} (hbacklog : Backlog sup queue h)
    (hkept : Kept sup env queue (e :: h)) (hruns : RunsUnqueued queue (e :: h)) :
    Backlog sup queue (e :: h) := by
  obtain ⟨c, answer⟩ := e
  cases c with
  | storeSave t => exact hbacklog.saved hunique hkept
  | enqueue taskId => exact hbacklog.enqueued hkept
  | dequeue => exact hbacklog.dequeued hkept
  | entered op =>
      refine hbacklog.untouched (by simp) rfl (.inr ?_) fun h => absurd h Bool.false_ne_true
      intro taskId hnamed
      cases op with
      | runTask named =>
          cases hnamed
          exact hruns [] _ answer h rfl
      | _ => cases hnamed
  | left op outcome =>
      exact hbacklog.untouched (by simp) rfl (.inr nofun) fun h => absurd h Bool.false_ne_true
  | storeGet taskId =>
      cases answer with
      | ok found =>
          exact hbacklog.untouched (by simp) rfl (.inl rfl)
            fun howed => ⟨(Bool.and_eq_true_iff.mp howed).1, rfl⟩
      | error e => exact hbacklog.untouched (by simp) rfl (.inl rfl) fun howed => ⟨howed, rfl⟩
  | _ =>
      cases answer <;>
        exact hbacklog.untouched (by simp) rfl (.inl rfl) fun howed => ⟨howed, rfl⟩

end Backlog

/-- As long as no queued task is run by its id, the queue holds waiting tasks
only, each of them once. -/
theorem Kept.backlog (hunique : UniqueIds env) (hempty : queue.ids = [])
    (hkept : Kept sup env queue h) (hruns : RunsUnqueued queue h) : Backlog sup queue h := by
  induction h with
  | nil =>
      have hids : (queueAfter queue []).ids = [] := hempty
      exact ⟨by simp [hids], by simp [hids], nofun, nofun⟩
  | cons e h ih => exact (ih hkept.tail hruns.tail).step hunique hkept hruns

/-- The stored tasks that wait to be run. -/
def waitingTasks (store : MemoryTaskStore) : Nat :=
  store.tasks.countP fun item => item.2.status.waiting

theorem mem_items_of_getItem {taskId : TaskId} {items : List (TaskId × TaskRecord)}
    {task : TaskRecord} (hget : MemoryTaskStore.getItem taskId items = some task) :
    (taskId, task) ∈ items := by
  induction items with
  | nil => cases hget
  | cons item rest ih =>
      obtain ⟨key, old⟩ := item
      rw [MemoryTaskStore.getItem] at hget
      split at hget
      · rename_i hkey
        cases hget
        exact hkey ▸ List.mem_cons_self
      · exact List.mem_cons_of_mem _ (ih hget)

/-- Different waiting tasks are counted. -/
theorem length_le_waitingTasks {store : MemoryTaskStore} {ids : List TaskId}
    (hnodup : ids.Nodup) (hwaits : ∀ taskId ∈ ids, ∃ r, store.get taskId = some r ∧
      r.status.waiting = true) : ids.length ≤ waitingTasks store := by
  have hsubset : ids ⊆ (store.tasks.filter fun item => item.2.status.waiting).map (·.1) := by
    intro taskId hmem
    obtain ⟨r, hstored, hwaiting⟩ := hwaits taskId hmem
    exact List.mem_map.mpr ⟨(taskId, r),
      List.mem_filter.mpr ⟨mem_items_of_getItem hstored, hwaiting⟩, rfl⟩
  have hle := (List.subperm_of_subset hnodup hsubset).length_le
  rwa [List.length_map, ← List.countP_eq_length_filter] at hle

/-- A bounded queue keeps its bound. -/
theorem queueAfter_bounded (maxSize : Int) (h : Trace) :
    ∃ ids, queueAfter (.bounded [] maxSize) h = .bounded ids maxSize := by
  induction h with
  | nil => exact ⟨[], rfl⟩
  | cons e h ih =>
      obtain ⟨c, answer⟩ := e
      obtain ⟨ids, hqueue⟩ := ih
      cases c with
      | enqueue taskId =>
          simp only [queueAfter, hqueue, TaskQueue.enqueue]
          split
          · rename_i hresult
            split at hresult
            · cases hresult
            · cases hresult
              exact ⟨_, rfl⟩
          · exact ⟨ids, rfl⟩
      | dequeue =>
          simp only [queueAfter, hqueue]
          cases ids with
          | nil => exact ⟨[], rfl⟩
          | cons taskId rest => exact ⟨rest, rfl⟩
      | _ => exact ⟨ids, hqueue⟩

/-- Backpressure counts waiting work.  With a bounded queue and unique ids, in
every state of a run that never ran a queued task by its id, `submit` is
refused by the queue only if at least `maxSize` stored tasks wait; and with
fewer of them every submission that is valid is accepted. -/
theorem queue_full_counts_waiting (sup : Supervisor) (env : Env) (maxSize : Int) (fuel : Nat)
    (ops : List Operation) (hunique : UniqueIds env)
    (hruns : RunsUnqueued (.bounded [] maxSize)
      (sup.run env fuel ops (.initial (.bounded [] maxSize))).history)
    (submission : TaskSubmission) {outcome : Except PyExc TaskRecord} {k' : State}
    (hexec : ((submit sup submission).run ()).exec env.machine
      (sup.run env fuel ops (.initial (.bounded [] maxSize))) = (some (outcome, ()), k')) :
    (QueueRefused (sup.run env fuel ops (.initial (.bounded [] maxSize))) k' →
      maxSize ≤ waitingTasks (sup.run env fuel ops (.initial (.bounded [] maxSize))).state.store) ∧
    (waitingTasks (sup.run env fuel ops (.initial (.bounded [] maxSize))).state.store < maxSize →
      Accepted sup env (sup.run env fuel ops (.initial (.bounded [] maxSize))) submission →
        ∃ task, outcome = .ok task) := by
  have hstored := run_store sup env fuel ops (.bounded [] maxSize)
  have hbacklog := (run_kept sup env fuel ops (.bounded [] maxSize)).backlog hunique rfl hruns
  have hqueue := run_queue sup env fuel ops (.bounded [] maxSize)
  have hends := ((env.machine.wp_iff_exec _ _ _ _).mp
    (submit_ends hunique submission hstored)).1 _ _ hexec
  generalize sup.run env fuel ops (.initial (.bounded [] maxSize)) = k at *
  have hcounted (hfull : k.state.queue.full = true) : maxSize ≤ waitingTasks k.state.store := by
    obtain ⟨ids, hbounded⟩ := queueAfter_bounded maxSize k.history
    have hlength : ids.length ≤ waitingTasks k.state.store := by
      have hnodup := hbacklog.nodup
      have hwaits := hbacklog.waits
      rw [hbounded] at hnodup hwaits
      refine length_le_waitingTasks hnodup fun taskId hmem => ?_
      obtain ⟨r, hr, hwaiting⟩ := hwaits taskId hmem
      exact ⟨r, (hstored taskId).trans hr, hwaiting⟩
    rw [hqueue, hbounded] at hfull
    have hbound : maxSize ≤ ids.length := of_decide_eq_true hfull
    omega
  cases hends with
  | rejected e k' hrejected hstate hevents hquiet hcalm =>
      exact ⟨fun hrefused => absurd hrefused hquiet, fun _ h => absurd h hrejected⟩
  | refused e k' task haccepted hfull hnew hstore hlast hcalm =>
      have hmany := hcounted hfull
      exact ⟨fun _ => hmany, fun hfew => by omega⟩
  | queued k' task haccepted hroom hquiet hcalm =>
      exact ⟨fun hrefused => absurd hrefused hquiet, fun _ _ => ⟨task, rfl⟩⟩

/-- One submission, whose task is then run by its id. -/
def leakedOps : List Operation :=
  [.submit ⟨"say", "echo", [], [], 0, none⟩, .runTask "x"]

def leakedRun : State :=
  (Supervisor.unconfigured ["echo"]).run .returning 1 leakedOps (.initial (.bounded [] 1))

/-- A valid submission that raises was refused by the queue. -/
theorem submitEcho_refused {k : State}
    (hstored : ∀ taskId, k.state.store.get taskId = stored k.history taskId)
    (hraised : ((submitEcho k).1.map fun ended => ended.1.isOk) = some false) :
    ∃ outcome, submitEcho k = (some (outcome, ()), (submitEcho k).2) ∧
      QueueRefused k (submitEcho k).2 := by
  obtain ⟨⟨outcome, _⟩, hended, hfailed⟩ := Option.map_eq_some_iff.mp hraised
  have hexec : submitEcho k = (some (outcome, ()), (submitEcho k).2) := Prod.ext hended rfl
  refine ⟨outcome, hexec, ?_⟩
  have hends := ((Env.returning.machine.wp_iff_exec _ _ _ _).mp
    (submit_ends (uniqueIds_of_freshId rfl) _ hstored)).1 _ _ hexec
  generalize (submitEcho k).2 = k' at hends
  cases hends with
  | rejected e _ hrejected =>
      refine absurd ?_ hrejected
      exact ⟨by decide +kernel, by decide +kernel, List.mem_cons_self, _, rfl⟩
  | refused e _ task haccepted hfull hnew hstore hlast => exact hlast
  | queued => cases hfailed

/-- The queue refuses a submission though no task waits. -/
theorem queue_full_of_finished :
    ¬ ∀ (sup : Supervisor) (env : Env) (maxSize : Int) (fuel : Nat) (ops : List Operation),
      UniqueIds env → ∀ (submission : TaskSubmission) outcome k',
        ((submit sup submission).run ()).exec env.machine
          (sup.run env fuel ops (.initial (.bounded [] maxSize))) = (some (outcome, ()), k') →
        QueueRefused (sup.run env fuel ops (.initial (.bounded [] maxSize))) k' →
          maxSize ≤
            waitingTasks (sup.run env fuel ops (.initial (.bounded [] maxSize))).state.store := by
  intro hcounts
  have hraised : ((submitEcho leakedRun).1.map fun ended => ended.1.isOk) = some false := by
    decide +kernel
  have hidle : waitingTasks leakedRun.state.store = 0 := by decide +kernel
  obtain ⟨outcome, hexec, hrefused⟩ := submitEcho_refused (run_store _ _ _ leakedOps _) hraised
  have hle : (1 : Int) ≤ waitingTasks leakedRun.state.store :=
    hcounts (.unconfigured ["echo"]) .returning 1 1 leakedOps (uniqueIds_of_freshId rfl) _
      outcome _ hexec hrefused
  rw [hidle] at hle
  exact absurd hle (by decide)

/-- Two submissions; the first task runs from the queue, and again by its id. -/
def drainedOps : List Operation :=
  [.submit ⟨"say", "echo", [], [], 0, none⟩, .runNext, .runTask "x",
    .submit ⟨"say", "echo", [], [], 0, none⟩]

def drainedRun : State :=
  (Supervisor.unconfigured ["echo"]).run .returning 1 drainedOps (.initial (.bounded [] 1))

/-- A refusal that is due. -/
theorem queue_full_counts_waiting_drained :
    QueueRefused drainedRun (submitEcho drainedRun).2 ∧
      (1 : Int) ≤ waitingTasks drainedRun.state.store := by
  have hraised : ((submitEcho drainedRun).1.map fun ended => ended.1.isOk) = some false := by
    decide +kernel
  obtain ⟨outcome, hexec, hrefused⟩ := submitEcho_refused (run_store _ _ _ drainedOps _) hraised
  have hruns : RunsUnqueued (.bounded [] 1) drainedRun.history := .of_check (by decide +kernel)
  exact ⟨hrefused, (queue_full_counts_waiting _ _ 1 1 drainedOps (uniqueIds_of_freshId rfl) hruns
    _ hexec).1 hrefused⟩

end Conductor
