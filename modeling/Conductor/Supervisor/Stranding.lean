/-
Stranded tasks.  `run_next` takes an id from the queue before it has done
anything with the task; what keeps the task reachable is that nothing raises
until the task has another status.
-/
import Conductor.Supervisor.Backlog
import Conductor.Supervisor.GuildReports

namespace Conductor

open Effects

/-- A version of the task with this last audit action was saved by an operation
that ends with an entry in the queue: by `submit`, or by `approve_task` with
`run=False`. -/
def savedToEnqueue (action : String) (taskId : TaskId) : Trace → Bool
  | [] => false
  | ⟨.storeSave t, _⟩ :: h =>
      (decide (t.taskId = taskId ∧ t.lastAction = some action) &&
        (desk h).operation.any Operation.enqueues) || savedToEnqueue action taskId h
  | _ :: h => savedToEnqueue action taskId h

/-- The task was created by `submit` and is still pending, or was approved to
be run later and is still approved. -/
def Awaited (h : Trace) (r : TaskRecord) : Prop :=
  r.status = .pending ∧ savedToEnqueue "submitted" r.taskId h = true ∨
    r.status = .approved ∧ savedToEnqueue "approved" r.taskId h = true

/-- The id that `run_next` has taken from the queue, until its task is saved
with a status in which it no longer waits. -/
def taken : Trace → Option TaskId
  | [] => none
  | ⟨.dequeue, .ok taskId⟩ :: _ => taskId
  | ⟨.entered _, _⟩ :: _ => none
  | ⟨.left _ _, _⟩ :: _ => none
  | ⟨.storeSave t, _⟩ :: h => if t.status.waiting then taken h else none
  | _ :: h => taken h

/-- No call raises while `run_next` has taken a task that still waits. -/
def Undisturbed (h : Trace) : Prop :=
  ∀ later e earlier exc, h = later ++ e :: earlier → taken earlier ≠ none →
    e.answer ≠ .error exc

theorem Undisturbed.tail {e : Event Call Answer} {h : Trace} (hcalm : Undisturbed (e :: h)) :
    Undisturbed h := by
  rintro later e' earlier exc rfl
  exact hcalm (e :: later) e' earlier exc rfl

/-- The same, as a check of the history. -/
def undisturbed : Trace → Bool
  | [] => true
  | e :: h => ((taken h).isNone || e.answer.isOk) && undisturbed h

theorem Undisturbed.of_check {h : Trace} (hcheck : undisturbed h = true) : Undisturbed h := by
  induction h with
  | nil => exact fun later e earlier exc hsplit => by simp at hsplit
  | cons head h ih =>
      obtain ⟨hhere, hbefore⟩ := Bool.and_eq_true_iff.mp hcheck
      rintro (_ | ⟨last, later⟩) e earlier exc hsplit htaken hraised
      · cases hsplit
        rw [hraised] at hhere
        simp [Except.isOk, Except.toBool, htaken] at hhere
      · cases hsplit
        exact ih hbefore later e earlier exc rfl htaken hraised

variable {sup : Supervisor} {env : Env} {queue : TaskQueue} {h : Trace}

theorem savedToEnqueue_cons {e : Event Call Answer} (hsave : ∀ t, e.call ≠ .storeSave t)
    (action : String) (taskId : TaskId) :
    savedToEnqueue action taskId (e :: h) = savedToEnqueue action taskId h := by
  obtain ⟨c, answer⟩ := e
  cases c with
  | storeSave t => exact absurd rfl (hsave t)
  | _ => rfl

theorem savedToEnqueue_save (action : String) (taskId : TaskId) (t : TaskRecord)
    (answer : Answer (.storeSave t)) :
    savedToEnqueue action taskId (⟨.storeSave t, answer⟩ :: h) = true ↔
      (t.taskId = taskId ∧ t.lastAction = some action) ∧
        (desk h).operation.any Operation.enqueues = true ∨
      savedToEnqueue action taskId h = true := by
  simp only [savedToEnqueue, Bool.or_eq_true, Bool.and_eq_true, decide_eq_true_eq]

theorem Awaited.of_cons {e : Event Call Answer} (hsave : ∀ t, e.call ≠ .storeSave t)
    {r : TaskRecord} (hawaited : Awaited (e :: h) r) : Awaited h r := by
  rwa [Awaited, savedToEnqueue_cons hsave, savedToEnqueue_cons hsave] at hawaited

theorem Awaited.waiting {r : TaskRecord} (hawaited : Awaited h r) : r.status.waiting = true := by
  rcases hawaited with ⟨hstatus, -⟩ | ⟨hstatus, -⟩ <;> rw [hstatus] <;> rfl

theorem saved_of_savedToEnqueue {action : String} {taskId : TaskId}
    (hsaved : savedToEnqueue action taskId h = true) :
    ∃ t, Saved h t ∧ t.taskId = taskId ∧ t.lastAction = some action := by
  induction h with
  | nil => cases hsaved
  | cons e h ih =>
      have hbefore (hsaved : savedToEnqueue action taskId h = true) :
          ∃ t, Saved (e :: h) t ∧ t.taskId = taskId ∧ t.lastAction = some action := by
        obtain ⟨t, ht, hrest⟩ := ih hsaved
        exact ⟨t, saved_cons.mpr (.inr ht), hrest⟩
      obtain ⟨c, answer⟩ := e
      cases c with
      | storeSave t =>
          rcases (savedToEnqueue_save action taskId t answer).mp hsaved with
            ⟨⟨hid, haction⟩, -⟩ | hsaved
          · exact ⟨t, saved_cons.mpr (.inl rfl), hid, haction⟩
          · exact hbefore hsaved
      | _ => exact hbefore hsaved

theorem Move.name_eq {d : Desk} {r t : TaskRecord} (hmove : Move d r t) : t.name = r.name := by
  cases hmove <;> rfl

theorem Move.approved_of_action {d : Desk} {r t : TaskRecord} (hmove : Move d r t)
    (haction : t.lastAction = some "approved") : t.status = .approved := by
  cases hmove with
  | approved => rfl
  | _ => simp at haction

theorem Created.lastAction {d : Desk} {t : TaskRecord} (hcreated : Created d t) :
    t.lastAction = some "submitted" := by
  obtain ⟨_, _, -, -, -, -, -, htrail⟩ := hcreated
  rw [TaskRecord.lastAction, htrail]
  rfl

/-- The monitor and the desk know the same operation. -/
theorem inCustody_operation (sup : Supervisor) (h : Trace) :
    (inCustody sup h).operation = (desk h).operation := by
  induction h with
  | nil => rfl
  | cons e h ih =>
      obtain ⟨c, answer⟩ := e
      cases c with
      | entered op | left op outcome | runTaskEntered taskId | storeSave t =>
          first | exact ih | rfl | (cases answer <;> exact ih)
      | dequeue => rcases answer with exc | _ | taskId <;> exact ih
      | storeGet taskId => rcases answer with exc | _ | task <;> exact ih
      | _ => cases answer <;> exact ih

namespace Kept

/-- Something is owed only during an operation. -/
theorem operation_of_owed (hkept : Kept sup env queue h) (howed : (inCustody sup h).owed = true) :
    (desk h).operation ≠ none := by
  rw [← inCustody_operation sup]
  induction h with
  | nil => cases howed
  | cons e h ih =>
      have ih := ih hkept.tail
      have hallowed := hkept.allowed
      obtain ⟨c, answer⟩ := e
      cases c with
      | entered op | left op outcome => cases howed
      | dequeue =>
          rcases answer with exc | _ | taskId
          · exact ih howed
          · exact ih howed
          · intro hnone
            have hnone : (inCustody sup h).operation = none := hnone
            simp [Custody.Allows, hnone] at hallowed
      | storeSave t =>
          have hinner := (Bool.and_eq_true_iff.mp howed).2
          split at hinner
          · intro hnone
            have hnone : (inCustody sup h).operation = none := hnone
            simp [hnone] at hinner
          · exact ih hinner
      | storeGet taskId =>
          cases answer with
          | error exc => exact ih howed
          | ok found => exact ih (Bool.and_eq_true_iff.mp howed).1
      | enqueue taskId => cases answer <;> cases howed
      | _ => cases answer <;> exact ih howed

/-- What `run_next` is owed it has taken. -/
theorem taken_of_owed (hkept : Kept sup env queue h) (howed : (inCustody sup h).owed = true)
    (hnext : (inCustody sup h).operation.any Operation.dequeues = true) : taken h ≠ none := by
  induction h with
  | nil => cases howed
  | cons e h ih =>
      have ih := ih hkept.tail
      have hallowed := hkept.allowed
      obtain ⟨c, answer⟩ := e
      cases c with
      | entered op | left op outcome => cases howed
      | dequeue =>
          rcases answer with exc | _ | taskId
          · exact ih howed hnext
          · have hidle : (inCustody sup h).owed = false := hallowed.2
            exact absurd (howed.symm.trans hidle) (by decide)
          · exact nofun
      | storeSave t =>
          obtain ⟨hwaits, hinner⟩ := Bool.and_eq_true_iff.mp howed
          have hnext : (inCustody sup h).operation.any Operation.dequeues = true := hnext
          rw [taken, if_pos hwaits]
          split at hinner
          · cases hop : (inCustody sup h).operation with
            | none => simp [hop] at hnext
            | some op =>
                cases op <;> simp [hop, Operation.enqueues, Operation.dequeues] at hinner hnext
          · exact ih hinner hnext
      | storeGet taskId =>
          cases answer with
          | error exc => exact ih howed hnext
          | ok found => exact ih (Bool.and_eq_true_iff.mp howed).1 hnext
      | enqueue taskId => cases answer <;> cases howed
      | _ => cases answer <;> exact ih howed hnext

/-- A bus that raises `Exception`s only, and no call that raises while a task is
taken. -/
theorem not_raised (hbus : env.BusContained) (hkept : Kept sup env queue h)
    (hcalm : Undisturbed h) : (inCustody sup h).raised = false := by
  induction h with
  | nil => rfl
  | cons e h ih =>
      have ih := ih hkept.tail hcalm.tail
      have hdisturbed (exc : PyExc) (hanswer : e.answer = .error exc) :
          (inCustody sup h).disturbed.raised = false := by
        cases howed : (inCustody sup h).owed && (inCustody sup h).operation.any
          Operation.dequeues with
        | false => simp [Custody.disturbed, ih, howed]
        | true =>
            obtain ⟨howed, hnext⟩ := Bool.and_eq_true_iff.mp howed
            exact absurd hanswer (hcalm [] e h exc rfl (hkept.tail.taken_of_owed howed hnext))
      obtain ⟨c, answer⟩ := e
      cases c with
      | entered op | left op outcome => rfl
      | storeSave t => exact ih
      | enqueue taskId => cases answer <;> exact ih
      | dequeue =>
          rcases answer with exc | _ | taskId
          · exact hdisturbed exc rfl
          · exact ih
          · exact ih
      | emit task event =>
          cases answer with
          | ok emitted => exact ih
          | error exc =>
              have hanswer : Except.error exc = env.emit h event := hkept.genuine.1
              have hcaught := hbus h event exc hanswer.symm
              change ((inCustody sup h).raised || !exc.isException) = false
              rw [ih, hcaught]
              rfl
      | _ =>
          cases answer with
          | ok value => exact ih
          | error exc => exact hdisturbed exc rfl

/-- Every stored task passes the guardrails. -/
theorem stored_accepted (hkept : Kept sup env queue h) {taskId : TaskId} {r : TaskRecord}
    (hstored : stored h taskId = some r) : sup.accepts r = true := by
  induction h generalizing taskId r with
  | nil => cases hstored
  | cons e h ih =>
      have ih {id : TaskId} {old : TaskRecord} (hold : stored h id = some old) :
          sup.accepts old = true := ih hkept.tail hold
      obtain ⟨c, answer⟩ := e
      cases c with
      | storeSave t =>
          rw [stored_save] at hstored
          split at hstored
          · cases hstored
            rcases hkept.toSequential.saved with hcreated | ⟨old, hold, -, hmove⟩
            · exact hkept.allowed.2 hcreated.lastAction
            · rw [Supervisor.accepts, hmove.name_eq, hmove.capability_eq]
              exact ih hold
          · exact ih hstored
      | _ => exact ih hstored

/-- A task that was approved before is past its approval. -/
theorem rank_of_approved (hunique : UniqueIds env) (hkept : Kept sup env queue h)
    {taskId : TaskId} (happroved : savedToEnqueue "approved" taskId h = true) {r : TaskRecord}
    (hstored : stored h taskId = some r) : r.status ≠ .awaitingApproval := by
  obtain ⟨t, hsaved, rfl, haction⟩ := saved_of_savedToEnqueue happroved
  have hrank := hkept.toSequential.rank_le_of_saved hunique hstored hsaved
    (stored_keyed hstored).symm
  obtain ⟨e, hmem, hcall⟩ := hsaved
  obtain ⟨later, earlier, rfl⟩ := List.append_of_mem hmem
  have hhere := hkept.toSequential.of_append
  obtain ⟨c, answer⟩ := e
  cases hcall
  have hstatus : t.status = .approved := by
    rcases hhere.saved with hcreated | ⟨old, -, -, hmove⟩
    · rw [hcreated.lastAction] at haction
      simp at haction
    · exact hmove.approved_of_action haction
  rw [hstatus] at hrank
  intro hawaiting
  rw [hawaiting] at hrank
  exact absurd hrank (by decide)

end Kept

/-- Each awaited task is queued, or the operation in progress owes it a place. -/
def NoneStranded (sup : Supervisor) (queue : TaskQueue) (h : Trace) : Prop :=
  ∀ taskId r, stored h taskId = some r → Awaited h r →
    taskId ∈ (queueAfter queue h).ids ∨
      (inCustody sup h).owed = true ∧ (inCustody sup h).hand = some taskId

/-- An unbounded queue stays one. -/
theorem queueAfter_inMemory (h : Trace) :
    ∃ ids, queueAfter (.inMemory []) h = .inMemory ids := by
  induction h with
  | nil => exact ⟨[], rfl⟩
  | cons e h ih =>
      obtain ⟨c, answer⟩ := e
      obtain ⟨ids, hqueue⟩ := ih
      cases c with
      | enqueue taskId =>
          simp only [queueAfter, hqueue, TaskQueue.enqueue]
          exact ⟨_, rfl⟩
      | dequeue =>
          simp only [queueAfter, hqueue]
          cases ids with
          | nil => exact ⟨[], rfl⟩
          | cons taskId rest => exact ⟨rest, rfl⟩
      | _ => exact ⟨ids, hqueue⟩

namespace NoneStranded

/-- A call that touches neither the store nor the queue, and takes nothing that
is owed out of the hands. -/
theorem untouched (hnone : NoneStranded sup queue h) {e : Event Call Answer}
    (hsave : ∀ t, e.call ≠ .storeSave t)
    (hqueue : ∀ taskId ∈ (queueAfter queue h).ids, taskId ∈ (queueAfter queue (e :: h)).ids)
    (hkeeps : ∀ taskId r, stored h taskId = some r → Awaited h r →
      (inCustody sup h).owed = true → (inCustody sup h).hand = some taskId →
        taskId ∈ (queueAfter queue (e :: h)).ids ∨ (inCustody sup (e :: h)).owed = true ∧
          (inCustody sup (e :: h)).hand = some taskId) :
    NoneStranded sup queue (e :: h) := by
  intro taskId r hstored hawaited
  rw [stored_cons_of_not_save hsave] at hstored
  have hawaited := hawaited.of_cons hsave
  rcases hnone taskId r hstored hawaited with hmem | ⟨howed, hhand⟩
  · exact .inl (hqueue taskId hmem)
  · exact hkeeps taskId r hstored hawaited howed hhand

theorem dequeued (hnone : NoneStranded sup queue h) {answer : Answer .dequeue}
    (hkept : Kept sup env queue (⟨.dequeue, answer⟩ :: h)) :
    NoneStranded sup queue (⟨.dequeue, answer⟩ :: h) := by
  have hidle : (inCustody sup h).owed = false := hkept.allowed.2
  have hids : (queueAfter queue (⟨.dequeue, answer⟩ :: h)).ids = (queueAfter queue h).ids.tail :=
    (TaskQueue.dequeue_ids _).2
  have hanswer := hkept.answer_dequeue
  intro taskId r hstored hawaited
  rw [stored_cons_of_not_save (by simp)] at hstored
  rcases hnone taskId r hstored (hawaited.of_cons (by simp)) with hmem | ⟨howed, -⟩
  · cases hentries : (queueAfter queue h).ids with
    | nil =>
        rw [hentries] at hmem
        cases hmem
    | cons head rest =>
        rw [hentries] at hmem hids hanswer
        subst hanswer
        rcases List.mem_cons.mp hmem with rfl | hmem
        · exact .inr ⟨rfl, rfl⟩
        · exact .inl (hids ▸ hmem)
  · exact absurd (howed.symm.trans hidle) (by decide)

theorem enqueued {taskId : TaskId} {answer : Answer (.enqueue taskId)}
    (hnone : NoneStranded sup (.inMemory []) h)
    (hkept : Kept sup env (.inMemory []) (⟨.enqueue taskId, answer⟩ :: h)) :
    NoneStranded sup (.inMemory []) (⟨.enqueue taskId, answer⟩ :: h) := by
  obtain ⟨hhand, -⟩ : (inCustody sup h).hand = some taskId ∧ _ := hkept.allowed
  obtain ⟨ids, hbefore⟩ := queueAfter_inMemory h
  have hids : (queueAfter (.inMemory []) (⟨.enqueue taskId, answer⟩ :: h)).ids =
      (queueAfter (.inMemory []) h).ids ++ [taskId] := by
    simp only [queueAfter, hbefore, TaskQueue.enqueue, TaskQueue.ids]
  refine hnone.untouched (by simp) ?_ ?_
  · intro id hmem
    rw [hids]
    exact List.mem_append_left _ hmem
  · intro id r _ _ _ hheld
    rw [hhand] at hheld
    cases hheld
    exact .inl (hids ▸ List.mem_append_right _ List.mem_cons_self)

/-- An awaited task that is read stays owed. -/
theorem loaded (hnone : NoneStranded sup queue h) {taskId : TaskId}
    {answer : Answer (.storeGet taskId)}
    (hkept : Kept sup env queue (⟨.storeGet taskId, answer⟩ :: h)) :
    NoneStranded sup queue (⟨.storeGet taskId, answer⟩ :: h) := by
  have hanswer := hkept.toSequential.answer_storeGet
  subst hanswer
  refine hnone.untouched (by simp) (fun _ hmem => hmem) ?_
  intro id r hstored hawaited howed hhand
  have hsame : some taskId = some id := (hkept.allowed howed).symm.trans hhand
  cases hsame
  refine .inr ⟨?_, hhand⟩
  change ((inCustody sup h).owed && (stored h taskId).any _) = true
  rw [howed, hstored]
  simp [hawaited.waiting, hkept.tail.stored_accepted hstored]

/-- A save that neither creates nor approves a task passes on what is owed. -/
theorem carried (hnone : NoneStranded sup queue h) {t : TaskRecord}
    {answer : Answer (.storeSave t)} (old : TaskRecord) (hid : t.taskId = old.taskId)
    (hold : stored h t.taskId = some old) (hstatus : t.status = old.status)
    (haction : ¬ (t.lastAction = some "submitted" ∨ t.lastAction = some "approved"))
    (hawaited : Awaited (⟨.storeSave t, answer⟩ :: h) t) :
    t.taskId ∈ (queueAfter queue h).ids ∨
      (inCustody sup (⟨.storeSave t, answer⟩ :: h)).owed = true := by
  have hbefore : Awaited h old := by
    rcases hawaited with ⟨hpending, hsaved⟩ | ⟨happroved, hsaved⟩
    · rcases (savedToEnqueue_save _ _ t answer).mp hsaved with ⟨⟨-, hhere⟩, -⟩ | hsaved
      · exact absurd (.inl hhere) haction
      · exact .inl ⟨hstatus ▸ hpending, hid ▸ hsaved⟩
    · rcases (savedToEnqueue_save _ _ t answer).mp hsaved with ⟨⟨-, hhere⟩, -⟩ | hsaved
      · exact absurd (.inr hhere) haction
      · exact .inr ⟨hstatus ▸ happroved, hid ▸ hsaved⟩
  rcases hnone t.taskId old hold hbefore with hmem | ⟨howed, -⟩
  · exact .inl hmem
  · refine .inr ?_
    change (t.status.waiting && if _ then _ else (inCustody sup h).owed) = true
    rw [if_neg haction, howed, hawaited.waiting]
    rfl

/-- A task that is created or approved to be queued is owed its place. -/
theorem decided {t : TaskRecord} {answer : Answer (.storeSave t)}
    (haction : t.lastAction = some "submitted" ∨ t.lastAction = some "approved")
    (hwaits : t.status.waiting = true)
    (hop : (desk h).operation.any Operation.enqueues = true) :
    (inCustody sup (⟨.storeSave t, answer⟩ :: h)).owed = true := by
  change (t.status.waiting && if _ then (inCustody sup h).operation.any Operation.enqueues
    else _) = true
  rw [if_pos haction, hwaits, inCustody_operation, hop]
  rfl

theorem saved (hunique : UniqueIds env) (hnone : NoneStranded sup queue h) {t : TaskRecord}
    {answer : Answer (.storeSave t)} (hkept : Kept sup env queue (⟨.storeSave t, answer⟩ :: h)) :
    NoneStranded sup queue (⟨.storeSave t, answer⟩ :: h) := by
  intro taskId r hstored hawaited
  rw [stored_save] at hstored
  by_cases hid : t.taskId = taskId
  · subst hid
    rw [if_pos rfl] at hstored
    cases hstored
    have hwaits := hawaited.waiting
    suffices hplace : t.taskId ∈ (queueAfter queue h).ids ∨
        (inCustody sup (⟨.storeSave t, answer⟩ :: h)).owed = true from
      hplace.imp id fun howed => ⟨howed, rfl⟩
    rcases hkept.toSequential.saved with hcreated | ⟨old, hold, -, hmove⟩
    · have haction := hcreated.lastAction
      have hfresh := hkept.tail.toSequential.created_fresh hunique hcreated
      rcases hawaited with ⟨-, hsaved⟩ | ⟨happroved, -⟩
      · rcases (savedToEnqueue_save _ _ t answer).mp hsaved with ⟨-, hop⟩ | hsaved
        · exact .inr (decided (.inl haction) hwaits hop)
        · obtain ⟨t', hearlier, hid', -⟩ := saved_of_savedToEnqueue hsaved
          obtain ⟨old, hold⟩ := hearlier.stored
          rw [hid', hfresh] at hold
          cases hold
      · obtain ⟨_, _, -, -, -, hpending, -⟩ := hcreated
        rw [hpending] at happroved
        cases happroved
    · cases hmove with
      | allowed _ _ _ hstatus =>
          exact hnone.carried old rfl hold rfl (by simp) hawaited
      | suggested => exact hnone.carried old rfl hold rfl (by simp) hawaited
      | failureRecorded _ _ _ hunderway | retried _ _ _ _ hunderway =>
          have hwaits : old.status.waiting = true := hwaits
          rcases hunderway.2 with hstatus | ⟨hstatus, -⟩ <;> rw [hstatus] at hwaits <;>
            cases hwaits
      | approved actor note run metadata ts hawaiting =>
          rcases hawaited with ⟨hpending, -⟩ | ⟨-, hsaved⟩
          · cases hpending
          · rcases (savedToEnqueue_save _ _ _ answer).mp hsaved with ⟨-, hop⟩ | hsaved
            · exact .inr (decided (.inr (by simp)) hwaits hop)
            · exact absurd hawaiting (hkept.tail.rank_of_approved hunique hsaved hold)
      | _ => cases hwaits
  · rw [if_neg hid] at hstored
    have hother : Awaited h r := by
      have hkey := stored_keyed hstored
      rcases hawaited with ⟨hstatus, hsaved⟩ | ⟨hstatus, hsaved⟩
      · rcases (savedToEnqueue_save _ _ t answer).mp hsaved with ⟨⟨hhere, -⟩, -⟩ | hsaved
        · exact absurd (hhere.trans hkey) hid
        · exact .inl ⟨hstatus, hsaved⟩
      · rcases (savedToEnqueue_save _ _ t answer).mp hsaved with ⟨⟨hhere, -⟩, -⟩ | hsaved
        · exact absurd (hhere.trans hkey) hid
        · exact .inr ⟨hstatus, hsaved⟩
    rcases hnone taskId r hstored hother with hmem | ⟨howed, hhand⟩
    · exact .inl hmem
    · rcases hkept.allowed.1 with hsame | ⟨-, hidle, -⟩
      · have hhand : some t.taskId = some taskId := hsame.symm.trans hhand
        exact absurd (Option.some.inj hhand) hid
      · exact absurd (howed.symm.trans hidle) (by decide)

theorem step (hunique : UniqueIds env) (hbus : env.BusContained) {e : Event Call Answer}
    (hnone : NoneStranded sup (.inMemory []) h) (hkept : Kept sup env (.inMemory []) (e :: h))
    (hcalm : Undisturbed h) : NoneStranded sup (.inMemory []) (e :: h) := by
  have hmarked {c : Call} {answer : Answer c} (hsave : ∀ t, c ≠ .storeSave t)
      (hqueue : queueAfter (.inMemory []) (⟨c, answer⟩ :: h) = queueAfter (.inMemory []) h)
      (hidle : (inCustody sup h).owed = false) :
      NoneStranded sup (.inMemory []) (⟨c, answer⟩ :: h) := by
    refine hnone.untouched hsave (fun _ hmem => hqueue ▸ hmem) ?_
    exact fun _ _ _ _ howed => absurd (howed.symm.trans hidle) (by decide)
  obtain ⟨c, answer⟩ := e
  cases c with
  | storeSave t => exact hnone.saved hunique hkept
  | enqueue taskId => exact hnone.enqueued hkept
  | dequeue => exact hnone.dequeued hkept
  | storeGet taskId => exact hnone.loaded hkept
  | entered op => exact hmarked (by simp) rfl hkept.allowed
  | left op outcome =>
      refine hmarked (by simp) rfl ?_
      rcases hkept.allowed with hidle | hraised
      · exact hidle
      · exact absurd (hraised.symm.trans (hkept.tail.not_raised hbus hcalm)) (by decide)
  | _ =>
      refine hnone.untouched (by simp) (fun _ hmem => hmem) ?_
      intro taskId r _ _ howed hhand
      cases answer <;> exact .inr ⟨howed, hhand⟩

end NoneStranded

theorem Kept.noneStranded (hunique : UniqueIds env) (hbus : env.BusContained)
    (hkept : Kept sup env (.inMemory []) h) (hcalm : Undisturbed h) :
    NoneStranded sup (.inMemory []) h := by
  induction h with
  | nil =>
      intro taskId r hstored
      cases hstored
  | cons e h ih => exact (ih hkept.tail hcalm.tail).step hunique hbus hkept hcalm.tail

/-- A client that has finished is at rest. -/
theorem client_rests {M : Machine World Call Answer} {fuel : Nat} {ops : List Operation}
    {k k' : State} (hrest : (desk k.history).operation = none)
    (hended : (client sup fuel ops).exec M k = (some (), k')) :
    (desk k'.history).operation = none := by
  induction ops generalizing k with
  | nil =>
      cases hended
      exact hrest
  | cons op ops ih =>
      rw [client, Prog.exec, Prog.exec_bind] at hended
      split at hended
      · rename_i ended k₁ hop
        refine ih ?_ hended
        rfl
      · cases hended

/-- No awaited task is stranded.  With an in-memory queue, unique ids and a bus
that raises `Exception`s only, at the end of every run in which no call raised
while `run_next` had taken a waiting task, each task that was created by
`submit` and is stored as pending, or was approved to be run later and is
stored as approved, has its id in the queue. -/
theorem awaited_task_queued (sup : Supervisor) (env : Env) (fuel : Nat) (ops : List Operation)
    (hunique : UniqueIds env) (hbus : env.BusContained) {k : State}
    (hended : (client sup fuel ops).exec env.machine (State.initial (.inMemory [])) =
      (some (), k))
    (hcalm : Undisturbed k.history) {taskId : TaskId} {r : TaskRecord}
    (hstored : k.state.store.get taskId = some r) (hawaited : Awaited k.history r) :
    taskId ∈ k.state.queue.ids := by
  have hrun : sup.run env fuel ops (.initial (.inMemory [])) = k := congrArg Prod.snd hended
  have hkept := run_kept sup env fuel ops (.inMemory [])
  have hstore := run_store sup env fuel ops (.inMemory []) taskId
  have hqueue := run_queue sup env fuel ops (.inMemory [])
  rw [hrun] at hkept hstore hqueue
  rw [hqueue]
  rcases hkept.noneStranded hunique hbus hcalm taskId r (hstore.symm.trans hstored) hawaited with
    hmem | ⟨howed, -⟩
  · exact hmem
  · exact absurd (client_rests rfl hended) (hkept.operation_of_owed howed)

theorem busContained_of_silent (hemit : env.emit = fun _ _ => .ok ()) : env.BusContained := by
  intro h event e hraised
  simp [hemit] at hraised

/-- Collaborators with a policy engine that raises. -/
def Env.undecided : Env :=
  { Env.returning with
    evaluate := fun _ _ _ => .error (.exception "ConnectionError" "policy engine unreachable") }

/-- A submitted task that `run_next` loses to the policy engine. -/
def strandedRun : Option Unit × State :=
  (client (.unconfigured ["echo"]) 1
    [.submit ⟨"say", "echo", [], [], 0, none⟩, .runNext]).exec Env.undecided.machine
      (State.initial (.inMemory []))

instance (h : Trace) (r : TaskRecord) : Decidable (Awaited h r) :=
  inferInstanceAs (Decidable (_ ∧ _ ∨ _ ∧ _))

/-- A raising policy engine strands the task that `run_next` has taken. -/
theorem pending_task_stranded :
    ¬ ∀ (sup : Supervisor) (env : Env) (fuel : Nat) (ops : List Operation) (k : State),
      UniqueIds env → env.BusContained →
        (client sup fuel ops).exec env.machine (State.initial (.inMemory [])) = (some (), k) →
          ∀ taskId r, k.state.store.get taskId = some r → Awaited k.history r →
            taskId ∈ k.state.queue.ids := by
  intro hqueued
  have hended : strandedRun.1 = some () := by decide +kernel
  have hawaited : (strandedRun.2.state.store.get "x").map
      (fun r => decide (Awaited strandedRun.2.history r)) = some true := by decide +kernel
  have hempty : strandedRun.2.state.queue.ids = [] := by decide +kernel
  obtain ⟨r, hstored, hawaited⟩ := Option.map_eq_some_iff.mp hawaited
  have hmem := hqueued _ _ _ _ strandedRun.2 (uniqueIds_of_freshId rfl)
    (busContained_of_silent rfl)
    (Prod.ext hended rfl : strandedRun = (some (), strandedRun.2)) "x" r hstored
    (of_decide_eq_true hawaited)
  rw [hempty] at hmem
  cases hmem

/-- Two submitted tasks, of which one is run. -/
def queuedRun : Option Unit × State :=
  (client (.unconfigured ["echo"]) 1
    [.submit ⟨"say", "echo", [], [], 0, none⟩, .submit ⟨"say", "echo", [], [], 0, none⟩,
      .runNext]).exec Env.returning.machine (State.initial (.inMemory []))

/-- The task that was not run is still queued. -/
theorem awaited_task_queued_second : "xx" ∈ queuedRun.2.state.queue.ids := by
  have hended : queuedRun.1 = some () := by decide +kernel
  have hawaited : (queuedRun.2.state.store.get "xx").map
      (fun r => decide (Awaited queuedRun.2.history r)) = some true := by decide +kernel
  have hcalm : Undisturbed queuedRun.2.history := .of_check (by decide +kernel)
  obtain ⟨r, hstored, hawaited⟩ := Option.map_eq_some_iff.mp hawaited
  exact awaited_task_queued _ _ _ _ (uniqueIds_of_freshId rfl)
    (busContained_of_silent rfl)
    (Prod.ext hended rfl : queuedRun = (some (), queuedRun.2)) hcalm hstored
    (of_decide_eq_true hawaited)

end Conductor
