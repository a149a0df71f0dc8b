/-
The event stream.  A save whose newest audit entry belongs to a transition is
followed by the event of that transition before anything else is done, so the
events of a task are the transitions of its audit trail.
-/
import Conductor.Supervisor.Sequential
import Conductor.Supervisor.Stages

namespace Conductor

open Effects Block

/-- What an event tells about a transition. -/
structure Announcement where
  eventType : EventType
  status : Option TaskStatus
  metadata : Dict

def TaskEvent.announcement (event : TaskEvent) : Announcement :=
  ⟨event.eventType, some event.status, event.metadata⟩

/-- The announcement of an audit entry; `submitted`, `allowed` and
`failure_recorded` have none. -/
def AuditEntry.announcement (entry : AuditEntry) : Option Announcement :=
  (EventType.ofAction entry.action).map fun eventType =>
    ⟨eventType, entry.toStatus, entry.metadata⟩

/-- What an audit trail announces, in its order. -/
def announced (trail : List AuditEntry) : List Announcement :=
  trail.filterMap AuditEntry.announcement

/-- The events emitted for a task, in their order. -/
def emitted (taskId : TaskId) : Trace → List Announcement
  | [] => []
  | ⟨.emit _ event, _⟩ :: h =>
      if event.taskId = taskId then emitted taskId h ++ [event.announcement]
      else emitted taskId h
  | _ :: h => emitted taskId h

/-- The audit trail stored for a task. -/
def storedTrail (h : Trace) (taskId : TaskId) : List AuditEntry :=
  ((stored h taskId).map (·.auditTrail)).getD []

/-- The announcement that a save makes due. -/
def TaskRecord.due (task : TaskRecord) : Option (TaskId × Announcement) :=
  task.auditTrail.getLast?.bind fun entry =>
    (EventType.ofAction entry.action).map fun eventType =>
      (task.taskId, ⟨eventType, some task.status, entry.metadata⟩)

/-- While an announcement is due, nothing is done but to read the clock and to
emit it. -/
def announcements : Monitor (Option (TaskId × Announcement)) Call Answer where
  initial := none
  next
    | _, .storeSave task, _ => task.due
    | _, .emit _ _, _ => none
    | due, _, _ => due
  allows
    | _, .now => True
    | due, .emit _ event => due = some (event.taskId, event.announcement)
    | due, _ => due = none
  answers := Sound

theorem announcements_timeless : Timeless announcements :=
  ⟨rfl, fun _ => trivial, fun _ _ => rfl⟩

abbrev NothingDue (due : Option (TaskId × Announcement)) : Prop := due = none

theorem due_transitioned (task : TaskRecord) (toStatus : TaskStatus) (actor action : String)
    (metadata : Dict) (ts : Time) :
    (task.transitioned toStatus actor action metadata ts).due =
      (EventType.ofAction action).map fun eventType =>
        (task.taskId, ⟨eventType, some toStatus, metadata⟩) := by
  simp [TaskRecord.due, TaskRecord.transitioned]

theorem due_noted (task : TaskRecord) (entry : AuditEntry) (saved : Time) :
    (task.noted entry saved).due = (EventType.ofAction entry.action).map fun eventType =>
      (task.taskId, ⟨eventType, some task.status, entry.metadata⟩) := by
  simp [TaskRecord.due, TaskRecord.noted]

/-- A transition with the event of its action settles what it makes due. -/
theorem announced_transition {task : TaskRecord} {toStatus : TaskStatus}
    {actor action : String} {eventType : EventType} {metadata : Dict} {error : Option String}
    {timestamp : Option Time} (haction : EventType.ofAction action = some eventType) :
    (transitionStatus toStatus actor action eventType metadata error timestamp).wp
      announcements.logic (fun _ t due => NothingDue due ∧ t.status = toStatus) task none := by
  refine announcements_timeless.wp_transitionStatus (fun _ => rfl) ?_ ?_
  · rintro ts _ rfl ts'
    change TaskRecord.due _ = some _
    rw [due_transitioned, haction]
    rfl
  · rintro ts _ rfl ts' answer outcome -
    exact ⟨rfl, rfl⟩

/-- Every operation announces what it makes due. -/
theorem nothingDue_invariant :
    OperationInvariant announcements.logic (fun _ _ => NothingDue) NothingDue where
  monotone := announcements.logic_monotone
  outOfFuel _ _ _ := trivial
  loaded _ _ _ h := h
  approved _ _ h _ := h
  result _ _ _ _ h := h
  attempt _ _ _ h := h
  beside stage task due c hc h := by
    refine ⟨?_, fun answer _ => ?_⟩ <;> cases c <;> first | exact h | trivial
  described _ _ _ _ h := ⟨h, fun _ _ => ⟨h, fun _ _ _ => h⟩⟩
  evaluated _ _ _ h := ⟨h, fun _ _ => ⟨h, fun _ _ _ => h⟩⟩
  parked task due actor metadata h := by
    subst h
    exact wp_mono announcements.logic_monotone (fun _ _ _ h => ⟨h.1, fun _ => h.2⟩)
      (announced_transition rfl)
  denied task due metadata error ts h := by
    subst h
    exact wp_mono announcements.logic_monotone (fun _ _ _ h => ⟨h.1, fun _ => h.2⟩)
      (announced_transition rfl)
  suggested _ _ h := ⟨h, fun _ _ => ⟨h, fun _ _ _ => h⟩⟩
  attempted _ _ _ _ _ h := ⟨h, fun _ _ => ⟨h, fun _ _ => ⟨h, fun _ _ => h⟩⟩⟩
  decided _ _ _ h := ⟨h, fun _ _ => ⟨h, fun _ _ => h⟩⟩
  noted actor action fromStatus toStatus metadata haction := by
    rintro task due rfl
    refine announcements_timeless.wp_note ?_
    rintro ts saved _ rfl
    refine ⟨rfl, ?_⟩
    change TaskRecord.due _ = none
    rw [due_noted, haction]
    rfl
  retried metadata error := by
    rintro task due rfl
    refine announcements_timeless.wp_note_emit ?_
    rintro ts saved t rfl
    refine ⟨rfl, fun ts' => ⟨?_, fun _ _ _ => rfl⟩⟩
    change TaskRecord.due _ = some _
    rw [due_noted]
    rfl
  worked toStatus action eventType metadata error ts _ _ haction := by
    rintro task due rfl
    exact wp_mono announcements.logic_monotone (fun _ _ _ h => h.1)
      (announced_transition haction)
  settled _ _ h := h
  atDesk due c hc h := by
    refine ⟨?_, fun answer _ => ?_⟩ <;> cases c <;> first | exact h | trivial
  found _ _ h := ⟨h, fun _ _ => ⟨h, fun _ _ => h⟩⟩
  created due task ts metadata h _ htrail := by
    refine ⟨h, fun _ _ => ?_⟩
    change TaskRecord.due _ = none
    simp [TaskRecord.due, htrail, EventType.ofAction]
  approving task due actor metadata h _ := by
    subst h
    exact wp_mono announcements.logic_monotone (fun _ _ _ h => h.1) (announced_transition rfl)
  cancelling task due actor metadata error ts h _ := by
    subst h
    exact wp_mono announcements.logic_monotone (fun _ _ _ h => h.1) (announced_transition rfl)

/-- A move adds one audit entry, and what the entry announces is the status the
record then has. -/
theorem Move.announces {d : Desk} {r t : TaskRecord} (hmove : Move d r t)
    (hfaulted : d.faulted = false) :
    ∃ entry, t.auditTrail = r.auditTrail ++ [entry] ∧
      (EventType.ofAction entry.action ≠ none → entry.toStatus = some t.status) := by
  cases hmove with
  | allowed | suggested | failureRecorded => exact ⟨_, rfl, fun hevent => absurd rfl hevent⟩
  | retried _ _ _ _ hunderway =>
      exact ⟨_, rfl, fun _ => congrArg some (hunderway.running hfaulted).symm⟩
  | _ => exact ⟨_, rfl, fun _ => rfl⟩

/-- The announcement that is due for a task. -/
def dueFor (taskId : TaskId) : Option (TaskId × Announcement) → List Announcement
  | some (id, announcement) => if id = taskId then [announcement] else []
  | none => []

/-- The entry a save adds announces what the save makes due. -/
theorem due_of_append {t : TaskRecord} {trail : List AuditEntry} {entry : AuditEntry}
    (htrail : t.auditTrail = trail ++ [entry])
    (hstatus : EventType.ofAction entry.action ≠ none → entry.toStatus = some t.status) :
    announced t.auditTrail = announced trail ++ dueFor t.taskId t.due := by
  rw [htrail, announced, List.filterMap_append, TaskRecord.due, htrail,
    List.getLast?_append_of_ne_nil _ (by simp)]
  cases hevent : EventType.ofAction entry.action with
  | none => simp [AuditEntry.announcement, announced, dueFor, hevent]
  | some eventType =>
      have htold := hstatus (by simp [hevent])
      simp [AuditEntry.announcement, announced, dueFor, hevent, htold]

variable {sup : Supervisor} {env : Env} {queue : TaskQueue} {h : Trace}

theorem storedTrail_save (h : Trace) (t : TaskRecord) (answer : Answer (.storeSave t))
    (taskId : TaskId) : storedTrail (⟨.storeSave t, answer⟩ :: h) taskId =
      if t.taskId = taskId then t.auditTrail else storedTrail h taskId := by
  simp only [storedTrail, stored_save]
  split <;> rfl

/-- The trails announce what was emitted, and what is due. -/
theorem Sequential.announced_eq (hunique : UniqueIds env) (hsafe : GuildSafe sup env)
    (hseq : Sequential sup env queue h) (hlawful : announcements.Lawful h) (taskId : TaskId) :
    announced (storedTrail h taskId) =
      emitted taskId h ++ dueFor taskId (announcements.view h) := by
  induction h with
  | nil => rfl
  | cons e h ih =>
      obtain ⟨hallowed, -, hbefore⟩ := hlawful
      have ih := ih hseq.tail hbefore
      obtain ⟨c, answer⟩ := e
      cases c with
      | storeSave t =>
          have hnothing : announcements.view h = none := hallowed
          rw [hnothing, dueFor, List.append_nil] at ih
          change _ = emitted taskId h ++ dueFor taskId t.due
          rw [storedTrail_save]
          split
          · rename_i hid
            subst hid
            rw [← ih]
            rcases hseq.saved with hcreated | ⟨r, hstored, -, hmove⟩
            · have hfresh := hseq.tail.created_fresh hunique hcreated
              obtain ⟨_, _, -, -, -, -, -, htrail⟩ := hcreated
              rw [storedTrail, hfresh]
              rw [← List.nil_append [_]] at htrail
              refine due_of_append htrail fun hevent => ?_
              exact absurd rfl hevent
            · obtain ⟨entry, htrail, hstatus⟩ :=
                hmove.announces (hseq.tail.not_faulted hsafe)
              rw [storedTrail, hstored]
              exact due_of_append htrail hstatus
          · rename_i hid
            rw [ih]
            suffices hother : dueFor taskId t.due = [] by rw [hother, List.append_nil]
            simp only [TaskRecord.due]
            cases t.auditTrail.getLast? with
            | none => rfl
            | some entry =>
                cases hevent : EventType.ofAction entry.action <;> simp [dueFor, hevent, hid]
      | emit task event =>
          have hdue : announcements.view h = some (event.taskId, event.announcement) := hallowed
          change announced (storedTrail h taskId) = (if event.taskId = taskId then
            emitted taskId h ++ [event.announcement] else emitted taskId h) ++ []
          rw [ih, hdue, dueFor, List.append_nil]
          split
          · rfl
          · exact List.append_nil _
      | _ => exact ih

theorem run_announcements (sup : Supervisor) (env : Env) (fuel : Nat) (ops : List Operation)
    (queue : TaskQueue) :
    announcements.Lawful (sup.run env fuel ops (.initial queue)).history :=
  Prog.exec_lawful (I := fun k => k.state.store.Keyed) (keyed_step env)
    (fun _ c hkeyed => sound_of_keyed env hkeyed c) MemoryTaskStore.keyed_empty
    (nothingDue_invariant.client fuel ops rfl) trivial

/-- The event stream mirrors the audit trail.  In a sequential run from an empty
store without a guild, whenever the supervisor makes any call other than a
reading of the clock or the emit that is due, and so whenever an operation
begins or ends, the events emitted for each task are, one for one and in order,
what the entries of its stored audit trail announce. -/
theorem events_mirror_audit (sup : Supervisor) (env : Env) (queue : TaskQueue) (fuel : Nat)
    (ops : List Operation) (hguild : sup.guildKnowledge = false) (hunique : UniqueIds env) :
    ∀ later e earlier, (sup.run env fuel ops (.initial queue)).history = later ++ e :: earlier →
      e.call ≠ .now → (∀ task event, e.call ≠ .emit task event) →
        ∀ taskId, emitted taskId earlier = announced (storedTrail earlier taskId) := by
  intro later e earlier hsplit hclock hemit taskId
  have hsafe : GuildSafe sup env := fun h => by simp [hguild] at h
  have hrun := run_sequential sup env fuel ops queue
  have hlawful := run_announcements sup env fuel ops queue
  rw [hsplit] at hrun hlawful
  have hnothing : announcements.view earlier = none := by
    have hallowed := hlawful.allows_of_split
    obtain ⟨c, answer⟩ := e
    cases c with
    | now => exact absurd rfl hclock
    | emit task event => exact absurd rfl (hemit task event)
    | _ => exact hallowed
  rw [hrun.of_append.tail.announced_eq hunique hsafe hlawful.of_append.2.2, hnothing]
  exact (List.append_nil _).symm

theorem events_mirror_audit_echo :
    ∃ earlier, (emitted "x" earlier).map (·.eventType) = [.taskStarted, .taskCompleted] ∧
      emitted "x" earlier = announced (storedTrail earlier "x") := by
  have hemitted : (emitted "x" echoRun.history.tail).map (·.eventType) =
      [.taskStarted, .taskCompleted] := by decide +kernel
  have hmark : echoRun.history.head?.map (·.call.isMark) = some true := by decide +kernel
  cases hhistory : echoRun.history with
  | nil => simp [hhistory] at hmark
  | cons e earlier =>
      rw [hhistory] at hemitted hmark
      have hleft : e.call.isMark = true := Option.some.inj hmark
      refine ⟨earlier, hemitted, ?_⟩
      refine events_mirror_audit _ _ _ _ _ rfl (uniqueIds_of_freshId rfl) [] e earlier hhistory
        ?_ ?_ "x"
      · intro hcall
        simp [hcall, Call.isMark] at hleft
      · intro task event hcall
        simp [hcall, Call.isMark] at hleft

end Conductor
