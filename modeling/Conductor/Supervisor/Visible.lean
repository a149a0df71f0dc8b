/-
What is visible of a run to somebody who does not see the answers of the event
bus, nor the execution windows of the rate limits, and who reads every
timestamp through a function: the identity sees all of it, a constant nothing.
-/
import Conductor.Supervisor.GuildReports

namespace Conductor

open Effects

mutual

/-- A value with `f` applied to the timestamps in it. -/
def Value.retimed (f : Time → Time) : Value → Value
  | .datetime t => .datetime (f t)
  | .list items => .list (retimedList f items)
  | .dict items => .dict (retimedItems f items)
  | value => value

def Value.retimedList (f : Time → Time) : List Value → List Value
  | [] => []
  | value :: rest => value.retimed f :: retimedList f rest

def Value.retimedItems (f : Time → Time) :
    List (String × Value) → List (String × Value)
  | [] => []
  | (key, value) :: rest => (key, value.retimed f) :: retimedItems f rest

end

def TaskResult.retimed (f : Time → Time) (result : TaskResult) : TaskResult :=
  { result with
    metadata := Value.retimedItems f result.metadata
    startedAt := result.startedAt.map f
    completedAt := result.completedAt.map f }

def AuditEntry.retimed (f : Time → Time) (entry : AuditEntry) : AuditEntry :=
  { entry with timestamp := f entry.timestamp }

/-- The record with `f` applied to its timestamps. -/
def TaskRecord.retimed (f : Time → Time) (task : TaskRecord) : TaskRecord :=
  { task with
    result := task.result.map (TaskResult.retimed f)
    archivedAt := task.archivedAt.map f
    auditTrail := task.auditTrail.map (AuditEntry.retimed f)
    createdAt := f task.createdAt
    updatedAt := f task.updatedAt }

def TaskEvent.retimed (f : Time → Time) (event : TaskEvent) : TaskEvent :=
  { event with timestamp := f event.timestamp }

def EscalationRecord.retimed (f : Time → Time) (record : EscalationRecord) :
    EscalationRecord :=
  { record with escalatedAt := f record.escalatedAt }

/-- The event as it is visible, if it is. -/
def shown (f : Time → Time) : Event Call Answer → Option (Event Call Answer)
  | ⟨.now, answer⟩ => some ⟨.now, answer.map f⟩
  | ⟨.localNow, answer⟩ => some ⟨.localNow, answer.map f⟩
  | ⟨.monotonic, _⟩ | ⟨.lastStart _, _⟩ | ⟨.setLastStart _ _, _⟩ | ⟨.sleep _, _⟩ => none
  | ⟨.storeGet taskId, answer⟩ =>
      some ⟨.storeGet taskId, answer.map fun found => found.map (TaskRecord.retimed f)⟩
  | ⟨.storeSave task, answer⟩ => some ⟨.storeSave (task.retimed f), answer⟩
  | ⟨.emit task event, _⟩ => some ⟨.emit (task.retimed f) (event.retimed f), .ok ()⟩
  | ⟨.execute capability task payload context timeout, answer⟩ =>
      some ⟨.execute capability (task.retimed f) payload context timeout, answer⟩
  | ⟨.evaluate task context, answer⟩ => some ⟨.evaluate (task.retimed f) context, answer⟩
  | ⟨.decide task failure, answer⟩ => some ⟨.decide (task.retimed f) failure, answer⟩
  | ⟨.shouldEscalate task failures, answer⟩ =>
      some ⟨.shouldEscalate (task.retimed f) failures, answer⟩
  | ⟨.buildRecord task failures, answer⟩ =>
      some ⟨.buildRecord (task.retimed f) failures, answer.map (EscalationRecord.retimed f)⟩
  | ⟨.left op outcome, answer⟩ =>
      some ⟨.left op (outcome.map (TaskRecord.retimed f)), answer⟩
  | e => some e

/-- What is visible of a history. -/
def visible (f : Time → Time) (h : Trace) : Trace := h.filterMap (shown f)

/-- The arguments of the calls of `capability.execute`, the last one first. -/
def executeCalls : Trace → List (String × Value × CapabilityContext × Option Rat)
  | [] => []
  | ⟨.execute capability _ payload context timeout, _⟩ :: h =>
      (capability, payload, context, timeout) :: executeCalls h
  | _ :: h => executeCalls h

/-- What the operations have returned or raised, the last one first. -/
def outcomes : Trace → List (Except PyExc TaskRecord)
  | [] => []
  | ⟨.left _ outcome, _⟩ :: h => outcome :: outcomes h
  | _ :: h => outcomes h

theorem saves_visible (f : Time → Time) (h : Trace) :
    saves (visible f h) = (saves h).map (TaskRecord.retimed f) := by
  induction h with
  | nil => rfl
  | cons e h ih =>
      obtain ⟨c, answer⟩ := e
      cases c with
      | storeSave task => exact congrArg (task.retimed f :: ·) ih
      | _ => exact ih

theorem executeCalls_visible (f : Time → Time) (h : Trace) :
    executeCalls (visible f h) = executeCalls h := by
  induction h with
  | nil => rfl
  | cons e h ih =>
      obtain ⟨c, answer⟩ := e
      cases c with
      | execute capability task payload context timeout =>
          exact congrArg ((capability, payload, context, timeout) :: ·) ih
      | _ => exact ih

theorem outcomes_visible (f : Time → Time) (h : Trace) :
    outcomes (visible f h) =
      (outcomes h).map fun outcome => outcome.map (TaskRecord.retimed f) := by
  induction h with
  | nil => rfl
  | cons e h ih =>
      obtain ⟨c, answer⟩ := e
      cases c with
      | left op outcome => exact congrArg (outcome.map (TaskRecord.retimed f) :: ·) ih
      | _ => exact ih

theorem savedIds_visible (f : Time → Time) (h : Trace) :
    savedIds (visible f h) = savedIds h := by
  induction h with
  | nil => rfl
  | cons e h ih =>
      obtain ⟨c, answer⟩ := e
      cases c with
      | storeSave task => exact congrArg (task.taskId :: ·) ih
      | _ => exact ih

/-- Times of which `f` shows the same. -/
def SameTime (f : Time → Time) (t t' : Time) : Prop := f t = f t'

/-- Escalation records that `f` shows to be the same. -/
def SameRecord (f : Time → Time) (record record' : EscalationRecord) : Prop :=
  record.retimed f = record'.retimed f

/-- The records are the same but for what `f` forgets of their timestamps. -/
def Alike (f : Time → Time) (x y : TaskRecord) : Prop :=
  x.retimed f = y.retimed f

variable {f : Time → Time} {x y : TaskRecord}

namespace Alike

/-- What does not depend on timestamps is the same. -/
theorem same {α : Type} (halike : Alike f x y) (g : TaskRecord → α)
    (hg : ∀ t : TaskRecord, g (t.retimed f) = g t) : g x = g y := by
  rw [← hg x, ← hg y]
  exact congrArg g halike

theorem taskId (halike : Alike f x y) : x.taskId = y.taskId :=
  halike.same _ fun _ => rfl

theorem name (halike : Alike f x y) : x.name = y.name :=
  halike.same _ fun _ => rfl

theorem capability (halike : Alike f x y) : x.capability = y.capability :=
  halike.same _ fun _ => rfl

theorem input (halike : Alike f x y) : x.input = y.input :=
  halike.same _ fun _ => rfl

theorem status (halike : Alike f x y) : x.status = y.status :=
  halike.same _ fun _ => rfl

theorem attempt (halike : Alike f x y) : x.attempt = y.attempt :=
  halike.same _ fun _ => rfl

theorem maxRetries (halike : Alike f x y) : x.maxRetries = y.maxRetries :=
  halike.same _ fun _ => rfl

theorem buildSubmission (halike : Alike f x y) : buildSubmission x = buildSubmission y :=
  halike.same _ fun _ => rfl

/-- Mutations that come to the same once they are read through `f`. -/
theorem map (halike : Alike f x y) (g g' seen : TaskRecord → TaskRecord)
    (hg : ∀ task, (g task).retimed f = seen (task.retimed f))
    (hg' : ∀ task, (g' task).retimed f = seen (task.retimed f)) : Alike f (g x) (g' y) := by
  rw [Alike, hg, hg', halike]

theorem withStatus (halike : Alike f x y) (status : TaskStatus) :
    Alike f { x with status := status } { y with status := status } :=
  halike.map (fun task => { task with status := status })
    (fun task => { task with status := status })
    (fun task => { task with status := status }) (fun _ => rfl) fun _ => rfl

theorem withInput (halike : Alike f x y) (input : Dict) :
    Alike f { x with input := input } { y with input := input } :=
  halike.map (fun task => { task with input := input }) (fun task => { task with input := input })
    (fun task => { task with input := input }) (fun _ => rfl) fun _ => rfl

theorem withAttempt (halike : Alike f x y) (attempt : Int) :
    Alike f { x with attempt := attempt } { y with attempt := attempt } :=
  halike.map (fun task => { task with attempt := attempt })
    (fun task => { task with attempt := attempt })
    (fun task => { task with attempt := attempt }) (fun _ => rfl) fun _ => rfl

theorem withUpdatedAt (halike : Alike f x y) {t t' : Time} (htime : SameTime f t t') :
    Alike f { x with updatedAt := t } { y with updatedAt := t' } := by
  apply halike.map (fun task => { task with updatedAt := t })
    (fun task => { task with updatedAt := t' }) fun task => { task with updatedAt := f t }
  · exact fun _ => rfl
  · intro task
    rw [htime]
    rfl

theorem withEntry (halike : Alike f x y) {entry entry' : AuditEntry}
    (hentry : entry.retimed f = entry'.retimed f) :
    Alike f { x with auditTrail := x.auditTrail ++ [entry] }
      { y with auditTrail := y.auditTrail ++ [entry'] } := by
  apply halike.map (fun task => { task with auditTrail := task.auditTrail ++ [entry] })
    (fun task => { task with auditTrail := task.auditTrail ++ [entry'] })
    fun task => { task with auditTrail := task.auditTrail ++ [entry.retimed f] }
  · intro task
    simp [TaskRecord.retimed]
  · intro task
    simp [TaskRecord.retimed, hentry]

theorem withResult (halike : Alike f x y) {result result' : TaskResult}
    (hresult : result.retimed f = result'.retimed f) :
    Alike f { x with result := some result } { y with result := some result' } := by
  apply halike.map (fun task => { task with result := some result })
    (fun task => { task with result := some result' })
    fun task => { task with result := some (result.retimed f) }
  · exact fun _ => rfl
  · intro task
    rw [hresult]
    rfl

end Alike

theorem escalationMetadata_retimed {record record' : Option EscalationRecord}
    (hrecord : record.map (EscalationRecord.retimed f) =
      record'.map (EscalationRecord.retimed f)) (reason : Option String) :
    Value.retimedItems f (escalationMetadata record reason) =
      Value.retimedItems f (escalationMetadata record' reason) := by
  cases record with
  | none =>
      cases record' with
      | none => rfl
      | some record' => cases hrecord
  | some record =>
      cases record' with
      | none => cases hrecord
      | some record' =>
          simp only [Option.map_some, Option.some.injEq, EscalationRecord.retimed,
            EscalationRecord.mk.injEq] at hrecord
          simp [escalationMetadata, Value.retimedItems, Value.retimed, EscalationRecord.modelDump,
            hrecord]

theorem taskEvent_retimed (task : TaskRecord) (eventType : EventType) (timestamp : Time)
    (error : Option String) (metadata : Dict) :
    (taskEvent task eventType timestamp error metadata).retimed f =
      taskEvent (task.retimed f) eventType (f timestamp) error metadata := rfl

end Conductor
