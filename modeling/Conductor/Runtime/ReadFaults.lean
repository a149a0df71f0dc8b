/-
A call that reads the store raises nothing of its own: as long as the file can be
read, what it raises is what one of its file operations has raised.
-/
import Conductor.Runtime.FileContract

namespace Conductor.LocalTaskStore.Steps

open Effects Block

variable (codec : Codec TaskRecord) {α : Type}

/-- The file can be read by every call. -/
structure Readable (codec : Codec TaskRecord) (file : TaskFile) : Prop where
  get : ∀ taskId, ∃ found, LocalTaskStore.get codec taskId file = .ok found
  list : ∀ q, ∃ found, LocalTaskStore.list codec q file = .ok found

/-- What the file operations of a call have raised, the last one first. -/
def faultsAfter (faults : List PyExc) : (c : FileCall) → FileReply c → List PyExc
  | .began _, _ | .returned _ _, _ => []
  | _, .error e => e :: faults
  | _, .ok _ => faults

/-- A call that reads raises what has been raised. -/
def PassesOn (faults : List PyExc) : FileCall → Prop
  | .returned (.get _) (.error e) | .returned (.list _) (.error e) => e ∈ faults
  | _ => True

/-- What is read is a file that can be read. -/
def FindsReadable : (c : FileCall) → FileReply c → Prop
  | .exists, .ok false => Readable codec none
  | .readText, .ok raw => Readable codec (some raw)
  | _, _ => True

def reading : Contract (List PyExc) FileCall FileReply where
  initial := []
  next := faultsAfter
  guarantees := PassesOn
  relies _ := FindsReadable codec
  rests _ := True

variable {codec} {faults : List PyExc}

/-- A statement has raised a fault, or it has ended as it should. -/
def Excused (faults : List PyExc) (Q : Except PyExc α → Prop) (outcome : Except PyExc α) : Prop :=
  (∃ e ∈ faults, outcome = .error e) ∨ Q outcome

theorem excused_error {Q : Except PyExc α → Prop} (e : PyExc) (faults : List PyExc) :
    Excused (e :: faults) Q (.error e) :=
  .inl ⟨e, List.mem_cons_self, rfl⟩

/-- The file that was read is one that can be read. -/
theorem wp_readUnlocked_reading :
    readUnlocked.wp (reading codec).logic
      (fun outcome _ faults => Excused faults
        (fun outcome => ∃ file, Readable codec file ∧ outcome = readPayload file) outcome)
      () faults := by
  unfold readUnlocked
  apply Contract.wp_perform_then
  · trivial
  · exact fun e _ => excused_error e _
  intro found hreadable
  cases found with
  | false => exact .inr ⟨none, hreadable, rfl⟩
  | true =>
      apply Contract.wp_perform_then
      · trivial
      · exact fun e _ => excused_error e _
      intro raw hreadable
      exact .inr ⟨some raw, hreadable, rfl⟩

theorem wp_locked_reading {body : FileBlock α} {Q : Except PyExc α → Prop}
    (hbody : ∀ faults, body.wp (reading codec).logic
      (fun outcome _ faults => Excused faults Q outcome) () faults) :
    (locked body).wp (reading codec).logic (fun outcome _ faults => Excused faults Q outcome) ()
      faults := by
  unfold locked
  apply Contract.wp_perform_then
  · trivial
  · exact fun e _ => excused_error e _
  intro _ _
  apply Contract.wp_perform_then
  · trivial
  · exact fun e _ => excused_error e _
  intro _ _
  apply Contract.wp_perform_then
  · trivial
  · exact fun e _ => excused_error e _
  intro _ _
  apply Contract.wp_perform_then
  · trivial
  · exact fun e _ => excused_error e _
  intro _ _
  rw [wp_tryFinally]
  apply wp_mono (reading codec).logic_monotone _ (hbody _)
  intro outcome _ faults hexcused
  apply Contract.wp_perform
  · trivial
  intro answer _
  cases answer with
  | error e => exact excused_error e _
  | ok _ => exact hexcused

/-- A call that reads a file that can be read does not raise. -/
theorem wp_call_reading {β : Type} {rest : Value → FileBlock β} {k : Value → Except PyExc β}
    (hrest : ∀ payload, rest payload = Block.ofExcept (k payload))
    (hanswer : ∀ file, Readable codec file → ∃ found, (readPayload file >>= k) = .ok found) :
    (locked readUnlocked >>= rest).wp (reading codec).logic
      (fun outcome _ faults => Excused faults (fun outcome => ∃ found, outcome = .ok found) outcome)
      () faults := by
  rw [wp_bind]
  apply wp_mono (reading codec).logic_monotone _
    (wp_locked_reading fun _ => wp_readUnlocked_reading)
  rintro outcome _ faults (⟨e, hfault, rfl⟩ | ⟨file, hreadable, rfl⟩)
  · exact .inl ⟨e, hfault, rfl⟩
  · obtain ⟨found, hfound⟩ := hanswer file hreadable
    cases hread : readPayload file with
    | error e =>
        rw [hread] at hfound
        cases hfound
    | ok payload =>
        rw [hread] at hfound
        dsimp only
        rw [hrest, wp_ofExcept]
        exact .inr ⟨found, hfound⟩

/-- What a call ends with, if it only reads. -/
def Ended : (call : StoreCall) → Except PyExc (StoreResponse call) → List PyExc → Prop
  | .save _, _, _ => True
  | .get _, outcome, faults | .list _, outcome, faults =>
      Excused faults (fun outcome => ∃ found, outcome = .ok found) outcome

theorem wp_get_reading (taskId : TaskId) :
    (get codec taskId).wp (reading codec).logic
      (fun outcome _ faults => Ended (.get taskId) outcome faults) () faults := by
  apply wp_call_reading (k := fun payload => payload.getItem taskId >>= validated codec)
  · intro payload
    exact ofExcept_bind _ _
  · exact fun file hreadable => hreadable.get taskId

theorem wp_list_reading (q : TaskQuery) :
    (list codec q).wp (reading codec).logic
      (fun outcome _ faults => Ended (.list q) outcome faults) () faults := by
  apply wp_call_reading (k := listed codec q)
  · exact listed_block codec q
  · intro file hreadable
    rw [← list_eq_listed]
    exact hreadable.list q

theorem reading_open : Open (reading codec) := by
  intro faults c hmark
  cases c with
  | began call | returned call reply => cases hmark
  | _ => trivial

theorem wp_perform_reading (call : StoreCall) :
    (perform codec call).wp (reading codec).logic
      (fun outcome _ faults => Ended call outcome faults) () faults := by
  cases call with
  | save task => exact wp_perform_any reading_open (.save task)
  | get taskId => exact wp_get_reading taskId
  | list q => exact wp_list_reading q

theorem passesOn_of_ended {call : StoreCall} {outcome : Except PyExc (StoreResponse call)}
    (hended : Ended call outcome faults) : PassesOn faults (.returned call outcome) := by
  cases outcome with
  | ok response => cases call <;> trivial
  | error e =>
      have hfault {β : Type} (hexcused : Excused faults
          (fun outcome : Except PyExc β => ∃ found, outcome = .ok found) (.error e)) :
          e ∈ faults := by
        rcases hexcused with ⟨e', hmem, herror⟩ | ⟨found, hfound⟩
        · cases herror
          exact hmem
        · cases hfound
      cases call with
      | save task => trivial
      | get taskId => exact hfault hended
      | list q => exact hfault hended

/-- A process keeps to it for ever. -/
theorem wp_process_reading (program : Prog StoreCall StoreReply α) :
    (process codec program).wp (reading codec).logic (fun _ _ => True) faults := by
  induction program generalizing faults with
  | done value => trivial
  | outOfFuel => trivial
  | call call next ih =>
      refine ⟨trivial, fun answer _ => ?_⟩
      dsimp only
      rw [Prog.wp_bind]
      apply Prog.wp_mono (reading codec).logic_monotone _ (wp_perform_reading call)
      intro ended faults hended
      exact ⟨passesOn_of_ended hended, fun _ _ => ih ended.1⟩

end Conductor.LocalTaskStore.Steps
