/-
A process that works on the file of the store while nobody else does.  Its calls
return what they do on the content of the file, whichever of the answers that the
file system may give it is given.
-/
import Conductor.Runtime.Linearised

namespace Conductor.LocalTaskStore.Steps

open Effects Crowd StoreDisk Block

variable {ι α : Type} [DecidableEq ι] {codec : Codec TaskRecord} {statFails : Bool} {i : ι}
variable {disk : StoreDisk ι} {h : History FileCall FileReply}

/-- What a process can come to on the disk. -/
abbrev alone (statFails : Bool) (i : ι) :
    Logic (StoreDisk ι × History FileCall FileReply) FileCall FileReply :=
  possible (device statFails) i

/-- The rule for a call that is answered. -/
theorem wp_ask {c : FileCall} {answer : FileReply c} {disk' : StoreDisk ι}
    {post : FileReply c → Unit → StoreDisk ι × History FileCall FileReply → Prop}
    (hanswer : MayAnswer (device statFails) i disk c answer disk')
    (hpost : post answer () (disk', ⟨c, answer⟩ :: h)) :
    (askFile c).wp (alone statFails i) post () (disk, h) :=
  ⟨answer, disk', hanswer, hpost⟩

/-- The rule for a call that is answered, and what comes after it. -/
theorem wp_ask_then {β : Type} {c : FileCall} {response : FileResponse c}
    {disk' : StoreDisk ι} {f : FileResponse c → FileBlock β}
    {post : Except PyExc β → Unit → StoreDisk ι × History FileCall FileReply → Prop}
    (hanswer : MayAnswer (device statFails) i disk c (.ok response) disk')
    (hrest : (f response).wp (alone statFails i) post () (disk', ⟨c, .ok response⟩ :: h)) :
    (askFile c >>= f).wp (alone statFails i) post () (disk, h) := by
  rw [wp_bind]
  exact wp_ask hanswer hrest

/-- The lock is free, and the process takes it and gives it back. -/
theorem wp_locked_alone {body : FileBlock α} (hfree : disk.holder = none)
    {post : Except PyExc α → Unit → StoreDisk ι × History FileCall FileReply → Prop}
    (hbody : body.wp (alone statFails i)
      (fun outcome _ k => post outcome ()
        ({ k.1 with holder := none }, ⟨.unlock, .ok ()⟩ :: k.2)) ()
      ({ disk with holder := some i }, ⟨.flock, .ok ()⟩ :: ⟨.openLock, .ok ()⟩ ::
        ⟨.mkdir, .ok ()⟩ :: ⟨.mkdir, .ok ()⟩ :: h)) :
    (locked body).wp (alone statFails i) post () (disk, h) := by
  have hflock : MayAnswer (device statFails) i disk .flock (.ok ())
      { disk with holder := some i } := by
    left
    change respond i disk .flock = _
    rw [respond, hfree]
  unfold locked
  apply wp_ask_then (.inl rfl)
  apply wp_ask_then (.inl rfl)
  apply wp_ask_then (.inl rfl)
  apply wp_ask_then hflock
  rw [wp_tryFinally]
  apply wp_mono (possible_monotone _ _) _ hbody
  intro outcome _ k hpost
  exact wp_ask (.inl rfl) hpost

/-- There is no file, or a stat fails and says so. -/
theorem wp_unseen (hmissing : disk.file = none ∨ statFails = true)
    {post : Except PyExc Value → Unit → StoreDisk ι × History FileCall FileReply → Prop}
    (hpost : post (.ok (.dict [])) () (disk, ⟨.exists, .ok false⟩ :: h)) :
    readUnlocked.wp (alone statFails i) post () (disk, h) := by
  have hexists : MayAnswer (device statFails) i disk .exists (.ok false) disk := by
    rcases hmissing with hfile | rfl
    · left
      change respond i disk .exists = _
      rw [respond, hfile]
      rfl
    · exact .inr ⟨⟨fileNotFound, ""⟩, rfl⟩
  unfold readUnlocked
  exact wp_ask_then hexists hpost

theorem wp_seen {text : String} (hfile : disk.file = some text)
    {post : Except PyExc Value → Unit → StoreDisk ι × History FileCall FileReply → Prop}
    (hpost : post (readPayload (some text)) ()
      (disk, ⟨.readText, .ok text⟩ :: ⟨.exists, .ok true⟩ :: h)) :
    readUnlocked.wp (alone statFails i) post () (disk, h) := by
  have hexists : MayAnswer (device statFails) i disk .exists (.ok true) disk := by
    left
    change respond i disk .exists = _
    rw [respond, hfile]
    rfl
  have hread : MayAnswer (device statFails) i disk .readText (.ok text) disk := by
    left
    change respond i disk .readText = _
    rw [respond, hfile]
  unfold readUnlocked
  apply wp_ask_then hexists
  exact wp_ask_then hread hpost

theorem wp_written {payload : Dict} {text : String} (htext : payloadText payload = .ok text) :
    (writeUnlocked payload).wp (alone statFails i)
      (fun outcome _ k => outcome = .ok () ∧ k.1.file = some text ∧ completed k.2 = completed h) ()
      (disk, h) := by
  unfold writeUnlocked
  apply wp_ask_then (.inl rfl)
  apply wp_ask_then (.inl rfl)
  rw [wp_tryFinally, wp_bind, wp_ofExcept, htext]
  apply wp_ask_then (.inl rfl)
  apply wp_ask_then (.inl rfl)
  have hreplace {disk : StoreDisk ι} {tmp : Nat} (htmp : disk.temps tmp = some text) :
      MayAnswer (device statFails) i disk (.replace tmp) (.ok ()) { disk with
        file := some text
        temps := Function.update disk.temps tmp none } := by
    left
    change respond i disk (.replace tmp) = _
    rw [respond, htmp]
  apply wp_ask (hreplace (Function.update_self _ _ _))
  have hgone {disk : StoreDisk ι} {tmp : Nat} (htmp : disk.temps tmp = none) :
      MayAnswer (device statFails) i disk (.tempExists tmp) (.ok false) disk := by
    left
    change respond i disk (.tempExists tmp) = _
    rw [respond, htmp]
    rfl
  apply wp_ask_then (hgone (Function.update_self _ _ _))
  exact ⟨rfl, rfl, rfl⟩

theorem wp_save_alone {task : TaskRecord} {text : String} (hfree : disk.holder = none)
    (hmissing : disk.file = none ∨ statFails = true)
    (htext : savedText codec task.taskId task none = .ok text) :
    (save codec task).wp (alone statFails i)
      (fun outcome _ k => outcome = .ok task ∧ k.1.holder = none ∧ k.1.file = some text ∧
        completed k.2 = completed h) () (disk, h) := by
  obtain ⟨payload, hread, hrest⟩ := Except.ok_of_bind htext
  obtain ⟨raw, hdump, hrest⟩ := Except.ok_of_bind hrest
  obtain ⟨payload', hset, hwrite⟩ := Except.ok_of_bind hrest
  obtain rfl : Value.dict [] = payload := Except.ok.inj hread
  unfold save
  rw [wp_bind]
  apply wp_locked_alone hfree
  rw [wp_bind]
  apply wp_unseen
  · exact hmissing
  dsimp only
  rw [wp_bind, wp_ofExcept, hdump]
  dsimp only
  rw [wp_bind, wp_ofExcept, hset]
  apply wp_mono (possible_monotone _ _) _ (wp_written hwrite)
  rintro _ _ k ⟨rfl, hfile, hcompleted⟩
  exact ⟨rfl, rfl, hfile, hcompleted⟩

theorem wp_get_alone {taskId : TaskId} {text : String} {found : Option TaskRecord}
    (hfree : disk.holder = none) (hfile : disk.file = some text)
    (hfound : LocalTaskStore.get codec taskId (some text) = .ok found) :
    (get codec taskId).wp (alone statFails i)
      (fun outcome _ k => outcome = .ok found ∧ completed k.2 = completed h) () (disk, h) := by
  obtain ⟨payload, hread, hrest⟩ := Except.ok_of_bind hfound
  obtain ⟨record, hitem, hvalidated⟩ := Except.ok_of_bind hrest
  unfold get
  rw [wp_bind]
  apply wp_locked_alone hfree
  apply wp_seen
  · exact hfile
  rw [hread]
  dsimp only
  rw [wp_bind, wp_ofExcept, hitem]
  dsimp only
  rw [wp_ofExcept]
  exact ⟨hvalidated, rfl⟩

/-- A call of the store that returns, and what the process does after it. -/
theorem wp_call_then {call : StoreCall} {response : StoreResponse call}
    {next : StoreReply call → Prog StoreCall StoreReply α}
    {Q : StoreDisk ι × History FileCall FileReply → Prop}
    {post : α → StoreDisk ι × History FileCall FileReply → Prop}
    (hcall : (perform codec call).wp (alone statFails i)
      (fun outcome _ k => outcome = .ok response ∧ Q k) ()
      (disk, ⟨.began call, .ok ()⟩ :: h))
    (hrest : ∀ k, Q k → (process codec (next (.ok response))).wp (alone statFails i) post
      (k.1, ⟨.returned call (.ok response), .ok ()⟩ :: k.2)) :
    (process codec (.call call next)).wp (alone statFails i) post (disk, h) := by
  refine ⟨.ok (), disk, .inl rfl, ?_⟩
  dsimp only
  rw [Prog.wp_bind]
  apply Prog.wp_mono (possible_monotone _ _) _ hcall
  rintro ⟨_, _⟩ k ⟨rfl, hQ⟩
  exact ⟨.ok (), k.1, .inl rfl, hrest k hQ⟩

/-- A save that sees no file leaves its own task in the file and nothing else. -/
theorem wp_save_then {task : TaskRecord} {text : String}
    {next : StoreReply (.save task) → Prog StoreCall StoreReply α}
    {post : α → StoreDisk ι × History FileCall FileReply → Prop} (hfree : disk.holder = none)
    (hmissing : disk.file = none ∨ statFails = true)
    (htext : savedText codec task.taskId task none = .ok text)
    (hrest : ∀ disk' h', disk'.holder = none → disk'.file = some text →
      completed h' = ⟨.save task, task⟩ :: completed h →
      (process codec (next (.ok task))).wp (alone statFails i) post (disk', h')) :
    (process codec (.call (.save task) next)).wp (alone statFails i) post (disk, h) := by
  apply wp_call_then (wp_save_alone hfree hmissing htext)
  rintro k ⟨hholder, hfile, hcompleted⟩
  exact hrest _ _ hholder hfile (congrArg (List.cons _) hcompleted)

/-- The process has made these calls, the last one first, and is in no other. -/
def Finished (h : History FileCall FileReply) (calls : List Entry) : Prop :=
  underway h = none ∧ completed h = calls

/-- The last call of a process looks for a task. -/
theorem wp_get_last {taskId : TaskId} {text : String} {found : Option TaskRecord} {value : α}
    {calls : List Entry} (hfree : disk.holder = none) (hfile : disk.file = some text)
    (hfound : LocalTaskStore.get codec taskId (some text) = .ok found)
    (hcalls : completed h = calls) :
    (process codec (.call (.get taskId) fun _ => .done value)).wp (alone statFails i)
      (fun _ k => Finished k.2 (⟨.get taskId, found⟩ :: calls)) (disk, h) := by
  apply wp_call_then (wp_get_alone hfree hfile hfound)
  intro k hcompleted
  exact ⟨rfl, congrArg (List.cons _) (hcompleted.trans hcalls)⟩

/-- What the process can come to is what it comes to in some run. -/
theorem exists_finished {program : Prog StoreCall StoreReply α} {file : TaskFile}
    {calls : List Entry}
    (hwp : (process codec program).wp (alone statFails ()) (fun _ k => Finished k.2 calls)
      (.idle file, [])) :
    ∃ schedule, Finished (ownCalls () ((processes codec (fun _ : Unit => program) file).run
      (device statFails) schedule).trace) calls := by
  let crowd := processes codec (fun _ : Unit => program) file
  have hprogram : crowd.program () = some (process codec program) := rfl
  obtain ⟨schedule, _, -, hfinished⟩ := exists_run hprogram hwp
  exact ⟨schedule, hfinished⟩

end Conductor.LocalTaskStore.Steps
