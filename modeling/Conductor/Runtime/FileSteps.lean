/-
The store of tasks in a file, step by step: the lock file, the temporary file and
the replacement of the file as calls to a disk, which any number of processes
make one at a time, and which may fail.
-/
import Conductor.Effects.Block
import Conductor.Effects.Crowd
import Conductor.Runtime.TaskStores

namespace Conductor

open Effects

/-- The calls of a task store. -/
inductive StoreCall where
  | save (task : TaskRecord)
  | get (taskId : TaskId)
  | list (q : TaskQuery)

/-- What they return. -/
abbrev StoreResponse : StoreCall → Type
  | .save _ => TaskRecord
  | .get _ => Option TaskRecord
  | .list _ => List TaskRecord

abbrev StoreReply := Reply StoreResponse PyExc

/-- What a process asks of the file system.  `began` and `returned` mark its own
calls of the store. -/
inductive FileCall where
  | mkdir
  | openLock
  | flock
  | unlock
  | exists
  | readText
  | mkstemp
  | write (tmp : Nat) (text : String)
  | fsync (tmp : Nat)
  | replace (tmp : Nat)
  | tempExists (tmp : Nat)
  | unlink (tmp : Nat)
  | began (call : StoreCall)
  | returned (call : StoreCall) (reply : StoreReply call)

/-- A note of the process itself. -/
def FileCall.isMark : FileCall → Bool
  | .began _ | .returned _ _ => true
  | _ => false

abbrev FileResponse : FileCall → Type
  | .exists | .tempExists _ => Bool
  | .readText => String
  | .mkstemp => Nat
  | _ => Unit

abbrev FileReply := Reply FileResponse PyExc

/-- Statements of the store. -/
abbrev FileBlock := Block FileCall FileResponse PyExc Unit

def askFile (c : FileCall) : FileBlock (FileResponse c) := Block.perform c

namespace LocalTaskStore.Steps

variable {α : Type} (codec : Codec TaskRecord)

/-- `with self._locked(): body`. -/
def locked (body : FileBlock α) : FileBlock α := do
  askFile .mkdir
  askFile .mkdir
  askFile .openLock
  askFile .flock
  Block.tryFinally body (askFile .unlock)

/-- `_read_unlocked`. -/
def readUnlocked : FileBlock Value := do
  if ← askFile .exists then
    let raw ← askFile .readText
    Block.ofExcept (readPayload (some raw))
  else return .dict []

/-- `_write_unlocked`. -/
def writeUnlocked (payload : Dict) : FileBlock Unit := do
  askFile .mkdir
  let tmp ← askFile .mkstemp
  Block.tryFinally
    (do
      let text ← Block.ofExcept (payloadText payload)
      askFile (.write tmp text)
      askFile (.fsync tmp)
      askFile (.replace tmp))
    (do
      if ← askFile (.tempExists tmp) then
        askFile (.unlink tmp)
      else return ())

def save (task : TaskRecord) : FileBlock TaskRecord := do
  locked do
    let payload ← readUnlocked
    let raw ← Block.ofExcept (codec.dump task)
    let payload ← Block.ofExcept (payload.setItem task.taskId (.dict raw))
    writeUnlocked payload
  return task

def get (taskId : TaskId) : FileBlock (Option TaskRecord) := do
  let payload ← locked readUnlocked
  let record ← Block.ofExcept (payload.getItem taskId)
  Block.ofExcept (validated codec record)

def list (q : TaskQuery) : FileBlock (List TaskRecord) := do
  let payload ← locked readUnlocked
  let items ← Block.ofExcept payload.items
  let records ← Block.ofExcept ((sortedPayload items).mapM fun item => codec.validate item.2)
  return q.filterRecords records

def perform : (call : StoreCall) → FileBlock (StoreResponse call)
  | .save task => save codec task
  | .get taskId => get codec taskId
  | .list q => list codec q

/-- A process that calls the store, and may look at the replies before it makes
the next call. -/
def process : Prog StoreCall StoreReply α → Prog FileCall FileReply α
  | .done value => .done value
  | .outOfFuel => .outOfFuel
  | .call call next =>
      .call (.began call) fun _ =>
        ((perform codec call).run ()).bind fun ended =>
          .call (.returned call ended.1) fun _ => process (next ended.1)

end LocalTaskStore.Steps

/-- The file of the store, the process that holds the lock, and the temporary
files under their names. -/
structure StoreDisk (ι : Type) where
  file : TaskFile
  holder : Option ι
  temps : Nat → Option String
  fresh : Nat

/-- A call fails with this exception; of a text that was to be written, this much
has arrived. -/
structure DiskFault where
  exc : PyExc
  written : String

namespace StoreDisk

variable {ι : Type}

def fileNotFound : PyExc := .exception "FileNotFoundError" "No such file or directory"

/-- What the file system does with a call of process `i`.  The lock is given to
one process at a time, and a replacement happens at once. -/
def respond (i : ι) (disk : StoreDisk ι) : (c : FileCall) → Option (FileReply c × StoreDisk ι)
  | .mkdir | .openLock | .fsync _ | .began _ | .returned _ _ => some (.ok (), disk)
  | .flock =>
      match disk.holder with
      | none => some (.ok (), { disk with holder := some i })
      | some _ => none
  | .unlock => some (.ok (), { disk with holder := none })
  | .exists => some (.ok disk.file.isSome, disk)
  | .readText =>
      match disk.file with
      | some text => some (.ok text, disk)
      | none => some (.error fileNotFound, disk)
  | .mkstemp =>
      some (.ok disk.fresh, { disk with
        temps := Function.update disk.temps disk.fresh (some "")
        fresh := disk.fresh + 1 })
  | .write tmp text =>
      some (.ok (), { disk with temps := Function.update disk.temps tmp (some text) })
  | .replace tmp =>
      match disk.temps tmp with
      | some text =>
          some (.ok (), { disk with
            file := some text
            temps := Function.update disk.temps tmp none })
      | none => some (.error fileNotFound, disk)
  | .tempExists tmp => some (.ok (disk.temps tmp).isSome, disk)
  | .unlink tmp => some (.ok (), { disk with temps := Function.update disk.temps tmp none })

/-- What is left of a call that fails.  `Path.exists` does not raise: where stats may
fail, it then answers that there is no such file.  An unlock that raises is not
modelled; the lock goes with the lock file, which is closed in any case. -/
def fail (statFails : Bool) (fault : DiskFault) (_ : ι) (disk : StoreDisk ι) :
    (c : FileCall) → Option (FileReply c × StoreDisk ι)
  | .mkdir | .openLock | .flock | .readText | .mkstemp | .fsync _ | .replace _ | .unlink _ =>
      some (.error fault.exc, disk)
  | .write tmp _ =>
      some (.error fault.exc,
        { disk with temps := Function.update disk.temps tmp (some fault.written) })
  | .exists | .tempExists _ => if statFails then some (.ok false, disk) else none
  | .unlock | .began _ | .returned _ _ => none

/-- The lock of a process that dies is released. -/
def bury [DecidableEq ι] (i : ι) (disk : StoreDisk ι) : StoreDisk ι :=
  { disk with holder := if disk.holder = some i then none else disk.holder }

/-- The disk as the processes see it, on which a stat may fail or may not. -/
def device [DecidableEq ι] (statFails : Bool) :
    Device ι (StoreDisk ι) FileCall FileReply DiskFault :=
  ⟨respond, fail statFails, bury⟩

/-- Nobody holds the lock, and there are no temporary files. -/
def idle (file : TaskFile) : StoreDisk ι := ⟨file, none, fun _ => none, 0⟩

/-- A call that can raise and then leaves the disk as it is. -/
def CanFail : FileCall → Prop
  | .exists | .tempExists _ | .write _ _ | .unlock | .began _ | .returned _ _ => False
  | _ => True

/-- What can come of a call. -/
inductive Outcome (statFails : Bool) (i : ι) (disk : StoreDisk ι) :
    (c : FileCall) → FileReply c → StoreDisk ι → Prop
  | failed {c : FileCall} (hfails : CanFail c) (e : PyExc) :
      Outcome statFails i disk c (.error e) disk
  | unseen (hstat : statFails = true) : Outcome statFails i disk .exists (.ok false) disk
  | tempUnseen (hstat : statFails = true) (tmp : Nat) :
      Outcome statFails i disk (.tempExists tmp) (.ok false) disk
  | began (call : StoreCall) : Outcome statFails i disk (.began call) (.ok ()) disk
  | returned (call : StoreCall) (reply : StoreReply call) :
      Outcome statFails i disk (.returned call reply) (.ok ()) disk
  | mkdir : Outcome statFails i disk .mkdir (.ok ()) disk
  | openLock : Outcome statFails i disk .openLock (.ok ()) disk
  | flock (hfree : disk.holder = none) :
      Outcome statFails i disk .flock (.ok ()) { disk with holder := some i }
  | unlock : Outcome statFails i disk .unlock (.ok ()) { disk with holder := none }
  | missing (hfile : disk.file = none) : Outcome statFails i disk .exists (.ok false) disk
  | there : Outcome statFails i disk .exists (.ok true) disk
  | readText {text : String} (hfile : disk.file = some text) :
      Outcome statFails i disk .readText (.ok text) disk
  | mkstemp :
      Outcome statFails i disk .mkstemp (.ok disk.fresh) { disk with
        temps := Function.update disk.temps disk.fresh (some "")
        fresh := disk.fresh + 1 }
  | write (tmp : Nat) (text : String) :
      Outcome statFails i disk (.write tmp text) (.ok ())
        { disk with temps := Function.update disk.temps tmp (some text) }
  | torn (tmp : Nat) (text written : String) (e : PyExc) :
      Outcome statFails i disk (.write tmp text) (.error e)
        { disk with temps := Function.update disk.temps tmp (some written) }
  | fsync (tmp : Nat) : Outcome statFails i disk (.fsync tmp) (.ok ()) disk
  | replace {tmp : Nat} {text : String} (htmp : disk.temps tmp = some text) :
      Outcome statFails i disk (.replace tmp) (.ok ()) { disk with
        file := some text
        temps := Function.update disk.temps tmp none }
  | tempExists (tmp : Nat) :
      Outcome statFails i disk (.tempExists tmp) (.ok (disk.temps tmp).isSome) disk
  | unlink (tmp : Nat) :
      Outcome statFails i disk (.unlink tmp) (.ok ())
        { disk with temps := Function.update disk.temps tmp none }

theorem outcome_of_respond (statFails : Bool) {i : ι} {disk disk' : StoreDisk ι} {c : FileCall}
    {answer : FileReply c} (hrespond : respond i disk c = some (answer, disk')) :
    Outcome statFails i disk c answer disk' := by
  cases c with
  | flock =>
      cases hholder : disk.holder with
      | none =>
          simp only [respond, hholder] at hrespond
          cases hrespond
          exact .flock hholder
      | some j =>
          simp only [respond, hholder] at hrespond
          cases hrespond
  | «exists» =>
      cases hfile : disk.file with
      | none =>
          simp only [respond, hfile] at hrespond
          cases hrespond
          exact .missing hfile
      | some text =>
          simp only [respond, hfile] at hrespond
          cases hrespond
          exact .there
  | readText =>
      cases hfile : disk.file with
      | none =>
          simp only [respond, hfile] at hrespond
          cases hrespond
          apply Outcome.failed
          trivial
      | some text =>
          simp only [respond, hfile] at hrespond
          cases hrespond
          exact .readText hfile
  | replace tmp =>
      cases htmp : disk.temps tmp with
      | none =>
          simp only [respond, htmp] at hrespond
          cases hrespond
          apply Outcome.failed
          trivial
      | some text =>
          simp only [respond, htmp] at hrespond
          cases hrespond
          exact .replace htmp
  | _ =>
      cases hrespond
      constructor

theorem outcome_of_fail {statFails : Bool} {i : ι} {disk disk' : StoreDisk ι} {c : FileCall}
    {answer : FileReply c} {fault : DiskFault}
    (hfail : fail statFails fault i disk c = some (answer, disk')) :
    Outcome statFails i disk c answer disk' := by
  cases c with
  | «exists» =>
      cases statFails with
      | false => cases hfail
      | true =>
          cases hfail
          exact .unseen rfl
  | tempExists tmp =>
      cases statFails with
      | false => cases hfail
      | true =>
          cases hfail
          exact .tempUnseen rfl tmp
  | write tmp text =>
      cases hfail
      exact .torn tmp text _ _
  | unlock | began call | returned call reply => cases hfail
  | _ =>
      cases hfail
      apply Outcome.failed
      trivial

theorem outcome_of_mayAnswer [DecidableEq ι] {statFails : Bool} {i : ι}
    {disk disk' : StoreDisk ι} {c : FileCall} {answer : FileReply c}
    (hanswer : Crowd.MayAnswer (device statFails) i disk c answer disk') :
    Outcome statFails i disk c answer disk' := by
  rcases hanswer with hrespond | ⟨fault, hfail⟩
  · exact outcome_of_respond statFails hrespond
  · exact outcome_of_fail hfail

end StoreDisk

end Conductor
