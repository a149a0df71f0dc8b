/-
What a process that works on the file of the store keeps to: it reads under the
lock, and it replaces the file under the same lock by what it has made of the
text that it read.  A call takes effect where it reads the file, or replaces it.
-/
import Conductor.Runtime.FileSteps

namespace Conductor.LocalTaskStore.Steps

open Effects Block

/-- A call that has taken effect, and what it returns. -/
abbrev Entry := Sigma StoreResponse

/-- The temporary file of a process: there is none, it has been made, its text is
complete, it is not there any more, or it could not be removed. -/
inductive Temp where
  | absent
  | begun (tmp : Nat)
  | complete (tmp : Nat) (text : String)
  | moved (tmp : Nat)
  | left (tmp : Nat)

namespace Temp

def name : Temp → Option Nat
  | .absent => none
  | .begun tmp | .complete tmp _ | .moved tmp | .left tmp => some tmp

/-- There is nothing to remove any more. -/
def Tidy : Temp → Prop
  | .begun _ | .complete _ _ => False
  | .absent | .moved _ | .left _ => True

/-- The file is said not to be there.  It was moved, or it is left where it is. -/
def unseen (tmp : Nat) : Temp → Temp
  | .moved tmp' => .moved tmp'
  | _ => .left tmp

theorem unseen_tidy (tmp : Nat) (temp : Temp) : (temp.unseen tmp).Tidy := by
  cases temp <;> trivial

theorem name_unseen {tmp : Nat} {temp : Temp} (hname : temp.name = some tmp) :
    (temp.unseen tmp).name = some tmp := by
  cases temp with
  | moved tmp' => exact hname
  | _ => rfl

end Temp

/-- What a process knows in the course of a call of the store. -/
structure Desk where
  calling : Option StoreCall
  locked : Bool
  read : Option TaskFile
  temp : Temp
  effect : Option Entry

namespace Desk

/-- Between two calls. -/
def free : Desk := ⟨none, false, none, .absent, none⟩

/-- The process has begun with a call. -/
def begun (call : StoreCall) : Desk := ⟨some call, false, none, .absent, none⟩

/-- It has the lock. -/
def entered (call : StoreCall) : Desk := ⟨some call, true, none, .absent, none⟩

end Desk

variable (codec : Codec TaskRecord)

/-- How a call that only reads is answered from the content of the file, unless
it raises. -/
def answerFrom (file : TaskFile) : Option StoreCall → Option Entry
  | some (.get taskId) =>
      (LocalTaskStore.get codec taskId file).toOption.map fun found => ⟨.get taskId, found⟩
  | some (.list q) => (LocalTaskStore.list codec q file).toOption.map fun found => ⟨.list q, found⟩
  | _ => none

/-- The effect that a file operation has: a call that reads the file is answered,
a save that replaces it is done. -/
def effectOf (desk : Desk) : (c : FileCall) → FileReply c → Option Entry
  | .exists, .ok false => answerFrom codec none desk.calling
  | .readText, .ok raw => answerFrom codec (some raw) desk.calling
  | .replace _, .ok _ =>
      match desk.calling with
      | some (.save task) => some ⟨.save task, task⟩
      | _ => none
  | _, _ => none

/-- What the process knows after a file operation, its effect apart. -/
def advance (desk : Desk) : (c : FileCall) → FileReply c → Desk
  | .began call, _ => .begun call
  | .returned _ _, _ => .free
  | .flock, .ok _ => { desk with locked := true }
  | .unlock, .ok _ => { desk with locked := false, read := none, temp := .absent }
  | .exists, .ok false => { desk with read := some none }
  | .readText, .ok raw => { desk with read := some (some raw) }
  | .mkstemp, .ok tmp => { desk with temp := .begun tmp }
  | .write tmp text, .ok _ => { desk with temp := .complete tmp text }
  | .write tmp _, .error _ => { desk with temp := .begun tmp }
  | .replace tmp, .ok _ => { desk with read := none, temp := .moved tmp }
  | .tempExists tmp, .ok false => { desk with temp := desk.temp.unseen tmp }
  | .tempExists tmp, .error _ | .unlink tmp, .error _ => { desk with temp := .left tmp }
  | .unlink _, .ok _ => { desk with temp := .absent }
  | _, _ => desk

def next (desk : Desk) (c : FileCall) (answer : FileReply c) : Desk :=
  match effectOf codec desk c answer with
  | some entry => { advance desk c answer with effect := some entry }
  | none => advance desk c answer

/-- A process takes the lock before it reads, makes a temporary file of its own
in a save, replaces the file by what the save makes of the text it has read,
removes the temporary file before it gives the lock back, and returns what its
call has done. -/
def Guarantees (desk : Desk) : FileCall → Prop
  | .began _ => desk = .free
  | .returned call reply =>
      desk.calling = some call ∧ desk.locked = false ∧
        desk.effect = reply.toOption.map fun response => ⟨call, response⟩
  | .flock => desk.locked = false
  | .unlock => desk.locked = true ∧ desk.temp.Tidy
  | .mkstemp =>
      desk.locked = true ∧ desk.temp = .absent ∧ ∃ task, desk.calling = some (.save task)
  | .tempExists tmp | .unlink tmp => desk.locked = true ∧ desk.temp.name = some tmp
  | .exists | .readText => desk.locked = true ∧ desk.effect = none
  | .write tmp _ => desk.locked = true ∧ desk.temp = .begun tmp
  | .replace tmp =>
      desk.locked = true ∧ desk.effect = none ∧ ∃ task file text,
        desk.calling = some (.save task) ∧ desk.read = some file ∧
          desk.temp = .complete tmp text ∧ savedText codec task.taskId task file = .ok text
  | _ => True

/-- A temporary file that was moved is not there any more, and the lock is given
back when it is asked for. -/
def Relies (desk : Desk) : (c : FileCall) → FileReply c → Prop
  | .tempExists tmp, answer => desk.temp = .moved tmp → answer = .ok false
  | .unlock, answer => answer = .ok ()
  | _, _ => True

/-- The contract of a process that works on the file.  It stops between two calls
only. -/
def contract : Contract Desk FileCall FileReply where
  initial := .free
  next := next codec
  guarantees := Guarantees codec
  relies := Relies
  rests desk := desk = .free

abbrev logic : Logic Desk FileCall FileReply := (contract codec).logic

variable {codec} {α : Type} {call : StoreCall} {d : Desk}

/-- What is known of a process that has the lock, or had it. -/
structure At (call : StoreCall) (locked : Bool) (effect : Option Entry) (d : Desk) : Prop where
  calling : d.calling = some call
  locked : d.locked = locked
  effect : d.effect = effect
  tidy : d.temp.Tidy

/-- A body that leaves the lock alone runs with the lock. -/
theorem wp_locked {body : FileBlock α} {Q : Except PyExc α → Option Entry → Prop}
    (hfail : ∀ e, Q (.error e) none)
    (hbody : body.wp (logic codec) (fun outcome _ d => ∃ effect, At call true effect d ∧
      Q outcome effect) () (.entered call)) :
    (locked body).wp (logic codec) (fun outcome _ d => ∃ effect, At call false effect d ∧
      Q outcome effect) () (.begun call) := by
  have hfailed : ∀ e, ∃ effect, At call false effect (.begun call) ∧
      Q (.error e : Except PyExc α) effect :=
    fun e => ⟨none, ⟨rfl, rfl, rfl, trivial⟩, hfail e⟩
  unfold locked
  apply Contract.wp_perform_then
  · trivial
  · exact fun e _ => hfailed e
  intro _ _
  apply Contract.wp_perform_then
  · trivial
  · exact fun e _ => hfailed e
  intro _ _
  apply Contract.wp_perform_then
  · trivial
  · exact fun e _ => hfailed e
  intro _ _
  apply Contract.wp_perform_then
  · rfl
  · exact fun e _ => hfailed e
  intro _ _
  rw [wp_tryFinally]
  apply wp_mono (contract codec).logic_monotone _ hbody
  rintro outcome _ d ⟨effect, hat, hQ⟩
  apply Contract.wp_perform
  · exact ⟨hat.locked, hat.tidy⟩
  rintro _ rfl
  exact ⟨effect, ⟨hat.calling, rfl, hat.effect, trivial⟩, hQ⟩

/-- The process has read the file, and its call is answered if it only reads. -/
def Desk.hasRead (codec : Codec TaskRecord) (call : StoreCall) (file : TaskFile) : Desk :=
  ⟨some call, true, some file, .absent, answerFrom codec file (some call)⟩

theorem next_exists (call : StoreCall) :
    (contract codec).next (.entered call) .exists (.ok false) = .hasRead codec call none := by
  change (match answerFrom codec none (some call) with | some _ => _ | none => _) = _
  rw [Desk.hasRead]
  cases answerFrom codec none (some call) <;> rfl

theorem next_readText (call : StoreCall) (raw : String) :
    (contract codec).next (.entered call) .readText (.ok raw) =
      .hasRead codec call (some raw) := by
  change (match answerFrom codec (some raw) (some call) with | some _ => _ | none => _) = _
  rw [Desk.hasRead]
  cases answerFrom codec (some raw) (some call) <;> rfl

/-- The file is read, or nothing has happened. -/
theorem wp_readUnlocked {post : Except PyExc Value → Unit → Desk → Prop}
    (hfail : ∀ e, post (.error e) () (.entered call))
    (hread : ∀ file, post (readPayload file) () (.hasRead codec call file)) :
    readUnlocked.wp (logic codec) post () (.entered call) := by
  unfold readUnlocked
  apply Contract.wp_perform_then
  · exact ⟨rfl, rfl⟩
  · exact fun e _ => hfail e
  intro found _
  cases found with
  | false =>
      rw [next_exists]
      exact hread none
  | true =>
      apply Contract.wp_perform_then
      · exact ⟨rfl, rfl⟩
      · exact fun e _ => hfail e
      intro raw _
      have hnext := hread (some raw)
      rw [← next_readText] at hnext
      exact hnext

/-- The effect of a save, if the outcome is that it has been done. -/
def saveEffect (task : TaskRecord) (outcome : Except PyExc α) : Option Entry :=
  outcome.toOption.map fun _ => ⟨.save task, task⟩

/-- A body that is about to replace the file: it has done the save and moved the
temporary file, or it raises. -/
structure Replaces (task : TaskRecord) (tmp : Nat) (outcome : Except PyExc Unit) (d : Desk) :
    Prop where
  calling : d.calling = some (.save task)
  locked : d.locked = true
  effect : d.effect = saveEffect task outcome
  name : d.temp.name = some tmp
  moved : ∀ done, outcome = .ok done → d.temp = .moved tmp

theorem replaces_error {task : TaskRecord} {tmp : Nat} {e : PyExc}
    (hcalling : d.calling = some (.save task)) (hlocked : d.locked = true)
    (heffect : d.effect = none) (hname : d.temp.name = some tmp) :
    Replaces task tmp (.error e) d :=
  ⟨hcalling, hlocked, heffect, hname, fun _ hdone => by cases hdone⟩

/-- The temporary file is removed unless it was moved. -/
theorem wp_removing {task : TaskRecord} {tmp : Nat} {body : FileBlock Unit}
    (hbody : body.wp (logic codec) (fun outcome _ d => Replaces task tmp outcome d) () d) :
    Block.wp (logic codec)
      (Block.tryFinally body do
        if ← askFile (.tempExists tmp) then
          askFile (.unlink tmp)
        else return ())
      (fun outcome _ d => At (.save task) true (saveEffect task outcome) d) () d := by
  rw [wp_tryFinally]
  apply wp_mono (contract codec).logic_monotone _ hbody
  intro outcome _ d hreplaces
  -- as long as the file is there, the body has raised
  have hgone {answer : FileReply (.tempExists tmp)} (hrelies : Relies d (.tempExists tmp) answer)
      (hthere : answer ≠ .ok false) : d.effect = none := by
    rw [hreplaces.effect]
    cases houtcome : outcome with
    | ok done => exact absurd (hrelies (hreplaces.moved done houtcome)) hthere
    | error e => rfl
  apply Contract.wp_perform_then
  · exact ⟨hreplaces.locked, hreplaces.name⟩
  · intro e hrelies
    exact ⟨hreplaces.calling, hreplaces.locked, hgone hrelies (by simp), trivial⟩
  intro there hrelies
  cases there with
  | false =>
      exact ⟨hreplaces.calling, hreplaces.locked, hreplaces.effect, Temp.unseen_tidy tmp d.temp⟩
  | true =>
      have hnone := hgone hrelies (by simp)
      apply Contract.wp_perform
      · exact ⟨hreplaces.locked, hreplaces.name⟩
      intro answer _
      cases answer with
      | error e => exact ⟨hreplaces.calling, hreplaces.locked, hnone, trivial⟩
      | ok _ => exact ⟨hreplaces.calling, hreplaces.locked, hreplaces.effect, trivial⟩

/-- Where the payload that is written is what a save makes of the text it has
read, the save is done or raises. -/
theorem wp_writeUnlocked {task : TaskRecord} {file : TaskFile} {payload : Dict}
    (htext : savedText codec task.taskId task file = payloadText payload) :
    (writeUnlocked payload).wp (logic codec)
      (fun outcome _ d => At (.save task) true (saveEffect task outcome) d) ()
      (.hasRead codec (.save task) file) := by
  unfold writeUnlocked
  apply Contract.wp_perform_then
  · trivial
  · exact fun e _ => ⟨rfl, rfl, rfl, trivial⟩
  intro _ _
  apply Contract.wp_perform_then
  · exact ⟨rfl, rfl, task, rfl⟩
  · exact fun e _ => ⟨rfl, rfl, rfl, trivial⟩
  intro tmp _
  apply wp_removing
  rw [wp_bind, wp_ofExcept]
  cases hwrite : payloadText payload with
  | error e => exact replaces_error rfl rfl rfl rfl
  | ok text =>
      apply Contract.wp_perform_then
      · exact ⟨rfl, rfl⟩
      · exact fun e _ => replaces_error rfl rfl rfl rfl
      intro _ _
      apply Contract.wp_perform_then
      · trivial
      · exact fun e _ => replaces_error rfl rfl rfl rfl
      intro _ _
      apply Contract.wp_perform
      · exact ⟨rfl, rfl, task, file, text, rfl, rfl, rfl, htext.trans hwrite⟩
      intro answer _
      cases answer with
      | error e => exact replaces_error rfl rfl rfl rfl
      | ok _ => exact ⟨rfl, rfl, rfl, rfl, fun _ _ => rfl⟩

/-- What a call has done is what it returns. -/
def Settled (call : StoreCall) (outcome : Except PyExc (StoreResponse call)) (d : Desk) : Prop :=
  At call false (outcome.toOption.map fun response => ⟨call, response⟩) d

theorem wp_save (codec : Codec TaskRecord) (task : TaskRecord) :
    (save codec task).wp (logic codec) (fun outcome _ d => Settled (.save task) outcome d) ()
      (.begun (.save task)) := by
  unfold save
  rw [wp_bind]
  refine wp_mono (contract codec).logic_monotone ?_
    (wp_locked (Q := fun outcome effect => effect = saveEffect task outcome) (fun _ => rfl) ?_)
  · rintro outcome _ d ⟨_, hat, rfl⟩
    cases outcome with
    | error e => exact hat
    | ok _ => exact hat
  · rw [wp_bind]
    apply wp_readUnlocked
    · exact fun e => ⟨_, ⟨rfl, rfl, rfl, trivial⟩, rfl⟩
    intro file
    cases hread : readPayload file with
    | error e => exact ⟨_, ⟨rfl, rfl, rfl, trivial⟩, rfl⟩
    | ok payload =>
        dsimp only
        rw [wp_bind, wp_ofExcept]
        cases hdump : codec.dump task with
        | error e => exact ⟨_, ⟨rfl, rfl, rfl, trivial⟩, rfl⟩
        | ok raw =>
            dsimp only
            rw [wp_bind, wp_ofExcept]
            cases hset : payload.setItem task.taskId (.dict raw) with
            | error e => exact ⟨_, ⟨rfl, rfl, rfl, trivial⟩, rfl⟩
            | ok payload' =>
                have htext : savedText codec task.taskId task file = payloadText payload' := by
                  rw [savedText, bind_of_ok hread, bind_of_ok hdump, bind_of_ok hset]
                dsimp only
                apply wp_mono (contract codec).logic_monotone _ (wp_writeUnlocked htext)
                exact fun outcome _ d hat => ⟨_, hat, rfl⟩

theorem ofExcept_bind {β : Type} (value : Except PyExc α) (f : α → Except PyExc β) :
    ((Block.ofExcept value : FileBlock α) >>= fun a => Block.ofExcept (f a)) =
      Block.ofExcept (value >>= f) := by
  cases value <;> rfl

/-- A call that reads returns what it makes of the payload that it has read. -/
theorem wp_reading (call : StoreCall) {rest : Value → FileBlock (StoreResponse call)}
    {k : Value → Except PyExc (StoreResponse call)}
    (hrest : ∀ payload, rest payload = Block.ofExcept (k payload))
    (hanswer : ∀ file, answerFrom codec file (some call) =
      (readPayload file >>= k).toOption.map fun response => ⟨call, response⟩) :
    (locked readUnlocked >>= rest).wp (logic codec) (fun outcome _ d => Settled call outcome d) ()
      (.begun call) := by
  rw [wp_bind]
  refine wp_mono (contract codec).logic_monotone ?_ (wp_locked
    (Q := fun outcome effect => (∃ e, outcome = .error e) ∧ effect = none ∨
      ∃ file, outcome = readPayload file ∧ effect = answerFrom codec file (some call))
    (fun e => .inl ⟨⟨e, rfl⟩, rfl⟩) ?_)
  · rintro outcome _ d ⟨effect, hat, ⟨⟨e, rfl⟩, rfl⟩ | ⟨file, hread, heffect⟩⟩
    · exact hat
    · rw [hanswer, ← hread] at heffect
      subst heffect
      cases outcome with
      | error e => exact hat
      | ok payload =>
          dsimp only
          rw [hrest, wp_ofExcept]
          exact hat
  · apply wp_readUnlocked
    · exact fun e => ⟨_, ⟨rfl, rfl, rfl, trivial⟩, .inl ⟨⟨e, rfl⟩, rfl⟩⟩
    · exact fun file => ⟨_, ⟨rfl, rfl, rfl, trivial⟩, .inr ⟨file, rfl, rfl⟩⟩

theorem wp_get (codec : Codec TaskRecord) (taskId : TaskId) :
    (get codec taskId).wp (logic codec) (fun outcome _ d => Settled (.get taskId) outcome d) ()
      (.begun (.get taskId)) := by
  apply wp_reading (.get taskId) (k := fun payload => payload.getItem taskId >>= validated codec)
  · intro payload
    exact ofExcept_bind _ _
  · exact fun file => rfl

/-- What `list` makes of the payload that it has read. -/
def listed (codec : Codec TaskRecord) (q : TaskQuery) (payload : Value) :
    Except PyExc (List TaskRecord) := do
  let items ← payload.items
  let records ← (sortedPayload items).mapM fun item => codec.validate item.2
  return q.filterRecords records

theorem listed_block (codec : Codec TaskRecord) (q : TaskQuery) (payload : Value) :
    (do
      let items ← Block.ofExcept payload.items
      let records ← Block.ofExcept ((sortedPayload items).mapM fun item => codec.validate item.2)
      return q.filterRecords records : FileBlock (List TaskRecord)) =
        Block.ofExcept (listed codec q payload) := by
  unfold listed
  rw [← ofExcept_bind]
  congr 1
  funext items
  rw [← ofExcept_bind]
  rfl

theorem list_eq_listed (codec : Codec TaskRecord) (q : TaskQuery) (file : TaskFile) :
    LocalTaskStore.list codec q file = readPayload file >>= listed codec q := by
  rw [LocalTaskStore.list, readAll]
  cases readPayload file with
  | error e => rfl
  | ok payload =>
      unfold listed
      dsimp only [bind, Except.bind]
      cases payload.items with
      | error e => rfl
      | ok items =>
          dsimp only
          cases (sortedPayload items).mapM fun item => codec.validate item.2 <;> rfl

theorem wp_list (codec : Codec TaskRecord) (q : TaskQuery) :
    (list codec q).wp (logic codec) (fun outcome _ d => Settled (.list q) outcome d) ()
      (.begun (.list q)) := by
  apply wp_reading (.list q) (k := listed codec q)
  · exact listed_block codec q
  · intro file
    rw [answerFrom, list_eq_listed]

/-- Each call returns what it has done. -/
theorem wp_perform (codec : Codec TaskRecord) (call : StoreCall) :
    (perform codec call).wp (logic codec) (fun outcome _ d => Settled call outcome d) ()
      (.begun call) := by
  cases call with
  | save task => exact wp_save codec task
  | get taskId => exact wp_get codec taskId
  | list q => exact wp_list codec q

/-- A process keeps to the contract for ever. -/
theorem wp_process (codec : Codec TaskRecord) (program : Prog StoreCall StoreReply α) :
    (process codec program).wp (logic codec) (fun _ d => d = .free) .free := by
  induction program with
  | done value => rfl
  | outOfFuel => rfl
  | call call next ih =>
      refine ⟨rfl, fun answer _ => ?_⟩
      dsimp only
      rw [Prog.wp_bind]
      apply Prog.wp_mono (contract codec).logic_monotone _ (wp_perform codec call)
      intro ended d hsettled
      exact ⟨⟨hsettled.calling, hsettled.locked, hsettled.effect⟩, fun _ _ => ih ended.1⟩

/-- Marks apart, the contract allows every operation. -/
def Open {V : Type} (K : Contract V FileCall FileReply) : Prop :=
  ∀ v c, c.isMark = false → K.guarantees v c

section Open

variable {V : Type} {K : Contract V FileCall FileReply} {v : V}

theorem wp_ask_any (hopen : Open K) {c : FileCall} (hmark : c.isMark = false)
    {f : FileResponse c → FileBlock α}
    (hrest : ∀ response v, (f response).wp K.logic (fun _ _ _ => True) () v) :
    (askFile c >>= f).wp K.logic (fun _ _ _ => True) () v :=
  Contract.wp_perform_then (hopen v c hmark) (fun _ _ => trivial) fun response _ => hrest response _

theorem Contract.wp_perform_any (hopen : Open K) {c : FileCall} (hmark : c.isMark = false) :
    (askFile c).wp K.logic (fun _ _ _ => True) () v :=
  Contract.wp_perform (hopen v c hmark) fun _ _ => trivial

theorem wp_ofExcept_any {β : Type} {value : Except PyExc β} {f : β → FileBlock α}
    (hrest : ∀ b, (f b).wp K.logic (fun _ _ _ => True) () v) :
    (Block.ofExcept value >>= f : FileBlock α).wp K.logic (fun _ _ _ => True) () v := by
  rw [wp_bind, wp_ofExcept]
  cases value with
  | error e => trivial
  | ok b => exact hrest b

theorem wp_tryFinally_any {body : FileBlock α} {cleanup : FileBlock Unit}
    (hbody : ∀ v, body.wp K.logic (fun _ _ _ => True) () v)
    (hcleanup : ∀ v, cleanup.wp K.logic (fun _ _ _ => True) () v) :
    (Block.tryFinally body cleanup).wp K.logic (fun _ _ _ => True) () v := by
  rw [wp_tryFinally]
  apply wp_mono K.logic_monotone _ (hbody v)
  intro outcome _ v _
  apply wp_mono K.logic_monotone _ (hcleanup v)
  intro ended _ v _
  cases ended <;> trivial

theorem wp_bind_any {β : Type} {m : FileBlock β} {f : β → FileBlock α}
    (hm : ∀ v, m.wp K.logic (fun _ _ _ => True) () v)
    (hf : ∀ b v, (f b).wp K.logic (fun _ _ _ => True) () v) :
    (m >>= f).wp K.logic (fun _ _ _ => True) () v := by
  rw [wp_bind]
  apply wp_mono K.logic_monotone _ (hm v)
  intro outcome _ v _
  cases outcome with
  | error e => trivial
  | ok b => exact hf b v

theorem wp_locked_any (hopen : Open K) {body : FileBlock α}
    (hbody : ∀ v, body.wp K.logic (fun _ _ _ => True) () v) :
    (locked body).wp K.logic (fun _ _ _ => True) () v := by
  unfold locked
  iterate 4
    apply wp_ask_any hopen rfl
    intro _ _
  apply wp_tryFinally_any hbody
  exact fun _ => Contract.wp_perform_any hopen rfl

theorem wp_readUnlocked_any (hopen : Open K) :
    readUnlocked.wp K.logic (fun _ _ _ => True) () v := by
  unfold readUnlocked
  apply wp_ask_any hopen rfl
  intro found _
  cases found with
  | false => trivial
  | true =>
      apply wp_ask_any hopen rfl
      exact fun _ _ => trivial

theorem wp_writeUnlocked_any (hopen : Open K) (payload : Dict) :
    (writeUnlocked payload).wp K.logic (fun _ _ _ => True) () v := by
  unfold writeUnlocked
  apply wp_ask_any hopen rfl
  intro _ _
  apply wp_ask_any hopen rfl
  intro tmp _
  apply wp_tryFinally_any
  · intro v
    apply wp_ofExcept_any
    intro text
    apply wp_ask_any hopen rfl
    intro _ _
    apply wp_ask_any hopen rfl
    exact fun _ _ => Contract.wp_perform_any hopen rfl
  · intro v
    apply wp_ask_any hopen rfl
    intro there _
    cases there with
    | false => trivial
    | true => exact Contract.wp_perform_any hopen rfl

/-- No call of the store does more than such operations. -/
theorem wp_perform_any (hopen : Open K) (call : StoreCall) :
    (perform codec call).wp K.logic (fun _ _ _ => True) () v := by
  have hreading {β : Type} {rest : Value → FileBlock β} {k : Value → Except PyExc β}
      (hrest : ∀ payload, rest payload = Block.ofExcept (k payload)) :
      (locked readUnlocked >>= rest).wp K.logic (fun _ _ _ => True) () v := by
    apply wp_bind_any
    · exact fun _ => wp_locked_any hopen fun _ => wp_readUnlocked_any hopen
    · intro payload v
      rw [hrest]
      trivial
  cases call with
  | save task =>
      apply wp_bind_any
      · intro v
        apply wp_locked_any hopen
        intro v
        apply wp_bind_any
        · exact fun _ => wp_readUnlocked_any hopen
        · intro payload v
          apply wp_ofExcept_any
          intro raw
          apply wp_ofExcept_any
          exact fun payload => wp_writeUnlocked_any hopen payload
      · exact fun _ _ => trivial
  | get taskId => exact hreading fun payload => ofExcept_bind _ _
  | list q => exact hreading (listed_block codec q)

end Open

end Conductor.LocalTaskStore.Steps
