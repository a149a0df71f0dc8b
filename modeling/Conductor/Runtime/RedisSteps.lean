/-
The store of tasks in Redis, command by command.  Each command is atomic, but a call
of the store is several of them, and any number of clients make theirs in between.
A client that is told of a failure does not know whether the command was executed.
-/
import Conductor.Runtime.FileSteps

namespace Conductor

open Effects

/-- What a client asks of the server.  `began` and `returned` mark its own calls of
the store. -/
inductive RedisCommand where
  | set (key value : String)
  | sadd (key member : String)
  | get (key : String)
  | smembers (key : String)
  | began (call : StoreCall)
  | returned (call : StoreCall) (reply : StoreReply call)

/-- A note of the client itself. -/
def RedisCommand.isMark : RedisCommand → Bool
  | .began _ | .returned _ _ => true
  | _ => false

abbrev RedisResponse : RedisCommand → Type
  | .get _ => Option String
  | .smembers _ => List String
  | _ => Unit

abbrev RedisReply := Reply RedisResponse PyExc

/-- Statements of the store. -/
abbrev RedisBlock := Block RedisCommand RedisResponse PyExc Unit

def askRedis (c : RedisCommand) : RedisBlock (RedisResponse c) := Block.perform c

namespace RedisTaskStore.Steps

variable {α : Type} (codec : Codec TaskRecord) (keyspace : String)

def save (task : TaskRecord) : RedisBlock TaskRecord := do
  let payload ← Block.ofExcept (codec.serializeTask task)
  askRedis (.set (recordKey keyspace task.taskId) payload)
  askRedis (.sadd (indexKey keyspace) task.taskId)
  return task

def get (taskId : TaskId) : RedisBlock (Option TaskRecord) := do
  let text ← askRedis (.get (recordKey keyspace taskId))
  Block.ofExcept (codec.deserializeTask text)

/-- The loop of `list`. -/
def getAll : List TaskId → RedisBlock (List TaskRecord)
  | [] => return []
  | taskId :: rest => do
      let record ← get codec keyspace taskId
      let records ← getAll rest
      return record.toList ++ records

def list (q : TaskQuery) : RedisBlock (List TaskRecord) := do
  let members ← askRedis (.smembers (indexKey keyspace))
  let records ← getAll codec keyspace (members.insertionSort (· ≤ ·))
  return q.filterRecords records

def perform : (call : StoreCall) → RedisBlock (StoreResponse call)
  | .save task => save codec keyspace task
  | .get taskId => get codec keyspace taskId
  | .list q => list codec keyspace q

/-- A client that calls the store, and may look at the replies before it makes the
next call. -/
def client : Prog StoreCall StoreReply α → Prog RedisCommand RedisReply α
  | .done value => .done value
  | .outOfFuel => .outOfFuel
  | .call call next =>
      .call (.began call) fun _ =>
        ((perform codec keyspace call).run ()).bind fun ended =>
          .call (.returned call ended.1) fun _ => client (next ended.1)

end RedisTaskStore.Steps

/-- A command fails with this exception; the server may have executed it before. -/
structure RedisFault where
  exc : PyExc
  executed : Bool

namespace RedisServer

variable {ι : Type}

/-- The data after a command. -/
def after (data : RedisData) : RedisCommand → RedisData
  | .set key value => data.set key value
  | .sadd key member => data.sadd key member
  | _ => data

def answer (data : RedisData) : (c : RedisCommand) → RedisReply c
  | .set _ _ | .sadd _ _ | .began _ | .returned _ _ => .ok ()
  | .get key => .ok (data.get key)
  | .smembers key => .ok (data.smembers key)

def respond (_ : ι) (data : RedisData) (c : RedisCommand) : Option (RedisReply c × RedisData) :=
  some (answer data c, after data c)

def fail (fault : RedisFault) (_ : ι) (data : RedisData) :
    (c : RedisCommand) → Option (RedisReply c × RedisData)
  | .began _ | .returned _ _ => none
  | c => some (.error fault.exc, if fault.executed then after data c else data)

/-- The server goes on without a client that dies. -/
def device : Device ι RedisData RedisCommand RedisReply RedisFault :=
  ⟨respond, fail, fun _ data => data⟩

/-- What can come of a command. -/
theorem of_mayAnswer {i : ι} {data data' : RedisData} {c : RedisCommand} {reply : RedisReply c}
    (hanswer : Crowd.MayAnswer device i data c reply data') :
    reply = answer data c ∧ data' = after data c ∨
      (∃ e, reply = .error e) ∧ (data' = data ∨ data' = after data c) := by
  rcases hanswer with hrespond | ⟨fault, hfail⟩
  · cases hrespond
    exact .inl ⟨rfl, rfl⟩
  · right
    cases c with
    | began call | returned call reply => cases hfail
    | _ =>
        cases hfail
        refine ⟨⟨_, rfl⟩, ?_⟩
        cases fault.executed
        · exact .inl rfl
        · exact .inr rfl

end RedisServer

namespace RedisTaskStore.Steps

open Block

/-- What a client knows in the course of a call of the store: that the text was
written, that the id was added, the ids that it has fetched, and the texts. -/
structure Desk where
  calling : Option StoreCall
  written : Bool
  indexed : Bool
  members : Option (List String)
  texts : List (Option String)

namespace Desk

/-- Between two calls. -/
def free : Desk := ⟨none, false, false, none, []⟩

/-- The client has begun with a call. -/
def begun (call : StoreCall) : Desk := ⟨some call, false, false, none, []⟩

end Desk

variable {α : Type} (codec : Codec TaskRecord) (keyspace : String)

def next (desk : Desk) : (c : RedisCommand) → RedisReply c → Desk
  | .began call, _ => .begun call
  | .returned _ _, _ => .free
  | .set _ _, .ok _ => { desk with written := true }
  | .sadd _ _, .ok _ => { desk with indexed := true }
  | .smembers _, .ok members => { desk with members := some members }
  | .get _, .ok text => { desk with texts := desk.texts ++ [text] }
  | _, .error _ => desk

/-- The records that the texts hold. -/
def recordsOf : List (Option String) → Except PyExc (List TaskRecord)
  | [] => .ok []
  | text :: rest => do
      let record ← codec.deserializeTask text
      let records ← recordsOf rest
      return record.toList ++ records

/-- The reply is what the client has come to know. -/
def Returns (desk : Desk) : (call : StoreCall) → StoreReply call → Prop
  | .save task, .ok saved => saved = task ∧ desk.written = true ∧ desk.indexed = true
  | .get _, .ok found => ∃ text, desk.texts = [text] ∧ codec.deserializeTask text = .ok found
  | .list q, .ok found => ∃ members records, desk.members = some members ∧
      desk.texts.length = members.length ∧ recordsOf codec desk.texts = .ok records ∧
        found = q.filterRecords records
  | _, .error _ => True

/-- The keys of a call that reads, in the order in which it fetches them. -/
def keysToRead (desk : Desk) : List String :=
  match desk.calling with
  | some (.get taskId) => [recordKey keyspace taskId]
  | some (.list _) =>
      ((desk.members.getD []).insertionSort (· ≤ ·)).map (recordKey keyspace)
  | _ => []

def Guarantees (desk : Desk) : RedisCommand → Prop
  | .set key value => ∃ task, desk.calling = some (.save task) ∧
      key = recordKey keyspace task.taskId ∧ codec.serializeTask task = .ok value
  | .sadd key member => desk.written = true ∧ ∃ task, desk.calling = some (.save task) ∧
      key = indexKey keyspace ∧ member = task.taskId
  | .get key => (keysToRead keyspace desk)[desk.texts.length]? = some key
  | .smembers key => key = indexKey keyspace ∧ desk.members = none ∧ desk.texts = [] ∧
      ∃ q, desk.calling = some (.list q)
  | .began _ => desk = .free
  | .returned call reply => desk.calling = some call ∧ Returns codec desk call reply

/-- The contract of a client of the store.  It stops between two calls only. -/
def contract : Contract Desk RedisCommand RedisReply where
  initial := .free
  next := next
  guarantees := Guarantees codec keyspace
  relies _ _ _ := True
  rests desk := desk = .free

abbrev logic : Logic Desk RedisCommand RedisReply := (contract codec keyspace).logic

variable {codec keyspace} {d : Desk}

/-- The call goes on, or it returns what the client knows. -/
structure Settled (codec : Codec TaskRecord) (call : StoreCall) (reply : StoreReply call)
    (d : Desk) : Prop where
  calling : d.calling = some call
  returns : Returns codec d call reply

theorem settled_error {call : StoreCall} (e : PyExc) (hcalling : d.calling = some call) :
    Settled codec call (.error e) d := by
  refine ⟨hcalling, ?_⟩
  cases call <;> trivial

theorem wp_save (task : TaskRecord) :
    (save codec keyspace task).wp (logic codec keyspace)
      (fun outcome _ d => Settled codec (.save task) outcome d) () (.begun (.save task)) := by
  unfold save
  rw [wp_bind, wp_ofExcept]
  cases htext : codec.serializeTask task with
  | error e => exact settled_error e rfl
  | ok text =>
      apply Contract.wp_perform_then
      · exact ⟨task, rfl, rfl, htext⟩
      · exact fun e _ => settled_error e rfl
      intro _ _
      apply Contract.wp_perform_then
      · exact ⟨rfl, task, rfl, rfl, rfl⟩
      · exact fun e _ => settled_error e rfl
      intro _ _
      exact ⟨rfl, rfl, rfl, rfl⟩

theorem wp_get (taskId : TaskId) :
    (get codec keyspace taskId).wp (logic codec keyspace)
      (fun outcome _ d => Settled codec (.get taskId) outcome d) () (.begun (.get taskId)) := by
  unfold get
  apply Contract.wp_perform_then
  · rfl
  · exact fun e _ => settled_error e rfl
  intro text _
  rw [wp_ofExcept]
  cases hfound : codec.deserializeTask text with
  | error e => exact settled_error e rfl
  | ok found => exact ⟨rfl, text, rfl, hfound⟩

/-- The loop fetches the text of each id that is left. -/
theorem wp_getAll (q : TaskQuery) {members : List String} {fetched : List TaskId}
    {texts : List (Option String)} (rest : List TaskId)
    (hmembers : members.insertionSort (· ≤ ·) = fetched ++ rest)
    (hlength : texts.length = fetched.length) :
    (getAll codec keyspace rest).wp (logic codec keyspace)
      (fun outcome _ d => ∃ more, d = ⟨some (.list q), false, false, some members, texts ++ more⟩ ∧
        ∀ records, outcome = .ok records →
          more.length = rest.length ∧ recordsOf codec more = .ok records) ()
      ⟨some (.list q), false, false, some members, texts⟩ := by
  induction rest generalizing fetched texts with
  | nil =>
      refine ⟨[], by rw [List.append_nil], ?_⟩
      intro records hrecords
      cases hrecords
      exact ⟨rfl, rfl⟩
  | cons taskId rest ih =>
      rw [getAll, wp_bind, get]
      apply Contract.wp_perform_then
      · change (((members).insertionSort (· ≤ ·)).map (recordKey keyspace))[texts.length]? = _
        rw [hmembers, hlength, List.getElem?_map, List.getElem?_append_right (Nat.le_refl _),
          Nat.sub_self]
        rfl
      · exact fun e _ => ⟨[], by rw [List.append_nil]; rfl, nofun⟩
      intro text _
      rw [wp_ofExcept]
      have hnext : next ⟨some (.list q), false, false, some members, texts⟩
          (.get (recordKey keyspace taskId)) (.ok text) =
          ⟨some (.list q), false, false, some members, texts ++ [text]⟩ := rfl
      cases hrecord : codec.deserializeTask text with
      | error e => exact ⟨[text], hnext, nofun⟩
      | ok record =>
          have hsplit : members.insertionSort (· ≤ ·) = (fetched ++ [taskId]) ++ rest := by
            rw [hmembers, List.append_assoc]
            rfl
          have hcount : (texts ++ [text]).length = (fetched ++ [taskId]).length := by
            rw [List.length_append, List.length_append, hlength]
            rfl
          dsimp only
          rw [wp_bind]
          refine wp_mono (contract codec keyspace).logic_monotone ?_ (ih hsplit hcount)
          rintro outcome _ d ⟨more, rfl, hmore⟩
          cases outcome with
          | error e => exact ⟨text :: more, by simp, nofun⟩
          | ok records =>
              obtain ⟨hcount, hrecords⟩ := hmore records rfl
              refine ⟨text :: more, by simp, ?_⟩
              rintro _ ⟨⟩
              refine ⟨congrArg Nat.succ hcount, ?_⟩
              rw [recordsOf, bind_of_ok hrecord, bind_of_ok hrecords]
              rfl

theorem wp_list (q : TaskQuery) :
    (list codec keyspace q).wp (logic codec keyspace)
      (fun outcome _ d => Settled codec (.list q) outcome d) () (.begun (.list q)) := by
  unfold list
  apply Contract.wp_perform_then
  · exact ⟨rfl, rfl, rfl, q, rfl⟩
  · exact fun e _ => settled_error e rfl
  intro members _
  rw [wp_bind]
  refine wp_mono (contract codec keyspace).logic_monotone ?_
    (wp_getAll q (members.insertionSort (· ≤ ·)) (List.nil_append _).symm rfl)
  rintro outcome _ d ⟨texts, rfl, hrecords⟩
  cases outcome with
  | error e => exact settled_error e rfl
  | ok records =>
      obtain ⟨hcount, hrecords⟩ := hrecords records rfl
      refine ⟨rfl, members, records, rfl, ?_, hrecords, rfl⟩
      exact hcount.trans (List.length_insertionSort _ _)

theorem wp_perform (call : StoreCall) :
    (perform codec keyspace call).wp (logic codec keyspace)
      (fun outcome _ d => Settled codec call outcome d) () (.begun call) := by
  cases call with
  | save task => exact wp_save task
  | get taskId => exact wp_get taskId
  | list q => exact wp_list q

/-- A client keeps to the contract, whatever it does with the replies. -/
theorem wp_client (program : Prog StoreCall StoreReply α) :
    (client codec keyspace program).wp (logic codec keyspace) (fun _ d => d = .free) .free := by
  induction program with
  | done value => rfl
  | outOfFuel => rfl
  | call call next ih =>
      refine ⟨rfl, fun _ _ => ?_⟩
      dsimp only
      rw [Prog.wp_bind]
      refine Prog.wp_mono (contract codec keyspace).logic_monotone ?_ (wp_perform call)
      intro ended d hsettled
      exact ⟨⟨hsettled.calling, hsettled.returns⟩, fun _ _ => ih ended.1⟩

end RedisTaskStore.Steps

end Conductor
