/-
The task stores: in memory, in a JSON file, in two SQL databases and in Redis.
The databases are taken at their word: a table is a map by its primary key, and
`WHERE`, `ORDER BY`, `LIMIT` and `OFFSET` mean what they mean.
-/
import Conductor.Guild.Store
import Conductor.Python.Isoformat
import Conductor.Runtime.Store
import Conductor.Runtime.TaskCodec

namespace Conductor

open Json

/-- What the filter by status may be: a member of the enumeration, or a text. -/
inductive StatusFilter where
  | member (status : TaskStatus)
  | text (text : String)

/-- `_normalize_status`. -/
def normalizeStatus : Option StatusFilter → Option String
  | none => none
  | some (.member status) => some status.value
  | some (.text text) => some text

/-- The arguments of `list`. -/
structure TaskQuery where
  limit : Option Int
  offset : Int
  status : Option StatusFilter

namespace TaskQuery

/-- All the tasks that the filter admits. -/
def matching (status : Option StatusFilter) : TaskQuery := ⟨none, 0, status⟩

/-- `_filter_records`. -/
def filterRecords (q : TaskQuery) (records : List TaskRecord) : List TaskRecord :=
  let records := filterField (normalizeStatus q.status) (fun task => task.status.value) records
  page q.offset q.limit records

/-- The filter by status, for one task. -/
def admits (q : TaskQuery) (task : TaskRecord) : Bool :=
  match normalizeStatus q.status with
  | none => true
  | some text => task.status.value = text

theorem filterField_eq (q : TaskQuery) (tasks : List TaskRecord) :
    filterField (normalizeStatus q.status) (fun task => task.status.value) tasks =
      tasks.filter q.admits := by
  unfold filterField admits
  cases normalizeStatus q.status with
  | none => exact (List.filter_eq_self.mpr (by simp)).symm
  | some text => rfl

end TaskQuery

/-- The operations of a task store on its state.  One that raises leaves the
state as it was. -/
structure TaskStore (S : Type) where
  save : TaskRecord → S → Except PyExc S
  get : TaskId → S → Except PyExc (Option TaskRecord)
  list : TaskQuery → S → Except PyExc (List TaskRecord)

namespace MemoryTaskStore

/-- The records by their ids in order, filtered. -/
def list (q : TaskQuery) (store : MemoryTaskStore) : List TaskRecord :=
  q.filterRecords (((Assoc.keys store.tasks).insertionSort (· ≤ ·)).filterMap store.get)

def operations : TaskStore MemoryTaskStore where
  save task store := .ok (store.save task)
  get taskId store := .ok (store.get taskId)
  list q store := .ok (list q store)

end MemoryTaskStore

/-- The text in the file of the store, or `none` where there is no file. -/
abbrev TaskFile := Option String

namespace LocalTaskStore

variable (codec : Codec TaskRecord)

def save (task : TaskRecord) (file : TaskFile) : Except PyExc TaskFile :=
  (savedText codec task.taskId task file).map some

/-- `TaskRecord.model_validate(record) if record else None`. -/
def validated : Option Value → Except PyExc (Option TaskRecord)
  | none => .ok none
  | some record => if record.truthy then (codec.validate record).map some else .ok none

def get (taskId : TaskId) (file : TaskFile) : Except PyExc (Option TaskRecord) := do
  let payload ← readPayload file
  let record ← payload.getItem taskId
  validated codec record

/-- `sorted(payload.items())`: no two items have one key. -/
def sortedPayload (items : Dict) : Dict := items.insertionSort KeyLe

/-- All the records by their ids in order. -/
def readAll (file : TaskFile) : Except PyExc (List TaskRecord) := do
  let payload ← readPayload file
  let items ← payload.items
  (sortedPayload items).mapM fun item => codec.validate item.2

def list (q : TaskQuery) (file : TaskFile) : Except PyExc (List TaskRecord) :=
  (readAll codec file).map q.filterRecords

def operations : TaskStore TaskFile where
  save := save codec
  get := get codec
  list := list codec

end LocalTaskStore

namespace Codec

variable (codec : Codec TaskRecord)

/-- `_serialize_task`. -/
def serializeTask (task : TaskRecord) : Except PyExc String := do
  let items ← codec.dump task
  dumps .oneLine true (.dict items)

/-- `TaskRecord.model_validate(json.loads(payload))`. -/
def parseTask (payload : String) : Except PyExc TaskRecord := do
  let value ← loads payload
  codec.validate value

/-- `_deserialize_task`. -/
def deserializeTask : Option String → Except PyExc (Option TaskRecord)
  | none => .ok none
  | some payload => (codec.parseTask payload).map some

end Codec

namespace Sql

/-- The rows of a table by their primary keys. -/
abbrev Table (Row : Type) := List (TaskId × Row)

variable {Row : Type}

/-- `LIMIT` and `OFFSET`, in rows. -/
def slice (limit : Option Nat) (offset : Nat) (rows : List (TaskId × Row)) :
    List (TaskId × Row) :=
  match limit with
  | none => rows.drop offset
  | some limit => (rows.drop offset).take limit

/-- The rows that are kept, in this order. -/
def select (keep : Row → Bool) (order : TaskId × Row → TaskId × Row → Prop) [DecidableRel order]
    (table : Table Row) : List (TaskId × Row) :=
  (table.filter fun row => keep row.2).insertionSort order

/-- `ORDER BY` of one column and then the primary key, ascending.  The order of
texts is that of their code points, which is the order of their bytes. -/
def OrderedBy {Column : Type} [LinearOrder Column] (column : Row → Column)
    (row row' : TaskId × Row) : Prop :=
  column row.2 < column row'.2 ∨ column row.2 = column row'.2 ∧ row.1 ≤ row'.1

instance OrderedBy.decidable {Column : Type} [LinearOrder Column] (column : Row → Column) :
    DecidableRel (OrderedBy column) := fun row row' =>
  inferInstanceAs (Decidable (column row.2 < column row'.2 ∨
    column row.2 = column row'.2 ∧ row.1 ≤ row'.1))

/-- The first integer that does not fit into 64 bits, 2^63. -/
def bigintLimit : Int := 9223372036854775808

end Sql

/-- The columns of a row other than its key. -/
structure SQLiteRow where
  status : String
  workflowId : Option String
  createdAt : String
  updatedAt : String
  payload : String

abbrev SQLiteTaskStore := Sql.Table SQLiteRow

namespace SQLiteTaskStore

open Datetime

variable (codec : Codec TaskRecord)

/-- `INSERT … ON CONFLICT(task_id) DO UPDATE`. -/
def save (task : TaskRecord) (table : SQLiteTaskStore) : Except PyExc SQLiteTaskStore :=
  (codec.serializeTask task).map fun payload =>
    Assoc.insert task.taskId {
      status := task.status.value
      workflowId := task.workflowId
      createdAt := utcIsoformat task.createdAt
      updatedAt := utcIsoformat task.updatedAt
      payload := payload
    } table

def get (taskId : TaskId) (table : SQLiteTaskStore) : Except PyExc (Option TaskRecord) :=
  codec.deserializeTask ((table.lookup taskId).map (·.payload))

/-- The clause `WHERE status = ?`, if there is one. -/
def keeps (status : Option String) (row : SQLiteRow) : Bool :=
  match status with
  | none => true
  | some text => row.status = text

/-- The argument of the clause `LIMIT`, if there is one. -/
def limitClause (q : TaskQuery) : Option Int :=
  match q.limit with
  | some limit => some limit
  | none => if q.offset ≠ 0 then some (-1) else none

/-- The argument of the clause `OFFSET`, if there is one. -/
def offsetClause (q : TaskQuery) : Option Int := if q.offset ≠ 0 then some q.offset else none

/-- An argument as it is bound to its statement, in 64 bits. -/
def bindInteger (n : Int) : Except PyExc Int :=
  if -Sql.bigintLimit ≤ n ∧ n < Sql.bigintLimit then .ok n
  else .error (.exception "OverflowError" "Python int too large to convert to SQLite INTEGER")

def bindClause : Option Int → Except PyExc (Option Int)
  | none => .ok none
  | some n => (bindInteger n).map some

/-- A negative limit is no limit. -/
def rowLimit : Option Int → Option Nat
  | none => none
  | some limit => if limit < 0 then none else some limit.toNat

/-- The rows that the query fetches.  A negative offset is none. -/
def rows (q : TaskQuery) (table : SQLiteTaskStore) :
    Except PyExc (List (TaskId × SQLiteRow)) := do
  let limit ← bindClause (limitClause q)
  let offset ← bindClause (offsetClause q)
  return Sql.slice (rowLimit limit) (offset.getD 0).toNat
    (Sql.select (keeps (normalizeStatus q.status)) (Sql.OrderedBy (·.createdAt)) table)

def list (q : TaskQuery) (table : SQLiteTaskStore) : Except PyExc (List TaskRecord) := do
  let rows ← rows q table
  rows.mapM fun row => codec.parseTask row.2.payload

def operations : TaskStore SQLiteTaskStore where
  save := save codec
  get := get codec
  list := list codec

end SQLiteTaskStore

/-- What the database makes of a text in a column of type `JSONB`, and the text
of its value. -/
structure Jsonb (J : Type) where
  parse : String → Except PyExc J
  text : J → String

/-- The columns of a row other than its key. -/
structure PostgresRow (J : Type) where
  status : String
  workflowId : Option String
  createdAt : Time
  updatedAt : Time
  payload : J

abbrev PostgresTaskStore (J : Type) := Sql.Table (PostgresRow J)

namespace PostgresTaskStore

variable {J : Type} (jsonb : Jsonb J) (codec : Codec TaskRecord)

/-- `INSERT … ON CONFLICT(task_id) DO UPDATE`. -/
def save (task : TaskRecord) (table : PostgresTaskStore J) :
    Except PyExc (PostgresTaskStore J) := do
  let text ← codec.serializeTask task
  let payload ← jsonb.parse text
  return Assoc.insert task.taskId {
    status := task.status.value
    workflowId := task.workflowId
    createdAt := task.createdAt
    updatedAt := task.updatedAt
    payload := payload
  } table

def get (taskId : TaskId) (table : PostgresTaskStore J) : Except PyExc (Option TaskRecord) :=
  codec.deserializeTask ((table.lookup taskId).map fun row => jsonb.text row.payload)

def keeps (status : Option String) (row : PostgresRow J) : Bool :=
  match status with
  | none => true
  | some text => row.status = text

def negativeRowCount (clause : String) : PyExc :=
  .exception "InvalidRowCount" (clause ++ " must not be negative")

/-- The argument of a clause, which has 64 bits and must not be negative. -/
def rowCount (clause : String) (count : Int) : Except PyExc Nat :=
  if count < 0 then .error (negativeRowCount clause)
  else if count < Sql.bigintLimit then .ok count.toNat
  else .error (.exception "NumericValueOutOfRange" "bigint out of range")

def rowLimit : Option Int → Except PyExc (Option Nat)
  | none => .ok none
  | some limit => (rowCount "LIMIT" limit).map some

/-- The rows that the query fetches. -/
def rows (q : TaskQuery) (table : PostgresTaskStore J) :
    Except PyExc (List (TaskId × PostgresRow J)) := do
  let limit ← rowLimit q.limit
  let offset ← rowCount "OFFSET" q.offset
  return Sql.slice limit offset
    (Sql.select (keeps (normalizeStatus q.status)) (Sql.OrderedBy (·.createdAt)) table)

def list (q : TaskQuery) (table : PostgresTaskStore J) : Except PyExc (List TaskRecord) := do
  let rows ← rows q table
  rows.mapM fun row => codec.parseTask (jsonb.text row.2.payload)

def operations : TaskStore (PostgresTaskStore J) where
  save := save jsonb codec
  get := get jsonb codec
  list := list jsonb codec

end PostgresTaskStore

/-- The strings and the sets of a Redis, by their keys. -/
structure RedisData where
  strings : List (String × String)
  sets : List (String × List String)

namespace RedisData

def empty : RedisData := ⟨[], []⟩

def set (key value : String) (data : RedisData) : RedisData :=
  { data with strings := Assoc.insert key value data.strings }

def get (key : String) (data : RedisData) : Option String := data.strings.lookup key

/-- The members in the order in which the server has them. -/
def smembers (key : String) (data : RedisData) : List String := (data.sets.lookup key).getD []

def sadd (key member : String) (data : RedisData) : RedisData :=
  if member ∈ data.smembers key then data
  else { data with sets := Assoc.insert key (data.smembers key ++ [member]) data.sets }

end RedisData

namespace RedisTaskStore

variable (codec : Codec TaskRecord) (keyspace : String)

/-- `_index_key`. -/
def indexKey : String := keyspace ++ ":ids"

/-- `_record_key`. -/
def recordKey (taskId : TaskId) : String := keyspace ++ ":record:" ++ taskId

def save (task : TaskRecord) (data : RedisData) : Except PyExc RedisData := do
  let payload ← codec.serializeTask task
  return (data.set (recordKey keyspace task.taskId) payload).sadd (indexKey keyspace) task.taskId

def get (taskId : TaskId) (data : RedisData) : Except PyExc (Option TaskRecord) :=
  codec.deserializeTask (data.get (recordKey keyspace taskId))

/-- The records that are there among these. -/
def getAll (data : RedisData) : List TaskId → Except PyExc (List TaskRecord)
  | [] => .ok []
  | taskId :: rest => do
      let record ← get codec keyspace taskId data
      let records ← getAll data rest
      return record.toList ++ records

def list (q : TaskQuery) (data : RedisData) : Except PyExc (List TaskRecord) :=
  let taskIds := (data.smembers (indexKey keyspace)).insertionSort (· ≤ ·)
  (getAll codec keyspace data taskIds).map q.filterRecords

def operations : TaskStore RedisData where
  save := save codec keyspace
  get := get codec keyspace
  list := list codec keyspace

end RedisTaskStore

end Conductor
