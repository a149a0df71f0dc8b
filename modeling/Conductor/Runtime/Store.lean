/-
The in-memory task store and the two task queues.  Records are immutable here,
so the deep copies of the source are the records themselves.
-/
import Conductor.Interfaces

namespace Conductor

/-- Records by task id, in insertion order. -/
structure MemoryTaskStore where
  tasks : List (TaskId × TaskRecord)

namespace MemoryTaskStore

def empty : MemoryTaskStore := ⟨[]⟩

/-- `self._tasks[task.task_id] = task` on the items of the dict. -/
def saveItems (task : TaskRecord) :
    List (TaskId × TaskRecord) → List (TaskId × TaskRecord)
  | [] => [(task.taskId, task)]
  | (taskId, old) :: rest =>
      if taskId = task.taskId then (taskId, task) :: rest
      else (taskId, old) :: saveItems task rest

def save (store : MemoryTaskStore) (task : TaskRecord) : MemoryTaskStore :=
  ⟨saveItems task store.tasks⟩

def getItem (taskId : TaskId) : List (TaskId × TaskRecord) → Option TaskRecord
  | [] => none
  | (key, task) :: rest => if key = taskId then some task else getItem taskId rest

def get (store : MemoryTaskStore) (taskId : TaskId) : Option TaskRecord :=
  getItem taskId store.tasks

@[simp] theorem get_empty (taskId : TaskId) : empty.get taskId = none := rfl

theorem getItem_saveItems (task : TaskRecord) (taskId : TaskId)
    (items : List (TaskId × TaskRecord)) :
    getItem taskId (saveItems task items) =
      if task.taskId = taskId then some task else getItem taskId items := by
  induction items with
  | nil => rfl
  | cons item rest ih =>
      obtain ⟨key, old⟩ := item
      by_cases hkey : key = task.taskId
      · subst hkey
        by_cases hid : task.taskId = taskId <;> simp [saveItems, getItem, hid]
      · by_cases hid : key = taskId
        · subst hid
          simp [saveItems, getItem, hkey, Ne.symm hkey]
        · simpa [saveItems, getItem, hkey, hid] using ih

/-- The store answers with the record saved last under the id. -/
@[simp] theorem get_save (store : MemoryTaskStore) (task : TaskRecord)
    (taskId : TaskId) :
    (store.save task).get taskId =
      if task.taskId = taskId then some task else store.get taskId :=
  getItem_saveItems task taskId store.tasks

/-- Every record is filed under its own id. -/
def Keyed (store : MemoryTaskStore) : Prop :=
  ∀ taskId task, store.get taskId = some task → task.taskId = taskId

theorem keyed_empty : empty.Keyed := by
  intro taskId task h
  simp at h

theorem Keyed.save {store : MemoryTaskStore} (hkeyed : store.Keyed)
    (task : TaskRecord) : (store.save task).Keyed := by
  intro taskId found hfound
  rw [get_save] at hfound
  split at hfound
  · rename_i hid
    exact Option.some.inj hfound ▸ hid
  · exact hkeyed taskId found hfound

end MemoryTaskStore

/-- The FIFO queues: unbounded, or refusing past `maxSize` entries. -/
inductive TaskQueue where
  | inMemory (queue : List TaskId)
  | bounded (queue : List TaskId) (maxSize : Int)

namespace TaskQueue

def queueFull (maxSize : Int) : PyExc :=
  .exception "QueueFull" ("Queue is full (" ++ toString maxSize ++ " tasks). " ++
    "Wait for tasks to complete before submitting more.")

def enqueue (taskId : TaskId) : TaskQueue → Except PyExc TaskQueue
  | inMemory queue => .ok (inMemory (queue ++ [taskId]))
  | bounded queue maxSize =>
      if maxSize ≤ queue.length then .error (queueFull maxSize)
      else .ok (bounded (queue ++ [taskId]) maxSize)

def dequeue : TaskQueue → Option TaskId × TaskQueue
  | inMemory [] => (none, inMemory [])
  | inMemory (taskId :: rest) => (some taskId, inMemory rest)
  | bounded [] maxSize => (none, bounded [] maxSize)
  | bounded (taskId :: rest) maxSize => (some taskId, bounded rest maxSize)

end TaskQueue

end Conductor
