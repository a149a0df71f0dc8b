/-
What a history of saves leaves: the record saved last under each id, in each of
the task stores.
-/
import Conductor.ControlPlane.Workflows
import Conductor.Runtime.TaskStores

namespace Conductor

open Json

/-- A record that JSON carries is read back from its text. -/
theorem Codec.RoundTrips.serialized {codec : Codec TaskRecord} {kept : TaskRecord → TaskRecord}
    {task : TaskRecord} (htask : codec.RoundTrips kept task) :
    ∃ text, codec.serializeTask task = .ok text ∧ codec.parseTask text = .ok (kept task) := by
  obtain ⟨value, hstands⟩ := htask
  obtain ⟨items, hdump, -, hfaithful, hvalue⟩ := hstands.dump
  obtain ⟨text, htext, hloads⟩ := loads_dumps .oneLine true hfaithful
  have hread : loads text = .ok value := by
    have hback := hloads "" (by simp)
    rw [String.append_empty, if_pos rfl, sorted_dict, ← hvalue] at hback
    exact hback
  refine ⟨text, ?_, ?_⟩
  · rw [serializeTask, bind_of_ok hdump, htext]
  · rw [parseTask, bind_of_ok hread, hstands.validate]

/-- The tasks are saved one after the other, as long as none raises. -/
def TaskStore.saveAll {S : Type} (store : TaskStore S) : List TaskRecord → S → Except PyExc S
  | [], s => .ok s
  | task :: rest, s => do
      let s ← store.save task s
      store.saveAll rest s

/-- Each task of a history was saved. -/
theorem TaskStore.saveAll_saved {S : Type} {store : TaskStore S} {history : List TaskRecord}
    {s s' : S} (hrun : store.saveAll history s = .ok s') {task : TaskRecord}
    (htask : task ∈ history) : ∃ before after, store.save task before = .ok after := by
  induction history generalizing s with
  | nil => cases htask
  | cons first rest ih =>
      rw [saveAll] at hrun
      cases hfirst : store.save first s with
      | error e =>
          rw [hfirst] at hrun
          cases hrun
      | ok next =>
          rw [bind_of_ok hfirst] at hrun
          rcases List.mem_cons.mp htask with rfl | hrest
          · exact ⟨s, next, hfirst⟩
          · exact ih hrun hrest

theorem TaskStore.saveAll_ok {S : Type} {store : TaskStore S} {history : List TaskRecord}
    (hsave : ∀ task ∈ history, ∀ s, ∃ s', store.save task s = .ok s') (s : S) :
    ∃ s', store.saveAll history s = .ok s' := by
  induction history generalizing s with
  | nil => exact ⟨s, rfl⟩
  | cons task rest ih =>
      rw [List.forall_mem_cons] at hsave
      obtain ⟨next, hnext⟩ := hsave.1 s
      obtain ⟨s', hrest⟩ := ih hsave.2 next
      exact ⟨s', (bind_of_ok hnext _).trans hrest⟩

/-- The record saved last under each id, over those from before. -/
def savedItems (history : List TaskRecord) (items : List (TaskId × TaskRecord)) :
    List (TaskId × TaskRecord) :=
  history.foldl (fun items task => Assoc.insert task.taskId task items) items

/-- The tasks after a history from an empty store. -/
def savedTasks (history : List TaskRecord) : List TaskRecord := (savedItems history []).map (·.2)

/-- Each record is filed under its own id, once. -/
structure FiledTasks (items : List (TaskId × TaskRecord)) : Prop where
  nodup : (Assoc.keys items).Nodup
  keyed : ∀ item ∈ items, item.1 = item.2.taskId

namespace FiledTasks

variable {items : List (TaskId × TaskRecord)}

theorem nil : FiledTasks [] := ⟨List.nodup_nil, List.forall_mem_nil _⟩

theorem insert (hfiled : FiledTasks items) (task : TaskRecord) :
    FiledTasks (Assoc.insert task.taskId task items) := by
  refine ⟨Assoc.nodup_insert hfiled.nodup, fun item hitem => ?_⟩
  rcases Assoc.mem_insert hitem with hold | rfl
  · exact hfiled.keyed item hold
  · rfl

theorem savedItems (hfiled : FiledTasks items) (history : List TaskRecord) :
    FiledTasks (savedItems history items) := by
  induction history generalizing items with
  | nil => exact hfiled
  | cons task rest ih => exact ih (hfiled.insert task)

end FiledTasks

theorem mem_savedItems {history : List TaskRecord} {items : List (TaskId × TaskRecord)}
    {item : TaskId × TaskRecord} (hmem : item ∈ savedItems history items) :
    item ∈ items ∨ item.2 ∈ history := by
  induction history generalizing items with
  | nil => exact .inl hmem
  | cons task rest ih =>
      rcases ih hmem with hold | hrest
      · rcases Assoc.mem_insert hold with hitem | rfl
        · exact .inl hitem
        · exact .inr List.mem_cons_self
      · exact .inr (List.mem_cons_of_mem _ hrest)

theorem mem_of_mem_savedTasks {history : List TaskRecord} {task : TaskRecord}
    (hmem : task ∈ savedTasks history) : task ∈ history := by
  obtain ⟨item, hitem, rfl⟩ := List.mem_map.mp hmem
  rcases mem_savedItems hitem with hnone | hsaved
  · cases hnone
  · exact hsaved

/-- The items are the tasks under their ids. -/
theorem savedItems_eq (history : List TaskRecord) :
    savedItems history [] = (savedTasks history).map fun task => (task.taskId, task) := by
  have hfiled := FiledTasks.nil.savedItems history
  rw [savedTasks, List.map_map]
  symm
  refine (List.map_congr_left fun item hitem => ?_).trans (List.map_id _)
  rw [Function.comp_apply, ← hfiled.keyed item hitem]
  rfl

namespace Sql

variable {Row : Type}

/-- The table of these items, where each row is made from its task. -/
def tableOf (row : TaskRecord → Row) (items : List (TaskId × TaskRecord)) : Table Row :=
  items.map fun item => (item.1, row item.2)

/-- Of a table of tasks, the rows of the tasks that are kept, in the order of
the tasks. -/
theorem select_tableOf (row : TaskRecord → Row) (tasks : List TaskRecord) {keep : Row → Bool}
    {order : TaskId × Row → TaskId × Row → Prop} [DecidableRel order]
    (keep' : TaskRecord → Bool) (hkeep : ∀ task, keep (row task) = keep' task)
    (horder : ∀ a ∈ tasks, ∀ b ∈ tasks,
      CreatedBefore a b ↔ order (a.taskId, row a) (b.taskId, row b)) :
    select keep order (tableOf row (tasks.map fun task => (task.taskId, task))) =
      ((tasks.filter keep').insertionSort CreatedBefore).map fun task =>
        (task.taskId, row task) := by
  have htable : tableOf row (tasks.map fun task => (task.taskId, task)) =
      tasks.map fun task => (task.taskId, row task) := by
    rw [tableOf, List.map_map]
    rfl
  have hfilter : (tasks.map fun task => (task.taskId, row task)).filter (fun row => keep row.2) =
      (tasks.filter keep').map fun task => (task.taskId, row task) := by
    rw [List.filter_map]
    congr 1
    exact List.filter_congr fun task _ => hkeep task
  rw [select, htable, hfilter]
  symm
  apply List.map_insertionSort
  intro a ha b hb
  exact horder a (List.mem_of_mem_filter ha) b (List.mem_of_mem_filter hb)

theorem saveAll_tableOf {store : TaskStore (Table Row)} {row : TaskRecord → Row}
    (hsave : ∀ task table table', store.save task table = .ok table' →
      table' = Assoc.insert task.taskId (row task) table)
    {history : List TaskRecord} {items : List (TaskId × TaskRecord)} {table : Table Row}
    (hrun : store.saveAll history (tableOf row items) = .ok table) :
    table = tableOf row (savedItems history items) := by
  induction history generalizing items with
  | nil => exact (Except.ok.inj hrun).symm
  | cons task rest ih =>
      rw [TaskStore.saveAll] at hrun
      cases htask : store.save task (tableOf row items) with
      | error e =>
          rw [htask] at hrun
          cases hrun
      | ok next =>
          rw [bind_of_ok htask, hsave _ _ _ htask, tableOf, Assoc.insert_map] at hrun
          exact ih hrun

end Sql

end Conductor
