/-
What the task stores answer after one history of saves.  Three of them answer
alike; SQLite answers with the same tasks in another order.
-/
import Conductor.Runtime.TimeOrder

namespace Conductor

open Json

/-- The tasks that the query asks for, in the order of their ids. -/
def TaskQuery.inIdOrder (q : TaskQuery) (tasks : List TaskRecord) : List TaskRecord :=
  q.filterRecords (tasks.insertionSort fun task task' => task.taskId ≤ task'.taskId)

/-- The items by their keys are the tasks by their ids. -/
theorem byKey_savedItems (history : List TaskRecord) :
    (byKey (savedItems history [])).map (·.2) =
      (savedTasks history).insertionSort fun task task' => task.taskId ≤ task'.taskId := by
  have hfiled := FiledTasks.nil.savedItems history
  apply List.map_insertionSort
  intro item hitem item' hitem'
  rw [hfiled.keyed item hitem, hfiled.keyed item' hitem']

namespace MemoryTaskStore

theorem saveItems_eq (task : TaskRecord) (items : List (TaskId × TaskRecord)) :
    saveItems task items = Assoc.insert task.taskId task items := by
  induction items with
  | nil => rfl
  | cons item rest ih =>
      rw [saveItems, Assoc.insert, ih]

theorem saveAll_eq (history : List TaskRecord) (items : List (TaskId × TaskRecord)) :
    operations.saveAll history ⟨items⟩ = .ok ⟨savedItems history items⟩ := by
  induction history generalizing items with
  | nil => rfl
  | cons task rest ih =>
      have hsave : operations.save task ⟨items⟩ = .ok ⟨Assoc.insert task.taskId task items⟩ := by
        rw [← saveItems_eq]
        rfl
      rw [TaskStore.saveAll, bind_of_ok hsave, ih]
      rfl

/-- What the store in memory answers after a history. -/
theorem list_saved (history : List TaskRecord) (q : TaskQuery) :
    list q ⟨savedItems history []⟩ = q.inIdOrder (savedTasks history) := by
  have hget : (fun taskId => get ⟨savedItems history []⟩ taskId) =
      fun taskId => (savedItems history []).lookup taskId := by
    funext taskId
    exact getItem_eq taskId _
  have hread := filterMap_lookup (FiledTasks.nil.savedItems history).nodup
  rw [byKey_savedItems] at hread
  rw [list, TaskQuery.inIdOrder, ← hread]
  exact congrArg (fun f => q.filterRecords (List.filterMap f _)) hget

end MemoryTaskStore

/-- The store answers a query for a task as these items do, up to the order of
keys in dicts. -/
def TaskStore.GetsAs {S : Type} (store : TaskStore S) (s : S)
    (items : List (TaskId × TaskRecord)) : Prop :=
  ∀ taskId, store.get taskId s = .ok ((items.lookup taskId).map (·.sortedKeys))

/-- The store answers as the one in memory with these items does. -/
structure TaskStore.AnswersAs {S : Type} (store : TaskStore S) (s : S)
    (items : List (TaskId × TaskRecord)) : Prop where
  get : store.GetsAs s items
  list : ∀ q, store.list q s =
    .ok ((MemoryTaskStore.list q ⟨items⟩).map (·.sortedKeys))

theorem filterRecords_sortedKeys (q : TaskQuery) (tasks : List TaskRecord) :
    q.filterRecords (tasks.map (·.sortedKeys)) = (q.filterRecords tasks).map (·.sortedKeys) := by
  rw [TaskQuery.filterRecords, TaskQuery.filterRecords, TaskQuery.filterField_eq,
    TaskQuery.filterField_eq, map_page, List.filter_map]
  rfl

variable {codec : Codec TaskRecord} {history : List TaskRecord}

namespace LocalTaskStore

/-- The file holds these records, in some order. -/
def Holds (codec : Codec TaskRecord) (file : TaskFile) (items : List (TaskId × TaskRecord)) :
    Prop :=
  ∃ records, FileHolds codec (·.sortedKeys) file records ∧ records.Perm items

theorem insert_perm {items items' : List (TaskId × TaskRecord)} (hperm : items.Perm items')
    (hnodup : (Assoc.keys items).Nodup) (taskId : TaskId) (task : TaskRecord) :
    (Assoc.insert taskId task items).Perm (Assoc.insert taskId task items') := by
  have hnodup' : (Assoc.keys items').Nodup := (hperm.map _).nodup_iff.mp hnodup
  apply Assoc.perm_of_lookup (Assoc.nodup_insert hnodup) (Assoc.nodup_insert hnodup')
  intro key
  rw [Assoc.lookup_insert, Assoc.lookup_insert, Assoc.lookup_perm hperm hnodup]

theorem saveAll_holds {file : TaskFile} {items : List (TaskId × TaskRecord)}
    (hholds : Holds codec file items)
    (hhistory : ∀ task ∈ history, codec.RoundTrips (·.sortedKeys) task) :
    ∃ file', (operations codec).saveAll history file = .ok file' ∧
      Holds codec file' (savedItems history items) := by
  induction history generalizing file items with
  | nil => exact ⟨file, rfl, hholds⟩
  | cons task rest ih =>
      rw [List.forall_mem_cons] at hhistory
      obtain ⟨records, hfile, hperm⟩ := hholds
      obtain ⟨text, htext, hfile'⟩ : ∃ text, savedText codec task.taskId task file = .ok text ∧
          FileHolds codec (·.sortedKeys) (some text)
            (byKey (Assoc.insert task.taskId task records)) := hfile.saved hhistory.1
      have hholds' : Holds codec (some text) (Assoc.insert task.taskId task items) :=
        ⟨_, hfile', (byKey_perm _).trans (insert_perm hperm hfile.nodup task.taskId task)⟩
      obtain ⟨file', hrest, hholds''⟩ := ih hholds' hhistory.2
      have hsave : (operations codec).save task file = .ok (some text) := by
        change (savedText codec task.taskId task file).map some = _
        rw [htext]
        rfl
      exact ⟨file', (bind_of_ok hsave _).trans hrest, hholds''⟩

/-- The order of the items does not matter once they are sorted. -/
theorem byKey_perm_eq {V : Type} {items items' : List (String × V)} (hperm : items.Perm items')
    (hnodup : (Assoc.keys items).Nodup) : byKey items = byKey items' := by
  apply List.Perm.eq_of_pairwise _ (byKey_pairwise items) (byKey_pairwise items')
    ((byKey_perm items).trans (hperm.trans (byKey_perm items').symm))
  intro item item' hitem hitem' hle hge
  have hmem := (byKey_perm items).subset hitem
  have hmem' := hperm.symm.subset ((byKey_perm items').subset hitem')
  exact Assoc.eq_of_key hnodup hmem hmem' (le_antisymm hle hge)

theorem answersAs {file : TaskFile} {items : List (TaskId × TaskRecord)}
    (hholds : Holds codec file items) : (operations codec).AnswersAs file items := by
  obtain ⟨records, ⟨hnodup, payload, hread, hitems⟩, hperm⟩ := hholds
  constructor
  · intro taskId
    have hfound : (operations codec).get taskId file =
        validated codec (payload.lookup taskId) := by
      change get codec taskId file = _
      rw [get, bind_of_ok hread]
      rfl
    rw [hfound, ← Assoc.lookup_perm hperm hnodup]
    cases hlookup : records.lookup taskId with
    | none =>
        rw [lookup_none_of_forall₂ hitems hlookup]
        rfl
    | some record =>
        obtain ⟨raw, hraw, hstands⟩ := lookup_of_forall₂ hitems hlookup
        obtain ⟨dump, -, hdump, -, hvalue⟩ := hstands.dump
        have htruthy : raw.truthy = true := by
          have hlength : (sortedDict dump).length = dump.length := by
            rw [(sortedDict_perm dump).length_eq, List.length_map]
          rw [hvalue]
          cases hsorted : sortedDict dump with
          | nil =>
              rw [hsorted] at hlength
              exact absurd (List.length_eq_zero_iff.mp hlength.symm) hdump
          | cons _ _ => rfl
        rw [hraw, validated, if_pos htruthy, hstands.validate]
        rfl
  · intro q
    have hsorted : sortedPayload payload = sortedDict payload := by
      rw [sortedPayload, sortedDict, sortedItems_of_forall₂ hitems]
    have hrecords : (sortedPayload payload).mapM (fun item => codec.validate item.2) =
        .ok ((byKey records).map fun item => item.2.sortedKeys) := by
      rw [hsorted]
      exact validate_of_forall₂ (forall₂_byKey hitems)
    have hall : readAll codec file = .ok ((byKey records).map fun item => item.2.sortedKeys) := by
      rw [readAll, bind_of_ok hread]
      exact hrecords
    have hnodup' : (Assoc.keys items).Nodup := (hperm.map _).nodup_iff.mp hnodup
    have hget : (fun taskId => MemoryTaskStore.get ⟨items⟩ taskId) =
        fun taskId => items.lookup taskId := by
      funext taskId
      exact MemoryTaskStore.getItem_eq taskId _
    change (readAll codec file).map q.filterRecords = _
    rw [hall, byKey_perm_eq hperm hnodup]
    have hsplit : (byKey items).map (fun item => item.2.sortedKeys) =
        ((byKey items).map (·.2)).map (·.sortedKeys) := by
      rw [List.map_map]
      rfl
    rw [hsplit, Except.map, filterRecords_sortedKeys, ← filterMap_lookup hnodup', ← hget]
    rfl

end LocalTaskStore

namespace RedisTaskStore

variable {keyspace : String}

theorem recordKey_inj {taskId taskId' : TaskId} :
    recordKey keyspace taskId = recordKey keyspace taskId' ↔ taskId = taskId' := by
  constructor
  · intro hkeys
    have hchars := congrArg String.toList hkeys
    simp only [recordKey, String.toList_append] at hchars
    exact String.toList_inj.mp (List.append_cancel_left hchars)
  · exact congrArg _

/-- The text of each task is there under its key, and the index has the ids. -/
structure Holds (codec : Codec TaskRecord) (keyspace : String) (data : RedisData)
    (items : List (TaskId × TaskRecord)) : Prop where
  texts : ∀ taskId, (data.get (recordKey keyspace taskId)).map codec.parseTask =
    (items.lookup taskId).map fun task => .ok task.sortedKeys
  ids : (data.smembers (indexKey keyspace)).Perm (Assoc.keys items)
  nodup : (Assoc.keys items).Nodup

theorem Holds.empty (codec : Codec TaskRecord) (keyspace : String) :
    Holds codec keyspace .empty [] := ⟨fun _ => rfl, .nil, List.nodup_nil⟩

theorem Holds.saved {data : RedisData} {items : List (TaskId × TaskRecord)}
    (hholds : Holds codec keyspace data items) {task : TaskRecord}
    (htask : codec.RoundTrips (·.sortedKeys) task) :
    ∃ data', (operations codec keyspace).save task data = .ok data' ∧
      Holds codec keyspace data' (Assoc.insert task.taskId task items) := by
  obtain ⟨text, htext, hparse⟩ := htask.serialized
  let written := data.set (recordKey keyspace task.taskId) text
  refine ⟨written.sadd (indexKey keyspace) task.taskId, ?_, ?_, ?_, ?_⟩
  · change save codec keyspace task data = _
    rw [save, bind_of_ok htext]
    rfl
  · intro taskId
    have hstrings : (written.sadd (indexKey keyspace) task.taskId).get
        (recordKey keyspace taskId) = written.get (recordKey keyspace taskId) := by
      rw [RedisData.sadd]
      split <;> rfl
    have hwritten : written.get (recordKey keyspace taskId) =
        if taskId = task.taskId then some text else data.get (recordKey keyspace taskId) := by
      change (Assoc.insert _ text data.strings).lookup _ = _
      rw [Assoc.lookup_insert]
      simp only [recordKey_inj]
      rfl
    rw [hstrings, hwritten, Assoc.lookup_insert]
    split
    · rw [Option.map_some, Option.map_some, hparse]
    · exact hholds.texts taskId
  · have hindex : written.smembers (indexKey keyspace) = data.smembers (indexKey keyspace) := rfl
    rw [RedisData.sadd, hindex, Assoc.keys_insert]
    by_cases hmem : task.taskId ∈ Assoc.keys items
    · rw [if_pos (hholds.ids.mem_iff.mpr hmem), if_pos hmem, hindex]
      exact hholds.ids
    · have hnot : task.taskId ∉ data.smembers (indexKey keyspace) := fun hin =>
        hmem (hholds.ids.mem_iff.mp hin)
      rw [if_neg hnot, if_neg hmem]
      have hadded : RedisData.smembers (indexKey keyspace) { written with
          sets := Assoc.insert (indexKey keyspace)
            (data.smembers (indexKey keyspace) ++ [task.taskId]) written.sets } =
          data.smembers (indexKey keyspace) ++ [task.taskId] := by
        rw [RedisData.smembers, Assoc.lookup_insert, if_pos rfl]
        rfl
      rw [hadded]
      exact hholds.ids.append_right _
  · exact Assoc.nodup_insert hholds.nodup

theorem saveAll_holds {data : RedisData} {items : List (TaskId × TaskRecord)}
    (hholds : Holds codec keyspace data items)
    (hhistory : ∀ task ∈ history, codec.RoundTrips (·.sortedKeys) task) :
    ∃ data', (operations codec keyspace).saveAll history data = .ok data' ∧
      Holds codec keyspace data' (savedItems history items) := by
  induction history generalizing data items with
  | nil => exact ⟨data, rfl, hholds⟩
  | cons task rest ih =>
      rw [List.forall_mem_cons] at hhistory
      obtain ⟨next, hsave, hnext⟩ := hholds.saved hhistory.1
      obtain ⟨data', hrest, hholds'⟩ := ih hnext hhistory.2
      exact ⟨data', (bind_of_ok hsave _).trans hrest, hholds'⟩

theorem get_holds {data : RedisData} {items : List (TaskId × TaskRecord)}
    (hholds : Holds codec keyspace data items) (taskId : TaskId) :
    get codec keyspace taskId data = .ok ((items.lookup taskId).map (·.sortedKeys)) := by
  have htext := hholds.texts taskId
  rw [get]
  cases hdata : data.get (recordKey keyspace taskId) with
  | none =>
      rw [hdata, Option.map_none] at htext
      rw [Option.map_eq_none_iff.mp htext.symm]
      rfl
  | some text =>
      rw [hdata, Option.map_some] at htext
      cases hlookup : items.lookup taskId with
      | none =>
          rw [hlookup] at htext
          cases htext
      | some task =>
          rw [hlookup, Option.map_some] at htext
          rw [Codec.deserializeTask, Option.some.inj htext]
          rfl

theorem answersAs {data : RedisData} {items : List (TaskId × TaskRecord)}
    (hholds : Holds codec keyspace data items) :
    (operations codec keyspace).AnswersAs data items := by
  constructor
  · exact get_holds hholds
  · intro q
    have hall (taskIds : List TaskId) : getAll codec keyspace data taskIds =
        .ok ((taskIds.filterMap fun taskId => items.lookup taskId).map (·.sortedKeys)) := by
      induction taskIds with
      | nil => rfl
      | cons taskId rest ih =>
          rw [getAll, bind_of_ok (get_holds hholds taskId), bind_of_ok ih]
          cases hlookup : items.lookup taskId with
          | none =>
              have hskip : (taskId :: rest).filterMap (fun taskId => items.lookup taskId) =
                  rest.filterMap fun taskId => items.lookup taskId :=
                List.filterMap_cons_none hlookup
              rw [hskip]
              rfl
          | some task =>
              have htake : (taskId :: rest).filterMap (fun taskId => items.lookup taskId) =
                  task :: rest.filterMap fun taskId => items.lookup taskId :=
                List.filterMap_cons_some hlookup
              rw [htake]
              rfl
    have hids : (data.smembers (indexKey keyspace)).insertionSort (· ≤ ·) =
        (Assoc.keys items).insertionSort (· ≤ ·) := by
      have hsorted (ids : List TaskId) := List.pairwise_insertionSort (· ≤ ·) ids
      apply List.Perm.eq_of_pairwise _ (hsorted _) (hsorted _)
      · exact (List.perm_insertionSort _ _).trans
          (hholds.ids.trans (List.perm_insertionSort _ _).symm)
      · exact fun _ _ _ _ => le_antisymm
    have hget : (fun taskId => MemoryTaskStore.get ⟨items⟩ taskId) =
        fun taskId => items.lookup taskId := by
      funext taskId
      exact MemoryTaskStore.getItem_eq taskId _
    change (getAll codec keyspace data _).map q.filterRecords = _
    rw [hall, hids, Except.map, filterRecords_sortedKeys, ← hget]
    rfl

end RedisTaskStore

namespace SQLiteTaskStore

/-- SQLite finds the tasks of a history under their ids. -/
theorem getsAs {table : SQLiteTaskStore}
    (hrun : (operations codec).saveAll history [] = .ok table)
    (hhistory : ∀ task ∈ history, codec.RoundTrips (·.sortedKeys) task) :
    (operations codec).GetsAs table (savedItems history []) := by
  have hrun' : (operations codec).saveAll history (Sql.tableOf (rowOf codec) []) = .ok table :=
    hrun
  have htable := Sql.saveAll_tableOf (fun _ _ _ => save_ok) hrun'
  intro taskId
  change codec.deserializeTask ((table.lookup taskId).map (·.payload)) = _
  rw [htable, Sql.tableOf, Assoc.lookup_map fun _ task => rowOf codec task]
  cases hlookup : (savedItems history []).lookup taskId with
  | none => rfl
  | some task =>
      have hmem : task ∈ history := by
        have hsaved := mem_savedItems (Assoc.mem_of_lookup hlookup)
        exact hsaved.resolve_left List.not_mem_nil
      obtain ⟨text, htext, hparse⟩ := (hhistory task hmem).serialized
      change (codec.parseTask ((codec.serializeTask task).toOption.getD "")).map some = _
      rw [htext]
      change (codec.parseTask text).map some = _
      rw [hparse]
      rfl

/-- SQLite lists the tasks of a history in the order of their times. -/
theorem list_restored {table : SQLiteTaskStore}
    (hrun : (operations codec).saveAll history [] = .ok table)
    (hhistory : ∀ task ∈ history, codec.RoundTrips (·.sortedKeys) task)
    (htimes : ∀ task ∈ history, task.createdAt < endOfTime) {q : TaskQuery}
    (hasks : q.Asks Sql.Fits) :
    list codec q table = .ok ((q.inTimeOrder (savedTasks history)).map (·.sortedKeys)) := by
  have hread : ∀ task ∈ q.inTimeOrder (savedTasks history),
      codec.readBack task = .ok task.sortedKeys := by
    intro task htask
    obtain ⟨text, htext, hparse⟩ :=
      (hhistory task (mem_of_mem_savedTasks (TaskQuery.mem_inTimeOrder htask))).serialized
    rw [Codec.readBack, bind_of_ok htext, hparse]
  rw [list_saved hrun htimes hasks, mapM_congr hread, ← mapM_ok, List.mapM_map]
  rfl

end SQLiteTaskStore

/-- The two orders are orders of the same tasks. -/
theorem inTimeOrder_perm (status : Option StatusFilter) (tasks : List TaskRecord) :
    ((TaskQuery.matching status).inTimeOrder tasks).Perm
      ((TaskQuery.matching status).inIdOrder tasks) := by
  rw [TaskQuery.inIdOrder, TaskQuery.filterRecords, TaskQuery.filterField_eq]
  change (List.insertionSort CreatedBefore _).Perm (List.filter _ (List.insertionSort _ tasks))
  have hsorted : (tasks.insertionSort fun task task' => task.taskId ≤ task'.taskId).Perm tasks :=
    List.perm_insertionSort _ tasks
  exact (List.perm_insertionSort CreatedBefore _).trans (hsorted.filter _).symm

/-- After any history of saves the stores in memory, in a file and in Redis
answer alike.  So does SQLite for a single task; it lists the same tasks, but in
the order of their times. -/
theorem task_stores_interchange (p : Pydantic) (hp : p.Lawful) (uuid4 : Value → TaskId)
    (keyspace : String) (history : List TaskRecord)
    (hserialisable : ∀ task ∈ history, task.Serialisable)
    (htimes : ∀ task ∈ history, task.createdAt < endOfTime) :
    ∃ memory file table data,
      MemoryTaskStore.operations.saveAll history .empty = .ok memory ∧
      (LocalTaskStore.operations (TaskRecord.codec p uuid4)).saveAll history none = .ok file ∧
      (SQLiteTaskStore.operations (TaskRecord.codec p uuid4)).saveAll history [] = .ok table ∧
      (RedisTaskStore.operations (TaskRecord.codec p uuid4) keyspace).saveAll history .empty =
        .ok data ∧
      (LocalTaskStore.operations (TaskRecord.codec p uuid4)).AnswersAs file memory.tasks ∧
      (RedisTaskStore.operations (TaskRecord.codec p uuid4) keyspace).AnswersAs data
        memory.tasks ∧
      (SQLiteTaskStore.operations (TaskRecord.codec p uuid4)).GetsAs table memory.tasks ∧
      ∀ q : TaskQuery, MemoryTaskStore.list q memory = q.inIdOrder (savedTasks history) ∧
        (q.Asks Sql.Fits → SQLiteTaskStore.list (TaskRecord.codec p uuid4) q table =
          .ok ((q.inTimeOrder (savedTasks history)).map (·.sortedKeys))) ∧
        (TaskQuery.inTimeOrder (.matching q.status) (savedTasks history)).Perm
          (TaskQuery.inIdOrder (.matching q.status) (savedTasks history)) := by
  have hhistory : ∀ task ∈ history,
      (TaskRecord.codec p uuid4).RoundTrips (·.sortedKeys) task :=
    fun task htask => TaskRecord.roundTrips hp uuid4 (hserialisable task htask)
  obtain ⟨file, hfile, hfileHolds⟩ :=
    LocalTaskStore.saveAll_holds ⟨[], .missing, .nil⟩ hhistory
  obtain ⟨data, hdata, hdataHolds⟩ :=
    RedisTaskStore.saveAll_holds (.empty (TaskRecord.codec p uuid4) keyspace) hhistory
  obtain ⟨table, htable⟩ : ∃ table, (SQLiteTaskStore.operations
      (TaskRecord.codec p uuid4)).saveAll history [] = .ok table := by
    apply TaskStore.saveAll_ok
    intro task htask table
    obtain ⟨text, htext, _⟩ := (hhistory task htask).serialized
    exact SQLiteTaskStore.save_of_text htext table
  refine ⟨⟨savedItems history []⟩, file, table, data, MemoryTaskStore.saveAll_eq history [], hfile,
    htable, hdata, LocalTaskStore.answersAs hfileHolds, RedisTaskStore.answersAs hdataHolds,
    SQLiteTaskStore.getsAs htable hhistory, ?_⟩
  intro q
  exact ⟨MemoryTaskStore.list_saved history q,
    fun hasks => SQLiteTaskStore.list_restored htable hhistory htimes hasks,
    inTimeOrder_perm q.status _⟩

theorem twoTasks_serialisable : ∀ task ∈ twoTasks, task.Serialisable := by
  intro task htask
  simp only [twoTasks, List.mem_cons, List.not_mem_nil, or_false] at htask
  rcases htask with rfl | rfl <;> exact taskCreatedAt_serialisable _ _

theorem twoTasks_interchange :
    ∃ memory file, MemoryTaskStore.operations.saveAll twoTasks .empty = .ok memory ∧
      (LocalTaskStore.operations (TaskRecord.codec .strict fun _ => "t")).saveAll twoTasks none =
        .ok file ∧
      (LocalTaskStore.operations (TaskRecord.codec .strict fun _ => "t")).AnswersAs file
        memory.tasks := by
  obtain ⟨memory, file, _, _, hmemory, hfile, _, _, hlocal, _⟩ :=
    task_stores_interchange .strict Pydantic.strict_lawful (fun _ => "t") "conductor:tasks"
      twoTasks twoTasks_serialisable (by decide)
  exact ⟨memory, file, hmemory, hfile, hlocal⟩

/-- Of these two tasks the first by its id was created last. -/
theorem sqlite_lists_in_another_order :
    ¬ ∀ (p : Pydantic) (uuid4 : Value → TaskId) (history : List TaskRecord)
        (memory : MemoryTaskStore) (table : SQLiteTaskStore) (q : TaskQuery), p.Lawful →
        (∀ task ∈ history, task.Serialisable) → (∀ task ∈ history, task.createdAt < endOfTime) →
        MemoryTaskStore.operations.saveAll history .empty = .ok memory →
        (SQLiteTaskStore.operations (TaskRecord.codec p uuid4)).saveAll history [] = .ok table →
        0 ≤ q.offset → (∀ n ∈ q.limit, (0 : Int) ≤ n) →
        (SQLiteTaskStore.list (TaskRecord.codec p uuid4) q table).map (·.map (·.taskId)) =
          .ok ((MemoryTaskStore.list q memory).map (·.taskId)) := by
  intro hagree
  have hhistory : ∀ task ∈ twoTasks,
      (TaskRecord.codec .strict fun _ => "t").RoundTrips (·.sortedKeys) task :=
    fun task htask => TaskRecord.roundTrips Pydantic.strict_lawful (fun _ => "t")
      (twoTasks_serialisable task htask)
  obtain ⟨table, htable⟩ : ∃ table, (SQLiteTaskStore.operations
      (TaskRecord.codec .strict fun _ => "t")).saveAll twoTasks [] = .ok table := by
    apply TaskStore.saveAll_ok
    intro task htask table
    obtain ⟨text, htext, _⟩ := (hhistory task htask).serialized
    exact SQLiteTaskStore.save_of_text htext table
  have hlists := hagree .strict (fun _ => "t") twoTasks _ table (.matching none)
    Pydantic.strict_lawful twoTasks_serialisable (by decide)
    (MemoryTaskStore.saveAll_eq twoTasks []) htable le_rfl (by simp [TaskQuery.matching])
  rw [SQLiteTaskStore.list_restored htable hhistory (by decide)
    (TaskQuery.asks_matching Sql.fits_zero none), MemoryTaskStore.list_saved] at hlists
  revert hlists
  decide

end Conductor
