/-
What the lists of the task stores hold: each task that is found in the store and
has the status, once.
-/
import Conductor.Runtime.Paging
import Conductor.Runtime.SavedTasks

namespace Conductor

open Json

section Items

variable {K R A : Type}

/-- Reading the values of items gives items with the same keys. -/
theorem items_of_mapM (read : R → Except PyExc A) {rows : List (K × R)} {values : List A}
    (hread : rows.mapM (fun row => read row.2) = .ok values) :
    ∃ items : List (K × A), Assoc.keys items = Assoc.keys rows ∧ items.map (·.2) = values ∧
      ∀ key value, (key, value) ∈ items ↔ ∃ raw, (key, raw) ∈ rows ∧ read raw = .ok value := by
  induction rows generalizing values with
  | nil =>
      cases hread
      exact ⟨[], rfl, rfl, by simp⟩
  | cons row rest ih =>
      obtain ⟨key, raw⟩ := row
      rw [List.mapM_cons] at hread
      obtain ⟨value, hvalue, hread⟩ := Except.ok_of_bind hread
      obtain ⟨others, hothers, hread⟩ := Except.ok_of_bind hread
      cases hread
      obtain ⟨items, hkeys, hvalues, hmem⟩ := ih hothers
      refine ⟨(key, value) :: items, ?_, ?_, ?_⟩
      · rw [Assoc.keys_cons, Assoc.keys_cons, hkeys]
      · rw [List.map_cons, hvalues]
      · intro key' value'
        simp only [List.mem_cons, Prod.mk.injEq, hmem]
        constructor
        · rintro (⟨rfl, rfl⟩ | ⟨raw', hraw', hvalue'⟩)
          · exact ⟨raw, .inl ⟨rfl, rfl⟩, hvalue⟩
          · exact ⟨raw', .inr hraw', hvalue'⟩
        · rintro ⟨raw', ⟨rfl, rfl⟩ | hraw', hvalue'⟩
          · exact .inl ⟨rfl, Except.ok.inj (hvalue'.symm.trans hvalue)⟩
          · exact .inr ⟨raw', hraw', hvalue'⟩

end Items

/-- A list that filters everything that is found holds what it should. -/
theorem TaskStore.Stored.of_items {S : Type} {store : TaskStore S} {s : S}
    {items : List (TaskId × TaskRecord)} (hnodup : (Assoc.keys items).Nodup)
    (hitems : ∀ taskId task, (taskId, task) ∈ items ↔ store.get taskId s = .ok (some task))
    (status : Option StatusFilter) :
    store.Stored s status ((TaskQuery.matching status).filterRecords (items.map (·.2))) := by
  refine ⟨items.filter fun item => (TaskQuery.matching status).admits item.2, ?_, ?_, ?_⟩
  · exact (List.filter_sublist.map _).nodup hnodup
  · rw [TaskQuery.filterRecords, TaskQuery.filterField_eq, List.filter_map]
    rfl
  · intro taskId task
    rw [List.mem_filter, hitems]

theorem MemoryTaskStore.getItem_eq (taskId : TaskId) (items : List (TaskId × TaskRecord)) :
    getItem taskId items = items.lookup taskId := by
  induction items with
  | nil => rfl
  | cons item rest ih =>
      obtain ⟨key, task⟩ := item
      rw [getItem]
      by_cases hkey : key = taskId
      · rw [if_pos hkey, hkey, List.lookup_cons_self]
      · rw [if_neg hkey, Assoc.lookup_cons_of_ne (Ne.symm hkey), ih]

theorem mem_iff_lookup {K V : Type} [DecidableEq K] {items : List (K × V)}
    (hnodup : (Assoc.keys items).Nodup) {key : K} {value : V} :
    (key, value) ∈ items ↔ items.lookup key = some value :=
  ⟨fun hmem => Assoc.lookup_of_mem hnodup hmem, Assoc.mem_of_lookup⟩

/-- What is found under each of these keys in order, of items with distinct keys. -/
theorem filterMap_lookup {V : Type} {items : List (String × V)}
    (hnodup : (Assoc.keys items).Nodup) :
    ((Assoc.keys items).insertionSort (· ≤ ·)).filterMap (fun key => items.lookup key) =
      (byKey items).map (·.2) := by
  have hkeys : (Assoc.keys items).insertionSort (· ≤ ·) = (byKey items).map (·.1) := by
    symm
    apply List.map_insertionSort
    exact fun _ _ _ _ => Iff.rfl
  have hfound : ∀ item ∈ byKey items, items.lookup item.1 = some item.2 := by
    intro item hitem
    exact Assoc.lookup_of_mem hnodup ((byKey_perm items).subset hitem)
  rw [hkeys, List.filterMap_map]
  generalize byKey items = sorted at hfound
  induction sorted with
  | nil => rfl
  | cons item rest ih =>
      rw [List.forall_mem_cons] at hfound
      have hhead : ((fun key => items.lookup key) ∘ (·.1)) item = some item.2 := hfound.1
      rw [List.filterMap_cons_some hhead, List.map_cons, ih hfound.2]

theorem MemoryTaskStore.stored {memory : MemoryTaskStore}
    (hkept : (Assoc.keys memory.tasks).Nodup) {status : Option StatusFilter}
    {tasks : List TaskRecord} (hlist : operations.list (.matching status) memory = .ok tasks) :
    operations.Stored memory status tasks := by
  have hget : (fun taskId => get memory taskId) = fun taskId => memory.tasks.lookup taskId := by
    funext taskId
    exact getItem_eq taskId _
  have hread : ((Assoc.keys memory.tasks).insertionSort (· ≤ ·)).filterMap memory.get =
      (byKey memory.tasks).map (·.2) := by
    rw [← filterMap_lookup hkept]
    exact congrArg (fun f => List.filterMap f _) hget
  obtain rfl : (TaskQuery.matching status).filterRecords ((byKey memory.tasks).map (·.2)) =
      tasks := by
    rw [← hread]
    exact Except.ok.inj hlist
  apply TaskStore.Stored.of_items (nodup_byKey hkept)
  intro taskId task
  rw [mem_iff_lookup (nodup_byKey hkept), lookup_byKey hkept, ← getItem_eq]
  change _ ↔ Except.ok (getItem taskId memory.tasks) = _
  rw [Except.ok.injEq]

/-- No empty value is a valid task. -/
def Codec.RefusesEmpty (codec : Codec TaskRecord) : Prop :=
  ∀ value task, codec.validate value = .ok task → value.truthy = true

theorem LocalTaskStore.stored {codec : Codec TaskRecord} (hrefuses : codec.RefusesEmpty)
    {file : TaskFile} {status : Option StatusFilter} {tasks : List TaskRecord}
    (hlist : (operations codec).list (.matching status) file = .ok tasks) :
    (operations codec).Stored file status tasks := by
  obtain ⟨all, hall, rfl⟩ := Except.ok_of_map hlist
  obtain ⟨payload, hpayload, hall⟩ := Except.ok_of_bind hall
  obtain ⟨raw, hraw, hall⟩ := Except.ok_of_bind hall
  obtain ⟨items, hkeys, rfl, hmem⟩ := items_of_mapM codec.validate hall
  obtain rfl : payload = .dict raw := by
    cases payload <;> cases hraw
    rfl
  have hnodup := nodup_readPayload hpayload
  have hperm : (sortedPayload raw).Perm raw := List.perm_insertionSort _ _
  apply TaskStore.Stored.of_items
  · rw [hkeys]
    exact (hperm.map _).nodup_iff.mpr hnodup
  · intro taskId task
    have hget : (operations codec).get taskId file = validated codec (raw.lookup taskId) := by
      change get codec taskId file = _
      rw [get, bind_of_ok hpayload]
      rfl
    rw [hmem, hget]
    simp only [hperm.mem_iff, mem_iff_lookup hnodup]
    cases raw.lookup taskId with
    | none => simp [validated]
    | some value =>
        simp only [Option.some.injEq, exists_eq_left', validated]
        constructor
        · intro hvalue
          rw [if_pos (hrefuses value task hvalue), hvalue]
          rfl
        · split
          · intro hfound
            obtain ⟨found, hvalue, hsome⟩ := Except.ok_of_map hfound
            cases hsome
            exact hvalue
          · nofun

namespace SQLiteTaskStore

/-- A table as `save` keeps it: each id is there once, and the column of a status
has the status of the record. -/
structure Kept (codec : Codec TaskRecord) (table : SQLiteTaskStore) : Prop where
  nodup : (Assoc.keys table).Nodup
  status : ∀ item ∈ table, ∀ task, codec.parseTask item.2.payload = .ok task →
    item.2.status = task.status.value

theorem get_eq_some {codec : Codec TaskRecord} {table : SQLiteTaskStore} {taskId : TaskId}
    {task : TaskRecord} : get codec taskId table = .ok (some task) ↔
      ∃ row, table.lookup taskId = some row ∧ codec.parseTask row.payload = .ok task := by
  unfold get
  cases table.lookup taskId with
  | none => simp [Codec.deserializeTask]
  | some row =>
      simp only [Option.map_some, Codec.deserializeTask, Option.some.injEq, exists_eq_left']
      cases codec.parseTask row.payload <;> simp [Except.map]

/-- The clause keeps a row as the filter admits its record. -/
theorem keeps_eq (status : Option StatusFilter) {row : SQLiteRow} {task : TaskRecord}
    (hstatus : row.status = task.status.value) :
    keeps (normalizeStatus status) row = (TaskQuery.matching status).admits task := by
  unfold keeps TaskQuery.admits
  rw [hstatus]
  rfl

theorem stored {codec : Codec TaskRecord} {table : SQLiteTaskStore} (hkept : Kept codec table)
    {status : Option StatusFilter} {tasks : List TaskRecord}
    (hlist : (operations codec).list (.matching status) table = .ok tasks) :
    (operations codec).Stored table status tasks := by
  obtain ⟨rows, hrows, hlist⟩ := Except.ok_of_bind hlist
  rw [rows_eq (TaskQuery.asks_matching Sql.fits_zero status)] at hrows
  have hperm : rows.Perm (table.filter fun row => keeps (normalizeStatus status) row.2) := by
    rw [← Except.ok.inj hrows]
    exact List.perm_insertionSort _ _
  obtain ⟨items, hkeys, rfl, hmem⟩ :=
    items_of_mapM (fun row : SQLiteRow => codec.parseTask row.payload) hlist
  refine ⟨items, ?_, rfl, ?_⟩
  · rw [hkeys]
    exact (hperm.map _).nodup_iff.mpr ((List.filter_sublist.map _).nodup hkept.nodup)
  · intro taskId task
    have hget : (operations codec).get taskId table = get codec taskId table := rfl
    rw [hmem, hget, get_eq_some]
    constructor
    · rintro ⟨row, hrow, hparse⟩
      obtain ⟨hrow, hkeeps⟩ := List.mem_filter.mp (hperm.subset hrow)
      exact ⟨⟨row, Assoc.lookup_of_mem hkept.nodup hrow, hparse⟩,
        (keeps_eq status (hkept.status _ hrow task hparse)).symm.trans hkeeps⟩
    · rintro ⟨⟨row, hrow, hparse⟩, hadmits⟩
      have hmem := Assoc.mem_of_lookup hrow
      have hkeeps := (keeps_eq status (hkept.status _ hmem task hparse)).trans hadmits
      exact ⟨row, hperm.symm.subset (List.mem_filter.mpr ⟨hmem, hkeeps⟩), hparse⟩

end SQLiteTaskStore

namespace RedisTaskStore

/-- Data as `save` keeps them: the index is a set, and has the id of each record. -/
structure Kept (keyspace : String) (data : RedisData) : Prop where
  nodup : (data.smembers (indexKey keyspace)).Nodup
  indexed : ∀ taskId text, data.get (recordKey keyspace taskId) = some text →
    taskId ∈ data.smembers (indexKey keyspace)

variable {codec : Codec TaskRecord} {keyspace : String} {data : RedisData}

/-- The records under these ids are those that are found. -/
theorem items_of_getAll {taskIds : List TaskId} {records : List TaskRecord}
    (hread : getAll codec keyspace data taskIds = .ok records) :
    ∃ items : List (TaskId × TaskRecord), (Assoc.keys items).Sublist taskIds ∧
      items.map (·.2) = records ∧ ∀ taskId task, (taskId, task) ∈ items ↔
        taskId ∈ taskIds ∧ get codec keyspace taskId data = .ok (some task) := by
  induction taskIds generalizing records with
  | nil =>
      cases hread
      exact ⟨[], .slnil, rfl, by simp⟩
  | cons taskId rest ih =>
      obtain ⟨record, hrecord, hread⟩ := Except.ok_of_bind hread
      obtain ⟨others, hothers, hread⟩ := Except.ok_of_bind hread
      cases hread
      obtain ⟨items, hkeys, rfl, hmem⟩ := ih hothers
      cases record with
      | none =>
          refine ⟨items, hkeys.cons taskId, rfl, ?_⟩
          intro key task
          rw [hmem, List.mem_cons]
          constructor
          · exact fun h => ⟨.inr h.1, h.2⟩
          · rintro ⟨rfl | hrest, hget⟩
            · rw [hrecord] at hget
              cases hget
            · exact ⟨hrest, hget⟩
      | some found =>
          refine ⟨(taskId, found) :: items, hkeys.cons_cons taskId, rfl, ?_⟩
          intro key task
          simp only [List.mem_cons, Prod.mk.injEq, hmem]
          constructor
          · rintro (⟨rfl, rfl⟩ | h)
            · exact ⟨.inl rfl, hrecord⟩
            · exact ⟨.inr h.1, h.2⟩
          · rintro ⟨rfl | hrest, hget⟩
            · rw [hrecord] at hget
              cases hget
              exact .inl ⟨rfl, rfl⟩
            · exact .inr ⟨hrest, hget⟩

theorem stored (hkept : Kept keyspace data) {status : Option StatusFilter}
    {tasks : List TaskRecord}
    (hlist : (operations codec keyspace).list (.matching status) data = .ok tasks) :
    (operations codec keyspace).Stored data status tasks := by
  obtain ⟨records, hrecords, rfl⟩ := Except.ok_of_map hlist
  obtain ⟨items, hkeys, rfl, hmem⟩ := items_of_getAll hrecords
  have hperm := List.perm_insertionSort (· ≤ ·) (data.smembers (indexKey keyspace))
  apply TaskStore.Stored.of_items (hkeys.nodup (hperm.nodup_iff.mpr hkept.nodup))
  intro taskId task
  have hget : (operations codec keyspace).get taskId data = get codec keyspace taskId data := rfl
  rw [hmem, hget, hperm.mem_iff]
  constructor
  · exact And.right
  · intro hfound
    refine ⟨?_, hfound⟩
    cases htext : data.get (recordKey keyspace taskId) with
    | none =>
        rw [get, htext] at hfound
        cases hfound
    | some text => exact hkept.indexed taskId text htext

end RedisTaskStore

end Conductor
