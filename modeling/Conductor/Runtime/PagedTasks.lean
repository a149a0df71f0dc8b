/-
Paging through the task stores: what saves leave is kept as the lists need it,
and then the pages show each matching task once.
-/
import Conductor.Runtime.Interchange

namespace Conductor

variable {codec : Codec TaskRecord} {history : List TaskRecord}

theorem MemoryTaskStore.kept_of_saved {memory : MemoryTaskStore}
    (hrun : operations.saveAll history .empty = .ok memory) :
    (Assoc.keys memory.tasks).Nodup := by
  rw [empty, saveAll_eq] at hrun
  cases hrun
  exact (FiledTasks.nil.savedItems history).nodup

theorem SQLiteTaskStore.kept_of_saved {table : SQLiteTaskStore}
    (hrun : (operations codec).saveAll history [] = .ok table)
    (hhistory : ∀ task ∈ history, codec.RoundTrips (·.sortedKeys) task) : Kept codec table := by
  have hrun' : (operations codec).saveAll history (Sql.tableOf (rowOf codec) []) = .ok table :=
    hrun
  rw [Sql.saveAll_tableOf (fun _ _ _ => save_ok) hrun', Sql.tableOf]
  constructor
  · have hkeys := (FiledTasks.nil.savedItems history).nodup
    rw [Assoc.keys, List.map_map]
    exact hkeys
  · intro item hitem task hparse
    obtain ⟨⟨taskId, saved⟩, hsaved, rfl⟩ := List.mem_map.mp hitem
    have hmem : saved ∈ history := (mem_savedItems hsaved).resolve_left List.not_mem_nil
    obtain ⟨text, htext, hread⟩ := (hhistory saved hmem).serialized
    have hpayload : (rowOf codec saved).payload = text := by
      rw [rowOf, htext]
      rfl
    rw [hpayload, hread] at hparse
    cases hparse
    rfl

theorem RedisTaskStore.kept_of_saved {keyspace : String} {data : RedisData}
    (hrun : (operations codec keyspace).saveAll history .empty = .ok data)
    (hhistory : ∀ task ∈ history, codec.RoundTrips (·.sortedKeys) task) : Kept keyspace data := by
  obtain ⟨data', hdata', hholds⟩ := saveAll_holds (Holds.empty codec keyspace) hhistory
  rw [hrun] at hdata'
  cases hdata'
  constructor
  · exact hholds.ids.nodup_iff.mpr hholds.nodup
  · intro taskId text htext
    have hfound := hholds.texts taskId
    rw [htext, Option.map_some] at hfound
    obtain ⟨task, htask, -⟩ := Option.map_eq_some_iff.mp hfound.symm
    exact hholds.ids.mem_iff.mpr (Assoc.mem_keys_of_mem (Assoc.mem_of_lookup htask))

/-- Paging loses and repeats nothing, for any content of the four stores, with
numbers that SQLite can be given; and what saves leave is kept as the lists need
it. -/
theorem task_stores_page_well (codec : Codec TaskRecord) (keyspace : String)
    (memory : MemoryTaskStore) (file : TaskFile) (table : SQLiteTaskStore) (data : RedisData) :
    PagesWell MemoryTaskStore.operations memory (fun _ => True)
        (Assoc.keys memory.tasks).Nodup ∧
      PagesWell (LocalTaskStore.operations codec) file (fun _ => True) codec.RefusesEmpty ∧
      PagesWell (SQLiteTaskStore.operations codec) table Sql.Fits
        (SQLiteTaskStore.Kept codec table) ∧
      PagesWell (RedisTaskStore.operations codec keyspace) data (fun _ => True)
        (RedisTaskStore.Kept keyspace data) ∧
      ∀ history : List TaskRecord, (∀ task ∈ history, codec.RoundTrips (·.sortedKeys) task) →
        (∀ memory, MemoryTaskStore.operations.saveAll history .empty = .ok memory →
          (Assoc.keys memory.tasks).Nodup) ∧
        (∀ table, (SQLiteTaskStore.operations codec).saveAll history [] = .ok table →
          SQLiteTaskStore.Kept codec table) ∧
        ∀ data, (RedisTaskStore.operations codec keyspace).saveAll history .empty = .ok data →
          RedisTaskStore.Kept keyspace data := by
  refine ⟨?_, ?_, ?_, ?_, ?_⟩
  · refine pagesWell_of_sliced trivial ?_ fun hkept _ _ => MemoryTaskStore.stored hkept
    exact sliced_of_filter (.ok _)
  · refine pagesWell_of_sliced trivial ?_ fun hkept _ _ => LocalTaskStore.stored hkept
    exact sliced_of_filter (LocalTaskStore.readAll codec file)
  · refine pagesWell_of_sliced Sql.fits_zero ?_ fun hkept _ _ => SQLiteTaskStore.stored hkept
    intro status
    refine .reads (Sql.select (SQLiteTaskStore.keeps (normalizeStatus status))
      (Sql.OrderedBy (·.createdAt)) table) (fun row => codec.parseTask row.2.payload)
      fun limit offset hasks => ?_
    exact bind_of_ok (SQLiteTaskStore.rows_eq hasks table) _
  · refine pagesWell_of_sliced trivial ?_ fun hkept _ _ => RedisTaskStore.stored hkept
    exact sliced_of_filter (RedisTaskStore.getAll codec keyspace data
      ((data.smembers (RedisTaskStore.indexKey keyspace)).insertionSort (· ≤ ·)))
  · intro history hhistory
    exact ⟨fun _ => MemoryTaskStore.kept_of_saved, fun _ hrun => SQLiteTaskStore.kept_of_saved hrun
      hhistory, fun _ hrun => RedisTaskStore.kept_of_saved hrun hhistory⟩

/-- Where the route answers, SQLite may be asked for more than it can be given. -/
theorem sqlite_page_raises :
    ¬ ∀ (codec : Codec TaskRecord) (table : SQLiteTaskStore) (request : TaskListing),
        request.refusal = none → ∀ answer,
        listTasks (SQLiteTaskStore.list codec · table) request = .ok answer →
        ∃ items, SQLiteTaskStore.list codec request.query table = .ok items ∧
          answer.items = items.map .fromTask := by
  intro hpages
  obtain ⟨items, hitems, -⟩ := hpages (TaskRecord.codec .strict fun _ => "t") []
    ⟨none, none, 2 ^ 63, by simp, by decide⟩ rfl ⟨[], none, 2 ^ 63, 0⟩ rfl
  cases hitems

end Conductor
