/-
What the file of the store stands for: a plain map from ids to tasks.  Calls on a
file that can be read are answered as they are on the map, and a save leaves a
file that can be read.
-/
import Conductor.Runtime.Interchange
import Conductor.Runtime.JsonForm

namespace Conductor

open Json

theorem TaskRecord.sortedKeys_sortedKeys (task : TaskRecord) :
    task.sortedKeys.sortedKeys = task.sortedKeys := by
  have hdict (items : Dict) : sortedDict (sortedDict items) = sortedDict items := by
    have hsorted := sorted_sorted (.dict items)
    rw [sorted_dict, sorted_dict] at hsorted
    exact Value.dict.inj hsorted
  have hresult : TaskResult.sortedKeys ∘ TaskResult.sortedKeys = TaskResult.sortedKeys := by
    funext r
    simp only [Function.comp_apply, TaskResult.sortedKeys, sorted_sorted, hdict]
  have hentry : AuditEntry.sortedKeys ∘ AuditEntry.sortedKeys = AuditEntry.sortedKeys := by
    funext entry
    simp only [Function.comp_apply, AuditEntry.sortedKeys, hdict]
  simp only [sortedKeys, hdict, Option.map_map, List.map_map, hresult, hentry]

namespace LocalTaskStore

variable {codec : Codec TaskRecord} {file : TaskFile} {items : List (TaskId × TaskRecord)}

/-- The value is read as this task, in whichever order its keys come. -/
structure Reads (codec : Codec TaskRecord) (task : TaskRecord) (raw : Value) : Prop where
  faithful : Faithful raw
  truthy : raw.truthy = true
  validate : (codec.validate raw).map (·.sortedKeys) = .ok task.sortedKeys
  sorted : (codec.validate (Json.sorted raw)).map (·.sortedKeys) = .ok task.sortedKeys

/-- The file is missing or blank, or it has a JSON object with a value for each of
these tasks under its id. -/
structure Valid (codec : Codec TaskRecord) (file : TaskFile)
    (items : List (TaskId × TaskRecord)) : Prop where
  nodup : (Assoc.keys items).Nodup
  payload : ∃ payload, readPayload file = .ok (.dict payload) ∧ (Assoc.keys payload).Nodup ∧
    ∀ taskId, Option.Rel (Reads codec) (items.lookup taskId) (payload.lookup taskId)

theorem valid_missing (codec : Codec TaskRecord) : Valid codec none [] :=
  ⟨List.nodup_nil, [], rfl, List.nodup_nil, fun _ => .none⟩

theorem truthy_sortedDict {items : Dict} (hitems : items ≠ []) :
    (Value.dict (sortedDict items)).truthy = true := by
  have hlength : (sortedDict items).length = items.length := by
    rw [(sortedDict_perm items).length_eq, List.length_map]
  cases hsorted : sortedDict items with
  | nil =>
      rw [hsorted] at hlength
      exact absurd (List.length_eq_zero_iff.mp hlength.symm) hitems
  | cons _ _ => rfl

/-- What the store writes for a task is read as this task. -/
theorem reads_of_stands {task : TaskRecord} {raw : Value}
    (hstands : codec.Stands (·.sortedKeys) task raw) : Reads codec task raw := by
  obtain ⟨items, -, hitems, -, rfl⟩ := hstands.dump
  have hvalidate : (codec.validate (.dict (sortedDict items))).map (·.sortedKeys) =
      .ok task.sortedKeys := by
    rw [hstands.validate, Except.map, TaskRecord.sortedKeys_sortedKeys]
  refine ⟨hstands.faithful, truthy_sortedDict hitems, hvalidate, ?_⟩
  rw [← sorted_dict, sorted_sorted]
  exact hvalidate

theorem truthy_sorted {raw : Value} (htruthy : raw.truthy = true) :
    (sorted raw).truthy = true := by
  cases raw with
  | dict items =>
      apply truthy_sortedDict
      rintro rfl
      cases htruthy
  | list items =>
      cases items with
      | nil => cases htruthy
      | cons value rest => rfl
  | _ => exact htruthy

theorem Reads.sortedValue {task : TaskRecord} {raw : Value} (hreads : Reads codec task raw) :
    Reads codec task (Json.sorted raw) := by
  refine ⟨hreads.faithful.sorted, truthy_sorted hreads.truthy, hreads.sorted, ?_⟩
  rw [sorted_sorted]
  exact hreads.sorted

/-- A task is found as it is in the map. -/
theorem Valid.get (hvalid : Valid codec file items) (taskId : TaskId) :
    ∃ found, LocalTaskStore.get codec taskId file = .ok found ∧
      found.map (·.sortedKeys) = (MemoryTaskStore.get ⟨items⟩ taskId).map (·.sortedKeys) := by
  obtain ⟨payload, hread, -, hitems⟩ := hvalid.payload
  have hget : LocalTaskStore.get codec taskId file = validated codec (payload.lookup taskId) := by
    rw [LocalTaskStore.get, bind_of_ok hread]
    rfl
  rw [hget, MemoryTaskStore.get, MemoryTaskStore.getItem_eq]
  have hitem := hitems taskId
  generalize items.lookup taskId = saved, payload.lookup taskId = raw at hitem
  cases hitem with
  | none => exact ⟨none, rfl, rfl⟩
  | some hreads =>
      obtain ⟨found, hfound, hsame⟩ := Except.ok_of_map hreads.validate
      refine ⟨some found, ?_, congrArg some hsame⟩
      rw [validated, if_pos hreads.truthy, hfound]
      rfl

/-- Two lists of items with the same keys in order are related item by item. -/
theorem forall₂_of_lookup {V W : Type} {R : V → W → Prop} {items : List (String × V)}
    {entries : List (String × W)} (hnodup : (Assoc.keys items).Nodup)
    (hkeys : Assoc.keys items = Assoc.keys entries)
    (hlookup : ∀ key, Option.Rel R (items.lookup key) (entries.lookup key)) :
    List.Forall₂ (fun item entry => R item.2 entry.2) items entries := by
  induction items generalizing entries with
  | nil =>
      rw [Assoc.keys_nil] at hkeys
      rw [List.map_eq_nil_iff.mp hkeys.symm]
      exact .nil
  | cons item rest ih =>
      cases entries with
      | nil => cases hkeys
      | cons entry restEntries =>
          rw [Assoc.keys_cons, List.nodup_cons] at hnodup
          rw [Assoc.keys_cons, Assoc.keys_cons, List.cons.injEq] at hkeys
          obtain ⟨key, value⟩ := item
          obtain ⟨key', value'⟩ := entry
          obtain ⟨hkey, hrest⟩ := hkeys
          dsimp only at hkey hnodup
          subst hkey
          refine .cons ?_ (ih hnodup.2 hrest ?_)
          · have hhead := hlookup key
            rw [List.lookup_cons_self, List.lookup_cons_self] at hhead
            cases hhead
            assumption
          · intro other
            by_cases hother : other = key
            · have hnone : rest.lookup other = none := by
                rw [Assoc.lookup_eq_none_iff, hother]
                exact hnodup.1
              have hnone' : restEntries.lookup other = none := by
                rw [Assoc.lookup_eq_none_iff, ← hrest, hother]
                exact hnodup.1
              rw [hnone, hnone']
              exact .none
            · have htail := hlookup other
              rw [Assoc.lookup_cons_of_ne hother, Assoc.lookup_cons_of_ne hother] at htail
              exact htail

theorem mem_keys_of_rel {V W : Type} {R : V → W → Prop} {items : List (String × V)}
    {entries : List (String × W)}
    (hlookup : ∀ key, Option.Rel R (items.lookup key) (entries.lookup key)) (key : String) :
    key ∈ Assoc.keys items ↔ key ∈ Assoc.keys entries := by
  rw [← not_iff_not, ← Assoc.lookup_eq_none_iff, ← Assoc.lookup_eq_none_iff]
  have hkey := hlookup key
  generalize items.lookup key = found, entries.lookup key = found' at hkey
  cases hkey with
  | none => simp
  | some _ => simp

/-- The items of the map and those of the file, both in the order of their keys. -/
theorem Valid.byKey {payload : Dict} (hvalid : Valid codec file items)
    (hnodup : (Assoc.keys payload).Nodup)
    (hitems : ∀ taskId, Option.Rel (Reads codec) (items.lookup taskId) (payload.lookup taskId)) :
    List.Forall₂ (fun item entry => Reads codec item.2 entry.2) (byKey items)
      (sortedPayload payload) := by
  have hperm : (sortedPayload payload).Perm payload := List.perm_insertionSort _ _
  have hkeys : (Assoc.keys (Conductor.byKey items)).Perm (Assoc.keys (sortedPayload payload)) := by
    refine ((byKey_perm items).map _).trans (List.Perm.trans ?_ (hperm.map _).symm)
    exact (List.perm_ext_iff_of_nodup hvalid.nodup hnodup).mpr (mem_keys_of_rel hitems)
  apply forall₂_of_lookup (nodup_byKey hvalid.nodup)
  · apply hkeys.eq_of_pairwise fun _ _ _ _ => le_antisymm
    · exact List.pairwise_map.mpr (byKey_pairwise items)
    · exact List.pairwise_map.mpr (List.pairwise_insertionSort _ _)
  · intro key
    rw [lookup_byKey hvalid.nodup, Assoc.lookup_perm hperm ((hperm.map _).nodup_iff.mpr hnodup)]
    exact hitems key

theorem validate_of_reads {records : List (TaskId × TaskRecord)} {payload : Dict}
    (hitems : List.Forall₂ (fun item entry => Reads codec item.2 entry.2) records payload) :
    ∃ tasks, payload.mapM (fun entry => codec.validate entry.2) = .ok tasks ∧
      tasks.map (·.sortedKeys) = (records.map (·.2)).map (·.sortedKeys) := by
  induction hitems with
  | nil => exact ⟨[], rfl, rfl⟩
  | cons hitem _ ih =>
      obtain ⟨tasks, htasks, hsame⟩ := ih
      obtain ⟨task, htask, hsameTask⟩ := Except.ok_of_map hitem.validate
      refine ⟨task :: tasks, ?_, ?_⟩
      · rw [List.mapM_cons, htask, htasks]
        rfl
      · rw [List.map_cons, List.map_cons, List.map_cons, hsameTask, hsame]

/-- The tasks are listed as they are from the map. -/
theorem Valid.list (hvalid : Valid codec file items) (q : TaskQuery) :
    ∃ found, LocalTaskStore.list codec q file = .ok found ∧
      found.map (·.sortedKeys) = (MemoryTaskStore.list q ⟨items⟩).map (·.sortedKeys) := by
  obtain ⟨payload, hread, hnodup, hitems⟩ := hvalid.payload
  obtain ⟨tasks, htasks, hsame⟩ := validate_of_reads (hvalid.byKey hnodup hitems)
  refine ⟨q.filterRecords tasks, ?_, ?_⟩
  · rw [LocalTaskStore.list, readAll, bind_of_ok hread]
    change ((sortedPayload payload).mapM fun entry => codec.validate entry.2).map _ = _
    rw [htasks]
    rfl
  · have hget : (fun taskId => MemoryTaskStore.get ⟨items⟩ taskId) =
        fun taskId => items.lookup taskId := by
      funext taskId
      exact MemoryTaskStore.getItem_eq taskId _
    rw [← filterRecords_sortedKeys, hsame, filterRecords_sortedKeys, MemoryTaskStore.list]
    change _ = (q.filterRecords (List.filterMap (fun taskId =>
      MemoryTaskStore.get ⟨items⟩ taskId) _)).map _
    rw [hget, filterMap_lookup hvalid.nodup]

theorem refusal_of_payloadText {payload : Dict} {text : String}
    (htext : payloadText payload = .ok text) : refusal (.dict payload) = none := by
  obtain ⟨written, hwritten, -⟩ := Except.ok_of_map htext
  exact refusal_of_dumps hwritten

theorem refusal_of_insert {key : String} {value : Value} {payload : Dict}
    (hwritten : refusal (.dict (Assoc.insert key value payload)) = none) :
    refusal value = none := by
  rw [refusal, refusalItems_eq_none] at hwritten
  apply hwritten (key, value)
  apply Assoc.mem_of_lookup
  rw [Assoc.lookup_insert, if_pos rfl]

theorem nodup_keys_sortedDict {items : Dict} (hnodup : (Assoc.keys items).Nodup) :
    (Assoc.keys (sortedDict items)).Nodup := by
  have hkeys : (Assoc.keys (sortedDict items)).Perm (Assoc.keys items) := by
    have hperm := (sortedDict_perm items).map (·.1)
    rw [List.map_map] at hperm
    exact hperm
  exact hkeys.nodup_iff.mpr hnodup

theorem faithful_of_lookup {payload : Dict} (hnodup : (Assoc.keys payload).Nodup)
    (hitems : ∀ taskId, Option.Rel (Reads codec) (items.lookup taskId) (payload.lookup taskId)) :
    Faithful (.dict payload) := by
  rw [Faithful, faithfulItems_iff]
  refine ⟨hnodup, ?_⟩
  intro entry hentry
  have hitem := hitems entry.1
  rw [Assoc.lookup_of_mem hnodup hentry] at hitem
  generalize items.lookup entry.1 = saved at hitem
  cases hitem with
  | some hreads => exact hreads.faithful

/-- A save that is done is one in the map, of the task as it stands in JSON. -/
theorem Valid.saved {p : Pydantic} {uuid4 : Value → TaskId} (hp : p.Lawful) {task : TaskRecord}
    (hvalid : Valid (TaskRecord.codec p uuid4) file items) (htask : task.Ordinary p)
    {file' : TaskFile}
    (hsave : LocalTaskStore.save (TaskRecord.codec p uuid4) task file = .ok file') :
    ∃ form, task.jsonForm p = .ok form ∧
      Valid (TaskRecord.codec p uuid4) file' (MemoryTaskStore.save ⟨items⟩ form).tasks := by
  obtain ⟨text, htext, rfl⟩ := Except.ok_of_map hsave
  obtain ⟨payload, hread, hnodup, hitems⟩ := hvalid.payload
  rw [savedText, bind_of_ok hread] at htext
  obtain ⟨raw, hraw, hwrite⟩ := Except.ok_of_bind htext
  have hdump : task.modelDump p = .ok raw := hraw
  rw [TaskRecord.modelDump_jsonForm] at hdump
  obtain ⟨form, hform, hdumped⟩ := Except.ok_of_map hdump
  have hinsert : payloadText (Assoc.insert task.taskId (.dict raw) payload) = .ok text := by
    rw [← Dict.insert_eq]
    exact hwrite
  -- what has been written is something that JSON carries
  have hwritten := refusal_of_insert (refusal_of_payloadText hinsert)
  rw [← hdumped] at hwritten
  have hserialisable := TaskRecord.serialisable_of_jsonForm htask hform hwritten
  obtain ⟨value, hstands⟩ := TaskRecord.roundTrips hp uuid4 hserialisable
  obtain ⟨dumped, hformDump, -, hfaithful, rfl⟩ := hstands.dump
  have hsameDump : task.modelDump p = form.modelDump p :=
    TaskRecord.modelDump_form hform hserialisable
  obtain rfl : raw = dumped := by
    have hformDump : form.modelDump p = .ok dumped := hformDump
    rw [← hsameDump] at hformDump
    exact Except.ok.inj (hraw.symm.trans hformDump)
  obtain ⟨text', htext', hback⟩ :=
    payloadText_ok (faithful_insert (faithful_of_lookup hnodup hitems) hfaithful)
  obtain rfl : text = text' := Except.ok.inj (hinsert.symm.trans htext')
  refine ⟨form, hform, ?_⟩
  rw [MemoryTaskStore.save, MemoryTaskStore.saveItems_eq, TaskRecord.taskId_jsonForm hform]
  refine ⟨Assoc.nodup_insert hvalid.nodup, _, hback,
    nodup_keys_sortedDict (Assoc.nodup_insert hnodup), ?_⟩
  intro taskId
  rw [lookup_sortedDict (Assoc.nodup_insert hnodup), Assoc.lookup_insert, Assoc.lookup_insert]
  by_cases hsame : taskId = task.taskId
  · rw [if_pos hsame, if_pos hsame, Option.map_some, sorted_dict]
    exact .some (reads_of_stands hstands)
  · rw [if_neg hsame, if_neg hsame]
    have hitem := hitems taskId
    generalize items.lookup taskId = saved, payload.lookup taskId = old at hitem ⊢
    cases hitem with
    | none => exact .none
    | some hreads => exact .some hreads.sortedValue

/-- A task that has a place in JSON can be saved where there is no file. -/
theorem exists_saved {p : Pydantic} (hp : p.Lawful) (uuid4 : Value → TaskId)
    {task form : TaskRecord} (htask : task.Ordinary p) (hform : task.jsonForm p = .ok form)
    (hserialisable : form.Serialisable) :
    ∃ text, savedText (TaskRecord.codec p uuid4) task.taskId task none = .ok text ∧
      Valid (TaskRecord.codec p uuid4) (some text) (MemoryTaskStore.empty.save form).tasks := by
  have hdump : (TaskRecord.codec p uuid4).dump task = (TaskRecord.codec p uuid4).dump form :=
    TaskRecord.modelDump_form hform hserialisable
  obtain ⟨text, htext, -⟩ : ∃ text,
      savedText (TaskRecord.codec p uuid4) task.taskId form none = .ok text ∧
        FileHolds (TaskRecord.codec p uuid4) (·.sortedKeys) (some text)
          (byKey (Assoc.insert task.taskId form [])) :=
    FileHolds.missing.saved (TaskRecord.roundTrips hp uuid4 hserialisable)
  have hsaved : savedText (TaskRecord.codec p uuid4) task.taskId task none = .ok text := by
    rw [savedText, hdump]
    exact htext
  have hsave : LocalTaskStore.save (TaskRecord.codec p uuid4) task none = .ok (some text) := by
    rw [LocalTaskStore.save, hsaved]
    rfl
  obtain ⟨form', hform', hvalid⟩ := (valid_missing _).saved hp htask hsave
  obtain rfl : form = form' := Except.ok.inj (hform.symm.trans hform')
  exact ⟨text, hsaved, hvalid⟩

end LocalTaskStore

end Conductor
