/-
The two SQL stores list tasks in the order of time, one by the texts of the
times and the other by the times.
-/
import Conductor.Runtime.ListedTasks

namespace Conductor

section

variable {J : Type} (jsonb : Jsonb J) (codec : Codec TaskRecord)

/-- The task as it is read back from the text that was written for it. -/
def Codec.readBack (task : TaskRecord) : Except PyExc TaskRecord := do
  let text ← codec.serializeTask task
  codec.parseTask text

/-- The task as it is read back from a column of type `JSONB`. -/
def Jsonb.readBack (task : TaskRecord) : Except PyExc TaskRecord := do
  let text ← codec.serializeTask task
  let payload ← jsonb.parse text
  codec.parseTask (jsonb.text payload)

/-- The column gives back the document that was written for the task, up to the
order of its keys. -/
def Jsonb.Restores (task : TaskRecord) : Prop :=
  (jsonb.readBack codec task).map (·.sortedKeys) = (codec.readBack task).map (·.sortedKeys)

/-- The tasks that the query asks for, in the order of their times and then of
their ids. -/
def TaskQuery.inTimeOrder (q : TaskQuery) (tasks : List TaskRecord) : List TaskRecord :=
  page q.offset q.limit ((tasks.filter q.admits).insertionSort CreatedBefore)

/-- The row of a task whose payload was written. -/
def SQLiteTaskStore.rowOf (task : TaskRecord) : SQLiteRow where
  status := task.status.value
  workflowId := task.workflowId
  createdAt := Datetime.utcIsoformat task.createdAt
  updatedAt := Datetime.utcIsoformat task.updatedAt
  payload := (codec.serializeTask task).toOption.getD ""

/-- The value of a payload in the database. -/
def Jsonb.stored (task : TaskRecord) : Except PyExc J := codec.serializeTask task >>= jsonb.parse

/-- The row of a task whose payload was written. -/
def PostgresTaskStore.rowOf (unwritten : J) (task : TaskRecord) : PostgresRow J where
  status := task.status.value
  workflowId := task.workflowId
  createdAt := task.createdAt
  updatedAt := task.updatedAt
  payload := (jsonb.stored codec task).toOption.getD unwritten

end

theorem mapM_congr {A B : Type} {f g : A → Except PyExc B} {values : List A}
    (hsame : ∀ value ∈ values, f value = g value) : values.mapM f = values.mapM g := by
  induction values with
  | nil => rfl
  | cons value rest ih =>
      rw [List.forall_mem_cons] at hsame
      rw [List.mapM_cons, List.mapM_cons, hsame.1, ih hsame.2]

theorem TaskQuery.mem_inTimeOrder {q : TaskQuery} {tasks : List TaskRecord} {task : TaskRecord}
    (hmem : task ∈ q.inTimeOrder tasks) : task ∈ tasks := by
  have hsorted := (List.mem_insertionSort CreatedBefore).mp ((page_sublist _ _ _).subset hmem)
  exact List.mem_of_mem_filter hsorted

namespace SQLiteTaskStore

variable {codec : Codec TaskRecord} {history : List TaskRecord} {table : SQLiteTaskStore}

theorem save_ok {task : TaskRecord} {table table' : SQLiteTaskStore}
    (hsave : save codec task table = .ok table') :
    table' = Assoc.insert task.taskId (rowOf codec task) table := by
  unfold save at hsave
  unfold rowOf
  cases htext : codec.serializeTask task with
  | error e =>
      rw [htext] at hsave
      cases hsave
  | ok text =>
      rw [htext] at hsave
      exact (Except.ok.inj hsave).symm

theorem save_of_text {task : TaskRecord} {text : String}
    (htext : codec.serializeTask task = .ok text) (table : SQLiteTaskStore) :
    ∃ table', save codec task table = .ok table' := by
  unfold save
  rw [htext]
  exact ⟨_, rfl⟩

/-- The rows are those of the tasks, in the order of time. -/
theorem select_saved (hrun : (operations codec).saveAll history [] = .ok table)
    (htimes : ∀ task ∈ history, task.createdAt < endOfTime) (q : TaskQuery) :
    Sql.select (keeps (normalizeStatus q.status)) (Sql.OrderedBy (·.createdAt)) table =
      (((savedTasks history).filter q.admits).insertionSort CreatedBefore).map fun task =>
        (task.taskId, rowOf codec task) := by
  have hrun' : (operations codec).saveAll history (Sql.tableOf (rowOf codec) []) = .ok table :=
    hrun
  rw [Sql.saveAll_tableOf (fun _ _ _ => save_ok) hrun', savedItems_eq]
  apply Sql.select_tableOf
  · intro task
    unfold keeps TaskQuery.admits
    rfl
  · intro a ha b hb
    have hearlier := htimes a (mem_of_mem_savedTasks ha)
    have hlater := htimes b (mem_of_mem_savedTasks hb)
    change _ ↔ Datetime.utcIsoformat a.createdAt < Datetime.utcIsoformat b.createdAt ∨
      Datetime.utcIsoformat a.createdAt = Datetime.utcIsoformat b.createdAt ∧ a.taskId ≤ b.taskId
    rw [Datetime.utcIsoformat_lt_iff hearlier hlater, Datetime.utcIsoformat_inj hearlier hlater]
    rfl

theorem list_saved (hrun : (operations codec).saveAll history [] = .ok table)
    (htimes : ∀ task ∈ history, task.createdAt < endOfTime) {q : TaskQuery}
    (hasks : q.Asks Sql.Fits) :
    list codec q table = (q.inTimeOrder (savedTasks history)).mapM codec.readBack := by
  rw [list, bind_of_ok (rows_eq hasks table), select_saved hrun htimes, ← map_page,
    List.mapM_map]
  apply mapM_congr
  intro task htask
  obtain ⟨before, after, hsave⟩ :=
    TaskStore.saveAll_saved hrun (mem_of_mem_savedTasks (TaskQuery.mem_inTimeOrder htask))
  change save codec task before = .ok after at hsave
  unfold save at hsave
  change codec.parseTask ((codec.serializeTask task).toOption.getD "") = _
  unfold Codec.readBack
  cases htext : codec.serializeTask task with
  | error e =>
      rw [htext] at hsave
      cases hsave
  | ok text => rfl

end SQLiteTaskStore

namespace PostgresTaskStore

variable {J : Type} {jsonb : Jsonb J} {codec : Codec TaskRecord} {history : List TaskRecord}
variable {table : PostgresTaskStore J}

/-- A task that was saved has a payload in the database. -/
theorem save_ok {task : TaskRecord} {table table' : PostgresTaskStore J}
    (hsave : save jsonb codec task table = .ok table') :
    ∃ payload, jsonb.stored codec task = .ok payload ∧
      ∀ unwritten, table' =
        Assoc.insert task.taskId (rowOf jsonb codec unwritten task) table := by
  unfold save at hsave
  unfold rowOf Jsonb.stored
  cases htext : codec.serializeTask task with
  | error e =>
      rw [htext] at hsave
      cases hsave
  | ok text =>
      rw [bind_of_ok htext] at hsave
      cases hpayload : jsonb.parse text with
      | error e =>
          rw [hpayload] at hsave
          cases hsave
      | ok payload =>
          rw [hpayload] at hsave
          refine ⟨payload, hpayload, fun unwritten => ?_⟩
          rw [bind_of_ok rfl, hpayload]
          exact (Except.ok.inj hsave).symm

theorem save_of_text {task : TaskRecord} {text : String} {payload : J}
    (htext : codec.serializeTask task = .ok text) (hpayload : jsonb.parse text = .ok payload)
    (table : PostgresTaskStore J) : ∃ table', save jsonb codec task table = .ok table' := by
  unfold save
  rw [bind_of_ok htext, bind_of_ok hpayload]
  exact ⟨_, rfl⟩

theorem select_saved (unwritten : J)
    (hrun : (operations jsonb codec).saveAll history [] = .ok table) (q : TaskQuery) :
    Sql.select (keeps (normalizeStatus q.status)) (Sql.OrderedBy (·.createdAt)) table =
      (((savedTasks history).filter q.admits).insertionSort CreatedBefore).map fun task =>
        (task.taskId, rowOf jsonb codec unwritten task) := by
  have hrun' : (operations jsonb codec).saveAll history
      (Sql.tableOf (rowOf jsonb codec unwritten) []) = .ok table := hrun
  have hsave : ∀ task table table', (operations jsonb codec).save task table = .ok table' →
      table' = Assoc.insert task.taskId (rowOf jsonb codec unwritten task) table := by
    intro task table table' htask
    obtain ⟨_, _, hinsert⟩ := save_ok htask
    exact hinsert unwritten
  rw [Sql.saveAll_tableOf hsave hrun', savedItems_eq]
  apply Sql.select_tableOf
  · intro task
    unfold keeps TaskQuery.admits
    rfl
  · intro a _ b _
    exact Iff.rfl

theorem rowCount_eq (clause : String) {n : Int} (hn : 0 ≤ n) (hfits : Sql.Fits n) :
    rowCount clause n = .ok n.toNat := by
  have hlt : n < Sql.bigintLimit := hfits
  rw [rowCount, if_neg (Int.not_lt.mpr hn), if_pos hlt]

theorem list_saved (hrun : (operations jsonb codec).saveAll history [] = .ok table)
    {q : TaskQuery} (hasks : q.Asks Sql.Fits) :
    list jsonb codec q table =
      (q.inTimeOrder (savedTasks history)).mapM (jsonb.readBack codec) := by
  have hrows : rows q table = .ok (page q.offset q.limit
      (Sql.select (keeps (normalizeStatus q.status)) (Sql.OrderedBy (·.createdAt)) table)) := by
    obtain ⟨limit, offset, status⟩ := q
    obtain ⟨⟨hoffset, hfits⟩, hlimit⟩ := hasks
    have hcount : rowCount "OFFSET" offset = .ok offset.toNat := rowCount_eq _ hoffset hfits
    cases limit with
    | none =>
        rw [rows, rowLimit, bind_of_ok rfl, bind_of_ok hcount, page, sliceFrom, if_pos hoffset]
        rfl
    | some n =>
        obtain ⟨hn, hnfits⟩ := hlimit n rfl
        have hbound : rowLimit (some n) = .ok (some n.toNat) := by
          rw [rowLimit, rowCount_eq _ hn hnfits]
          rfl
        rw [rows, bind_of_ok hbound, bind_of_ok hcount, page, sliceFrom, sliceTo, if_pos hoffset,
          if_pos hn]
        rfl
  rw [list, bind_of_ok hrows]
  cases history with
  | nil =>
      cases hrun
      have hnone : q.inTimeOrder [] = [] := page_nil _ _
      have hnoRows := page_nil (α := TaskId × PostgresRow J) q.offset q.limit
      rw [savedTasks, savedItems, List.foldl_nil, List.map_nil, hnone]
      exact congrArg _ hnoRows
  | cons first rest =>
      -- the payload of a saved task stands in for those that could not be written
      obtain ⟨before, after, hfirst⟩ := TaskStore.saveAll_saved hrun List.mem_cons_self
      obtain ⟨unwritten, _, _⟩ := save_ok hfirst
      rw [select_saved unwritten hrun, ← map_page, List.mapM_map]
      apply mapM_congr
      intro task htask
      obtain ⟨before, after, hsave⟩ :=
        TaskStore.saveAll_saved hrun (mem_of_mem_savedTasks (TaskQuery.mem_inTimeOrder htask))
      obtain ⟨payload, hpayload, _⟩ := save_ok hsave
      have hread : jsonb.readBack codec task = codec.parseTask (jsonb.text payload) := by
        unfold Jsonb.stored at hpayload
        unfold Jsonb.readBack
        cases htext : codec.serializeTask task with
        | error e =>
            rw [htext] at hpayload
            cases hpayload
        | ok text =>
            rw [bind_of_ok htext] at hpayload
            rw [bind_of_ok rfl, bind_of_ok hpayload]
      rw [hread]
      change codec.parseTask (jsonb.text ((jsonb.stored codec task).toOption.getD unwritten)) = _
      rw [hpayload]
      rfl

end PostgresTaskStore

theorem TaskQuery.inTimeOrder_pairwise (q : TaskQuery) (tasks : List TaskRecord) :
    (q.inTimeOrder tasks).Pairwise CreatedBefore := by
  have htotal : Std.Total CreatedBefore := by
    refine ⟨fun a b => ?_⟩
    rcases Nat.lt_trichotomy a.createdAt b.createdAt with hlt | heq | hgt
    · exact .inl (.inl hlt)
    · rcases le_total a.taskId b.taskId with hle | hge
      · exact .inl (.inr ⟨heq, hle⟩)
      · exact .inr (.inr ⟨heq.symm, hge⟩)
    · exact .inr (.inl hgt)
  have htrans : IsTrans TaskRecord CreatedBefore := by
    refine ⟨fun a b c hab hbc => ?_⟩
    rcases hab with hab | ⟨hab, hid⟩
    · rcases hbc with hbc | ⟨hbc, _⟩
      · exact .inl (Nat.lt_trans hab hbc)
      · exact .inl (hbc ▸ hab)
    · rcases hbc with hbc | ⟨hbc, hid'⟩
      · exact .inl (hab ▸ hbc)
      · exact .inr ⟨hab.trans hbc, hid.trans hid'⟩
  have hsorted := List.pairwise_insertionSort CreatedBefore (tasks.filter q.admits)
  exact hsorted.sublist (page_sublist _ _ _)

theorem mapM_map_congr {A B C : Type} {f g : A → Except PyExc B} (same : B → C) {values : List A}
    (hsame : ∀ value ∈ values, (f value).map same = (g value).map same) :
    (values.mapM f).map (·.map same) = (values.mapM g).map (·.map same) := by
  have hread (read : A → Except PyExc B) : (values.mapM read).map (·.map same) =
      values.mapM fun value => (read value).map same := by
    induction values with
    | nil => rfl
    | cons value rest ih =>
        rw [List.forall_mem_cons] at hsame
        rw [List.mapM_cons, List.mapM_cons, ← ih hsame.2]
        cases read value with
        | error e => rfl
        | ok first => cases rest.mapM read <;> rfl
  rw [hread f, hread g]
  exact mapM_congr hsame

/-- SQLite lists the tasks that a history left in the order of their times and
then of their ids.  Postgres lists the same tasks, in the same order. -/
theorem sqlite_lists_in_time_order {J : Type} (codec : Codec TaskRecord) (jsonb : Jsonb J)
    (history : List TaskRecord) (table : SQLiteTaskStore) (table' : PostgresTaskStore J)
    (hsqlite : (SQLiteTaskStore.operations codec).saveAll history [] = .ok table)
    (hpostgres : (PostgresTaskStore.operations jsonb codec).saveAll history [] = .ok table')
    (htimes : ∀ task ∈ history, task.createdAt < endOfTime)
    (hjsonb : ∀ task ∈ history, jsonb.Restores codec task)
    (q : TaskQuery) (hasks : q.Asks Sql.Fits) :
    (q.inTimeOrder (savedTasks history)).Pairwise CreatedBefore ∧
      SQLiteTaskStore.list codec q table =
        (q.inTimeOrder (savedTasks history)).mapM codec.readBack ∧
      PostgresTaskStore.list jsonb codec q table' =
        (q.inTimeOrder (savedTasks history)).mapM (jsonb.readBack codec) ∧
      (PostgresTaskStore.list jsonb codec q table').map (·.map (·.sortedKeys)) =
        (SQLiteTaskStore.list codec q table).map (·.map (·.sortedKeys)) := by
  have hlist := SQLiteTaskStore.list_saved hsqlite htimes hasks
  have hlist' := PostgresTaskStore.list_saved hpostgres hasks
  refine ⟨q.inTimeOrder_pairwise _, hlist, hlist', ?_⟩
  rw [hlist, hlist']
  apply mapM_map_congr
  intro task htask
  exact hjsonb task (mem_of_mem_savedTasks (TaskQuery.mem_inTimeOrder htask))

/-- A task that was created at this time. -/
def taskCreatedAt (taskId : TaskId) (t : Time) : TaskRecord where
  taskId := taskId
  name := "echo"
  capability := "echo"
  input := []
  metadata := []
  status := .pending
  result := none
  attempt := 0
  maxRetries := 0
  workflowId := none
  archivedAt := none
  auditTrail := []
  createdAt := t
  updatedAt := t

theorem taskCreatedAt_serialisable (taskId : TaskId) (t : Time) :
    (taskCreatedAt taskId t).Serialisable where
  input := ⟨List.nodup_nil, trivial⟩
  metadata := ⟨List.nodup_nil, trivial⟩
  result := by
    intro result hresult
    cases hresult
  attempt := Json.lt_digitLimit (show 0 < 10 by decide)
  maxRetries := Json.lt_digitLimit (show 0 < 10 by decide)
  auditTrail := List.forall_mem_nil _

/-- A column that keeps its texts as they are. -/
def textColumn : Jsonb String := ⟨.ok, id⟩

theorem textColumn_restores (codec : Codec TaskRecord) (task : TaskRecord) :
    textColumn.Restores codec task := rfl

/-- The second task is created on a full second, a microsecond before the first. -/
def twoTasks : List TaskRecord := [taskCreatedAt "a" 1000001, taskCreatedAt "b" 1000000]

theorem twoTasks_in_time_order :
    ∃ table table', (SQLiteTaskStore.operations (TaskRecord.codec .strict fun _ => "t")).saveAll
        twoTasks [] = .ok table ∧
      (PostgresTaskStore.list textColumn (TaskRecord.codec .strict fun _ => "t") (.matching none)
          table').map (·.map (·.sortedKeys)) =
        (SQLiteTaskStore.list (TaskRecord.codec .strict fun _ => "t") (.matching none) table).map
          (·.map (·.sortedKeys)) ∧
      (TaskQuery.inTimeOrder (.matching none) (savedTasks twoTasks)).map (·.taskId) =
        ["b", "a"] := by
  have hsaved : ∀ task ∈ twoTasks,
      ∃ text, (TaskRecord.codec .strict fun _ => "t").serializeTask task = .ok text := by
    intro task htask
    have hserialisable : task.Serialisable := by
      simp only [twoTasks, List.mem_cons, List.not_mem_nil, or_false] at htask
      rcases htask with rfl | rfl <;> exact taskCreatedAt_serialisable _ _
    obtain ⟨text, htext, _⟩ :=
      (TaskRecord.roundTrips Pydantic.strict_lawful (fun _ => "t") hserialisable).serialized
    exact ⟨text, htext⟩
  have hsqlite : ∃ table, (SQLiteTaskStore.operations
      (TaskRecord.codec .strict fun _ => "t")).saveAll twoTasks [] = .ok table := by
    apply TaskStore.saveAll_ok
    intro task htask table
    obtain ⟨text, htext⟩ := hsaved task htask
    exact SQLiteTaskStore.save_of_text htext table
  have hpostgres : ∃ table, (PostgresTaskStore.operations textColumn
      (TaskRecord.codec .strict fun _ => "t")).saveAll twoTasks [] = .ok table := by
    apply TaskStore.saveAll_ok
    intro task htask table
    obtain ⟨text, htext⟩ := hsaved task htask
    exact PostgresTaskStore.save_of_text htext rfl table
  obtain ⟨table, htable⟩ := hsqlite
  obtain ⟨table', htable'⟩ := hpostgres
  have htimes : ∀ task ∈ twoTasks, task.createdAt < endOfTime := by decide
  obtain ⟨_, _, _, hagree⟩ := sqlite_lists_in_time_order _ textColumn twoTasks table table' htable
    htable' htimes (fun task _ => textColumn_restores _ task) (.matching none)
    (TaskQuery.asks_matching Sql.fits_zero none)
  exact ⟨table, table', htable, hagree, by decide⟩

/-- A page that begins behind the integers of 64 bits. -/
def farPage : TaskQuery := ⟨none, 2 ^ 63, none⟩

/-- Behind the integers of 64 bits no page is listed, not even of an empty table. -/
theorem sqlite_lists_no_far_page :
    ¬ ∀ (codec : Codec TaskRecord) (history : List TaskRecord) (table : SQLiteTaskStore)
        (q : TaskQuery), (SQLiteTaskStore.operations codec).saveAll history [] = .ok table →
        (∀ task ∈ history, task.createdAt < endOfTime) → 0 ≤ q.offset →
        (∀ n ∈ q.limit, (0 : Int) ≤ n) →
        SQLiteTaskStore.list codec q table =
          (q.inTimeOrder (savedTasks history)).mapM codec.readBack := by
  intro hlists
  have hlist := hlists (TaskRecord.codec .strict fun _ => "t") [] [] farPage rfl
    (List.forall_mem_nil _) (by decide) (by simp [farPage])
  have hraises : (SQLiteTaskStore.list (TaskRecord.codec .strict fun _ => "t") farPage
      []).toOption = none := by decide
  rw [hlist] at hraises
  cases hraises

end Conductor
