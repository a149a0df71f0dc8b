/-
Pages of tasks: what is read page by page, and what the route for a list of
tasks answers.
-/
import Conductor.ControlPlane.Snapshot
import Conductor.Runtime.TaskStores

namespace Conductor

/-- The query of `GET /v1/tasks`, within the bounds that the route declares. -/
structure TaskListing where
  status : Option String
  limit : Option Int
  offset : Int
  limit_bounds : ∀ n ∈ limit, 1 ≤ n ∧ n ≤ 1000
  offset_nonneg : 0 ≤ offset

structure PageMeta where
  limit : Option Int
  offset : Int
  total : Nat
deriving DecidableEq, Repr

structure TaskPage where
  items : List ControlPlaneTaskV1
  pageMeta : PageMeta
deriving Repr

namespace TaskListing

variable (request : TaskListing)

def filter : Option StatusFilter := request.status.map .text

/-- The query for the same page of the store. -/
def query : TaskQuery := ⟨request.limit, request.offset, request.filter⟩

/-- The refusal of a text that is no status. -/
def refusal : Option ApiError :=
  match request.status with
  | none => none
  | some status =>
      match TaskStatus.ofValue status with
      | some _ => none
      | none => some (.http 400 "invalid_status" ("Unknown status: " ++ pyRepr status))

end TaskListing

/-- The place that an index of a slice stands for. -/
def sliceIndex {α : Type} (i : Int) (values : List α) : Nat :=
  if 0 ≤ i then i.toNat else values.length - (-i).toNat

/-- `values[start:stop]`. -/
def sliceBetween {α : Type} (start stop : Int) (values : List α) : List α :=
  (values.take (sliceIndex stop values)).drop (sliceIndex start values)

/-- `list_tasks` of the routes, over `list` of the store. -/
def listTasks (list : TaskQuery → Except PyExc (List TaskRecord)) (request : TaskListing) :
    Except ApiError TaskPage :=
  match request.refusal with
  | some refusal => .error refusal
  | none =>
      match list (.matching request.filter) with
      | .error e => .error (.raised e)
      | .ok allTasks =>
          let page := match request.limit with
            | some limit => sliceBetween request.offset (request.offset + limit) allTasks
            | none => sliceFrom request.offset allTasks
          .ok ⟨page.map .fromTask, ⟨request.limit, request.offset, allTasks.length⟩⟩

theorem listTasks_page (request : TaskListing) (allTasks : List TaskRecord) :
    (match request.limit with
      | some limit => sliceBetween request.offset (request.offset + limit) allTasks
      | none => sliceFrom request.offset allTasks) =
      page request.offset request.limit allTasks := by
  have hoffset := request.offset_nonneg
  cases hlimit : request.limit with
  | none => rfl
  | some limit =>
      have hpos := (request.limit_bounds limit hlimit).1
      dsimp only
      rw [sliceBetween, sliceIndex, sliceIndex, page, sliceFrom, sliceTo, if_pos (by omega),
        if_pos (by omega), if_pos (by omega), if_pos (by omega), List.drop_take]
      congr 1
      omega

/-- The pages from an offset on, one after the other up to the first empty one,
or what one of them raises.  `none` means that the fuel does not suffice. -/
def pagesFrom (list : TaskQuery → Except PyExc (List TaskRecord)) (status : Option StatusFilter)
    (k : Int) : Nat → Int → Option (Except PyExc (List TaskRecord))
  | 0, _ => none
  | fuel + 1, offset =>
      match list ⟨some k, offset, status⟩ with
      | .error e => some (.error e)
      | .ok records =>
          if records.isEmpty then some (.ok [])
          else (pagesFrom list status k fuel (offset + k)).map fun rest => rest.map (records ++ ·)

/-- The query asks for a page, with numbers that the store can be given. -/
structure TaskQuery.Asks (q : TaskQuery) (fits : Int → Prop) : Prop where
  offset : 0 ≤ q.offset ∧ fits q.offset
  limit : ∀ n ∈ q.limit, (0 : Int) ≤ n ∧ fits n

theorem TaskQuery.asks_matching {fits : Int → Prop} (hzero : fits 0)
    (status : Option StatusFilter) : (matching status).Asks fits :=
  ⟨⟨le_rfl, hzero⟩, by simp [matching]⟩

/-- For this filter the list raises whatever the page, or it is read from a
slice of rows, as far as the numbers fit. -/
inductive Sliced (fits : Int → Prop) (list : TaskQuery → Except PyExc (List TaskRecord))
    (status : Option StatusFilter) : Prop
  | raises (e : PyExc) (hlist : ∀ limit offset, list ⟨limit, offset, status⟩ = .error e)
  | reads {R : Type} (rows : List R) (read : R → Except PyExc TaskRecord)
      (hlist : ∀ limit offset, TaskQuery.Asks ⟨limit, offset, status⟩ fits →
        list ⟨limit, offset, status⟩ = (page offset limit rows).mapM read)

/-- After a page that is not empty there is an offset that fits. -/
def NextFits (fits : Int → Prop) (list : TaskQuery → Except PyExc (List TaskRecord))
    (status : Option StatusFilter) (k : Int) : Prop :=
  ∀ (n : Nat) records, list ⟨some k, n * k, status⟩ = .ok records → records ≠ [] →
    fits ((n + 1) * k)

section Lists

variable {R A : Type} {read : R → Except PyExc A}

theorem forall₂_of_mapM {rows : List R} {values : List A} (hread : rows.mapM read = .ok values) :
    List.Forall₂ (fun row value => read row = .ok value) rows values := by
  induction rows generalizing values with
  | nil =>
      cases hread
      exact .nil
  | cons row rest ih =>
      rw [List.mapM_cons] at hread
      cases hrow : read row with
      | error e =>
          rw [hrow] at hread
          cases hread
      | ok value =>
          cases hrest : rest.mapM read with
          | error e =>
              rw [hrow, hrest] at hread
              cases hread
          | ok others =>
              rw [hrow, hrest] at hread
              cases hread
              exact .cons hrow (ih hrest)

theorem mapM_of_forall₂ {rows : List R} {values : List A}
    (hread : List.Forall₂ (fun row value => read row = .ok value) rows values) :
    rows.mapM read = .ok values := by
  induction hread with
  | nil => rfl
  | cons hrow _ ih =>
      rw [List.mapM_cons, hrow, ih]
      rfl

/-- A page of what is read is read from the page of the rows. -/
theorem mapM_page {rows : List R} {values : List A} (hread : rows.mapM read = .ok values)
    {offset : Int} {limit : Option Int} (hoffset : 0 ≤ offset)
    (hlimit : ∀ n ∈ limit, (0 : Int) ≤ n) :
    (page offset limit rows).mapM read = .ok (page offset limit values) := by
  have hdrop := List.forall₂_drop offset.toNat (forall₂_of_mapM hread)
  apply mapM_of_forall₂
  cases limit with
  | none =>
      rw [page, page, sliceFrom, sliceFrom, if_pos hoffset, if_pos hoffset]
      exact hdrop
  | some n =>
      have hn : 0 ≤ n := hlimit n rfl
      rw [page, page, sliceFrom, sliceFrom, sliceTo, sliceTo, if_pos hoffset, if_pos hoffset,
        if_pos hn, if_pos hn]
      exact List.forall₂_take n.toNat hdrop

theorem mapM_ok (rows : List A) :
    rows.mapM (fun row => (.ok row : Except PyExc A)) = .ok rows := by
  induction rows with
  | nil => rfl
  | cons row rest ih =>
      rw [List.mapM_cons, ih]
      rfl

end Lists

section Pages

variable {fits : Int → Prop} {list : TaskQuery → Except PyExc (List TaskRecord)}
variable {status : Option StatusFilter} {k : Int}

/-- Each page is read from as many rows behind those of the pages before. -/
theorem list_page {R : Type} {rows : List R} {read : R → Except PyExc TaskRecord}
    (hlist : ∀ limit offset, TaskQuery.Asks ⟨limit, offset, status⟩ fits →
      list ⟨limit, offset, status⟩ = (page offset limit rows).mapM read)
    (hk : 1 ≤ k ∧ fits k) {n : Nat} (hfits : fits (n * k)) :
    list ⟨some k, n * k, status⟩ = ((rows.drop (n * k.toNat)).take k.toNat).mapM read := by
  have hoffset : (n : Int) * k = ((n * k.toNat : Nat) : Int) := by
    rw [Nat.cast_mul, Int.toNat_of_nonneg (by omega)]
  have hasks : TaskQuery.Asks ⟨some k, n * k, status⟩ fits := by
    refine ⟨⟨Int.mul_nonneg (by omega) (by omega), hfits⟩, ?_⟩
    rintro _ ⟨⟩
    exact ⟨by omega, hk.2⟩
  rw [hlist _ _ hasks, page, sliceFrom, sliceTo, if_pos (by omega), if_pos (by omega), hoffset,
    Int.toNat_natCast]

/-- The pages from one on are the rows from there on. -/
theorem pagesFrom_reads {R : Type} {rows : List R} {read : R → Except PyExc TaskRecord}
    (hlist : ∀ limit offset, TaskQuery.Asks ⟨limit, offset, status⟩ fits →
      list ⟨limit, offset, status⟩ = (page offset limit rows).mapM read)
    (hk : 1 ≤ k ∧ fits k) (hnext : NextFits fits list status k) (fuel n : Nat)
    (hfits : fits (n * k)) (hfuel : (rows.drop (n * k.toNat)).length < fuel) :
    pagesFrom list status k fuel (n * k) = some ((rows.drop (n * k.toNat)).mapM read) := by
  induction fuel generalizing n with
  | zero => omega
  | succ fuel ih =>
      have hpage := list_page hlist hk hfits
      have hsucc : (n : Int) * k + k = ((n + 1 : Nat) : Int) * k := by
        rw [Nat.cast_add, Nat.cast_one, Int.add_mul, Int.one_mul]
      have hrest : (rows.drop (n * k.toNat)).drop k.toNat = rows.drop ((n + 1) * k.toNat) := by
        rw [List.drop_drop, Nat.succ_mul]
      have hwhole : (rows.drop (n * k.toNat)).mapM read = do
          let records ← ((rows.drop (n * k.toNat)).take k.toNat).mapM read
          let later ← (rows.drop ((n + 1) * k.toNat)).mapM read
          return records ++ later := by
        rw [← hrest, ← List.mapM_append, List.take_append_drop]
      rw [pagesFrom, hpage]
      cases hread : ((rows.drop (n * k.toNat)).take k.toNat).mapM read with
      | error e =>
          rw [hwhole, hread]
          rfl
      | ok records =>
          have hlength := (forall₂_of_mapM hread).length_eq
          rw [List.length_take] at hlength
          dsimp only
          by_cases hempty : records = []
          · -- the first empty page lies behind the last row
            subst hempty
            have hnone : rows.drop (n * k.toNat) = [] := by
              apply List.length_eq_zero_iff.mp
              rw [List.length_nil] at hlength
              omega
            rw [hnone]
            rfl
          · have hlater : (rows.drop ((n + 1) * k.toNat)).length < fuel := by
              have hsome : records.length ≠ 0 := by
                intro hzero
                exact hempty (List.length_eq_zero_iff.mp hzero)
              rw [← hrest, List.length_drop]
              omega
            have hfits' : fits (((n + 1 : Nat) : Int) * k) := by
              rw [Nat.cast_add, Nat.cast_one]
              exact hnext n records (hpage.trans hread) hempty
            rw [if_neg (by simpa using hempty), hsucc, ih _ hfits' hlater, hwhole, hread]
            cases (rows.drop ((n + 1) * k.toNat)).mapM read <;> rfl

theorem Sliced.pages (hsliced : Sliced fits list status) (hzero : fits 0)
    (hk : 1 ≤ k ∧ fits k) (hnext : NextFits fits list status k) :
    ∃ enough, ∀ fuel ≥ enough,
      pagesFrom list status k fuel 0 = some (list (.matching status)) := by
  cases hsliced with
  | raises e hlist =>
      refine ⟨1, fun fuel hfuel => ?_⟩
      obtain ⟨fuel, rfl⟩ : ∃ n, fuel = n + 1 := ⟨fuel - 1, by omega⟩
      rw [pagesFrom, hlist, TaskQuery.matching, hlist]
  | reads rows read hlist =>
      refine ⟨rows.length + 1, fun fuel hfuel => ?_⟩
      have hall := hlist none 0 (TaskQuery.asks_matching hzero status)
      rw [page_all] at hall
      rw [TaskQuery.matching, hall]
      have hpages := pagesFrom_reads hlist hk hnext fuel 0 (by simpa using hzero)
        (by rw [Nat.zero_mul, List.drop_zero]; omega)
      simpa using hpages

end Pages

/-- The tasks are those that are found in the store and have the status, each
under one id. -/
def TaskStore.Stored {S : Type} (store : TaskStore S) (s : S) (status : Option StatusFilter)
    (tasks : List TaskRecord) : Prop :=
  ∃ items : List (TaskId × TaskRecord), (Assoc.keys items).Nodup ∧ items.map (·.2) = tasks ∧
    ∀ taskId task, (taskId, task) ∈ items ↔ store.get taskId s = .ok (some task) ∧
      (TaskQuery.matching status).admits task = true

/-- What paging promises on a state of a store, which can be given the numbers
that fit.  The pages of any size, up to the first empty one, make up the whole
list.  The route answers with the store's page and the number of all matching
tasks, and raises what the store raises.  A state that was `kept` as the store
keeps it lists exactly the matching tasks that are stored. -/
structure PagesWell {S : Type} (store : TaskStore S) (s : S) (fits : Int → Prop)
    (kept : Prop) : Prop where
  pages : ∀ status (k : Int), 1 ≤ k → fits k → NextFits fits (store.list · s) status k →
    ∃ enough, ∀ fuel ≥ enough,
      pagesFrom (store.list · s) status k fuel 0 = some (store.list (.matching status) s)
  answered : ∀ (request : TaskListing) allTasks, request.refusal = none →
    store.list (.matching request.filter) s = .ok allTasks →
      ∃ items, listTasks (store.list · s) request =
          .ok ⟨items.map .fromTask, ⟨request.limit, request.offset, allTasks.length⟩⟩ ∧
        (request.query.Asks fits → store.list request.query s = .ok items)
  raised : ∀ (request : TaskListing) e, request.refusal = none →
    store.list (.matching request.filter) s = .error e →
      listTasks (store.list · s) request = .error (.raised e)
  stored : kept → ∀ status tasks, store.list (.matching status) s = .ok tasks →
    store.Stored s status tasks

theorem pagesWell_of_sliced {S : Type} {store : TaskStore S} {s : S} {fits : Int → Prop}
    {kept : Prop} (hzero : fits 0) (hsliced : ∀ status, Sliced fits (store.list · s) status)
    (hstored : kept → ∀ status tasks, store.list (.matching status) s = .ok tasks →
      store.Stored s status tasks) : PagesWell store s fits kept := by
  constructor
  · intro status k hk hfits hnext
    exact (hsliced status).pages hzero ⟨hk, hfits⟩ hnext
  · intro request allTasks hknown hall
    refine ⟨page request.offset request.limit allTasks, ?_, ?_⟩
    · simp only [listTasks, hknown, hall, listTasks_page]
    · intro hasks
      cases hsliced request.filter with
      | raises e hlist =>
          rw [TaskQuery.matching, hlist] at hall
          cases hall
      | reads rows read hlist =>
          rw [TaskQuery.matching, hlist _ _ (TaskQuery.asks_matching hzero _), page_all] at hall
          rw [TaskListing.query, hlist _ _ hasks]
          exact mapM_page hall hasks.offset.1 fun n hn => (hasks.limit n hn).1
  · intro request e hknown hall
    simp only [listTasks, hknown, hall]
  · exact hstored

/-- A list that is filtered after everything has been read. -/
theorem sliced_of_filter (base : Except PyExc (List TaskRecord)) (status : Option StatusFilter) :
    Sliced (fun _ => True) (fun q => base.map q.filterRecords) status := by
  cases base with
  | error e => exact .raises e fun _ _ => rfl
  | ok records =>
      refine .reads (filterField (normalizeStatus status) (fun task => task.status.value) records)
        (fun task => .ok task) fun limit offset _ => ?_
      rw [mapM_ok]
      rfl

/-- The numbers that a parameter of a statement can hold. -/
def Sql.Fits (n : Int) : Prop := n < bigintLimit

theorem Sql.fits_zero : Fits 0 := by
  rw [Fits, bigintLimit]
  decide

theorem SQLiteTaskStore.bindInteger_eq {n : Int} (hn : -1 ≤ n) (hfits : Sql.Fits n) :
    bindInteger n = .ok n := by
  have hlower : -Sql.bigintLimit ≤ n := by
    rw [Sql.bigintLimit]
    omega
  rw [bindInteger, if_pos ⟨hlower, hfits⟩]

theorem SQLiteTaskStore.rows_eq {q : TaskQuery} (hasks : q.Asks Sql.Fits)
    (table : SQLiteTaskStore) :
    rows q table = .ok (page q.offset q.limit (Sql.select (keeps (normalizeStatus q.status))
      (Sql.OrderedBy (·.createdAt)) table)) := by
  obtain ⟨limit, offset, status⟩ := q
  obtain ⟨⟨hoffset, hfits⟩, hlimit⟩ := hasks
  have hclause : ∃ bound, bindClause (offsetClause ⟨limit, offset, status⟩) = .ok bound ∧
      (bound.getD 0).toNat = offset.toNat := by
    rw [offsetClause]
    split
    · refine ⟨some offset, ?_, rfl⟩
      rw [bindClause, bindInteger_eq (by omega) hfits]
      rfl
    · rename_i hzero
      simp only [ne_eq, Decidable.not_not] at hzero
      exact ⟨none, rfl, by rw [hzero]; rfl⟩
  obtain ⟨bound, hbound, hskip⟩ := hclause
  cases limit with
  | none =>
      have hnone : ∃ limit, bindClause (limitClause ⟨none, offset, status⟩) = .ok limit ∧
          rowLimit limit = none := by
        change ∃ limit, bindClause (if offset ≠ 0 then some (-1) else none) = _ ∧ _
        split
        · exact ⟨some (-1), rfl, rfl⟩
        · exact ⟨none, rfl, rfl⟩
      obtain ⟨limit, hlimit, hall⟩ := hnone
      rw [rows, bind_of_ok hlimit, bind_of_ok hbound, hall, hskip, page, sliceFrom,
        if_pos hoffset]
      rfl
  | some n =>
      obtain ⟨hn, hnfits⟩ := hlimit n rfl
      have hsome : bindClause (limitClause ⟨some n, offset, status⟩) = .ok (some n) := by
        change (bindInteger n).map some = _
        rw [bindInteger_eq (by omega) hnfits]
        rfl
      have hrows : rowLimit (some n) = some n.toNat := by
        rw [rowLimit, if_neg (by omega)]
      rw [rows, bind_of_ok hsome, bind_of_ok hbound, hrows, hskip, page, sliceFrom, sliceTo,
        if_pos hoffset, if_pos hn]
      rfl

end Conductor
