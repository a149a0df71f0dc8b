/-
Processes that share the file of the store see a plain map from ids to tasks, as
if their calls were made one after the other.  Files may fail and processes die at
any point: a call that was interrupted has been made, or has not.
-/
import Conductor.Runtime.Linearised
import Conductor.Runtime.PlainMap
import Conductor.Runtime.ReadFaults
import Conductor.Runtime.UndisturbedCalls

namespace Conductor.LocalTaskStore.Steps

open Effects Crowd StoreDisk

variable {ι α : Type} {p : Pydantic} {uuid4 : Value → TaskId}

/-- The map after the calls, the last of which comes first.  A save files the task
in the form that it is given for that. -/
def mapAfter (filed : TaskRecord → Except PyExc TaskRecord) (start : MemoryTaskStore) :
    List (ι × Entry) → MemoryTaskStore
  | [] => start
  | (_, ⟨.save task, _⟩) :: entries =>
      match filed task with
      | .ok form => (mapAfter filed start entries).save form
      | .error _ => mapAfter filed start entries
  | _ :: entries => mapAfter filed start entries

/-- How a call is answered from a map, up to the order of the keys in dicts. -/
def Answers (filed : TaskRecord → Except PyExc TaskRecord) (store : MemoryTaskStore) :
    (call : StoreCall) → StoreResponse call → Prop
  | .save task, saved => saved = task ∧ ∃ form, filed task = .ok form
  | .get taskId, found => found.map (·.sortedKeys) = (store.get taskId).map (·.sortedKeys)
  | .list q, found =>
      found.map (·.sortedKeys) = (MemoryTaskStore.list q store).map (·.sortedKeys)

/-- Each of the calls is answered from the map that those before it have left. -/
def AnsweredInTurn (filed : TaskRecord → Except PyExc TaskRecord) (start : MemoryTaskStore) :
    List (ι × Entry) → Prop
  | [] => True
  | (_, entry) :: entries =>
      Answers filed (mapAfter filed start entries) entry.1 entry.2 ∧
        AnsweredInTurn filed start entries

section Maps

variable {filed : TaskRecord → Except PyExc TaskRecord} {start : MemoryTaskStore}

theorem mapAfter_save {task form : TaskRecord} (hform : filed task = .ok form) (i : ι)
    (saved : TaskRecord) (start : MemoryTaskStore) (entries : List (ι × Entry)) :
    mapAfter filed start ((i, ⟨.save task, saved⟩) :: entries) =
      (mapAfter filed start entries).save form := by
  rw [mapAfter, hform]

theorem answers_of_mem {later earlier : List (ι × Entry)} {i : ι} {entry : Entry}
    (hanswered : AnsweredInTurn filed start (later ++ (i, entry) :: earlier)) :
    Answers filed (mapAfter filed start earlier) entry.1 entry.2 := by
  induction later with
  | nil => exact hanswered.1
  | cons _ later ih => exact ih hanswered.2

/-- What was saved is in the map until the same task is saved again. -/
theorem get_mapAfter (hkeeps : ∀ task form, filed task = .ok form → form.taskId = task.taskId)
    {task saved form : TaskRecord} {i : ι} {later earlier : List (ι × Entry)}
    (hform : filed task = .ok form)
    (hlater : ∀ j other response, (j, ⟨.save other, response⟩) ∈ later →
      other.taskId ≠ task.taskId) :
    (mapAfter filed start (later ++ (i, ⟨.save task, saved⟩) :: earlier)).get task.taskId =
      some form := by
  induction later with
  | nil =>
      rw [List.nil_append, mapAfter_save hform, MemoryTaskStore.get_save,
        if_pos (hkeeps task form hform)]
  | cons event later ih =>
      obtain ⟨j, call, response⟩ := event
      have hrest := ih fun j other response hmem =>
        hlater j other response (List.mem_cons_of_mem _ hmem)
      cases call with
      | save other =>
          cases hother : filed other with
          | error e =>
              rw [List.cons_append, mapAfter, hother]
              exact hrest
          | ok otherForm =>
              have hne := hlater j other response List.mem_cons_self
              rw [← hkeeps other otherForm hother] at hne
              rw [List.cons_append, mapAfter_save hother, MemoryTaskStore.get_save, if_neg hne]
              exact hrest
      | get taskId => exact hrest
      | list q => exact hrest

end Maps

/-- A legal history of a file that can be read is one of the map. -/
theorem map_of_legal (hp : p.Lawful) {file file' : TaskFile} {start : MemoryTaskStore}
    {entries : List (ι × Entry)} (hstart : Valid (TaskRecord.codec p uuid4) file start.tasks)
    (hordinary : ∀ i task saved, (i, ⟨.save task, saved⟩) ∈ entries → task.Ordinary p)
    (hlegal : Legal (TaskRecord.codec p uuid4) file entries file') :
    AnsweredInTurn (TaskRecord.jsonForm p) start entries ∧
      Valid (TaskRecord.codec p uuid4) file'
        (mapAfter (TaskRecord.jsonForm p) start entries).tasks := by
  induction entries generalizing file' with
  | nil =>
      obtain rfl : file' = file := hlegal
      exact ⟨trivial, hstart⟩
  | cons event entries ih =>
      obtain ⟨i, call, response⟩ := event
      have hrest : ∀ i task saved, (i, ⟨.save task, saved⟩) ∈ entries → task.Ordinary p :=
        fun i task saved hmem => hordinary i task saved (List.mem_cons_of_mem _ hmem)
      cases call with
      | save task =>
          obtain ⟨hsaved, before, hbefore, hsave⟩ := hlegal
          obtain ⟨hanswered, hvalid⟩ := ih hrest hbefore
          have htask := hordinary i task response List.mem_cons_self
          obtain ⟨form, hform, hvalid'⟩ := hvalid.saved hp htask hsave
          rw [mapAfter_save hform]
          exact ⟨⟨⟨hsaved, form, hform⟩, hanswered⟩, hvalid'⟩
      | get taskId =>
          obtain ⟨hbefore, hget⟩ := hlegal
          obtain ⟨hanswered, hvalid⟩ := ih hrest hbefore
          obtain ⟨found, hfound, hsame⟩ := hvalid.get taskId
          obtain rfl : response = found := Except.ok.inj (hget.symm.trans hfound)
          exact ⟨⟨hsame, hanswered⟩, hvalid⟩
      | list q =>
          obtain ⟨hbefore, hlist⟩ := hlegal
          obtain ⟨hanswered, hvalid⟩ := ih hrest hbefore
          obtain ⟨found, hfound, hsame⟩ := hvalid.list q
          obtain rfl : response = found := Except.ok.inj (hlist.symm.trans hfound)
          exact ⟨⟨hsame, hanswered⟩, hvalid⟩

section Histories

variable {codec : Codec TaskRecord}

theorem mem_of_underway {h : History FileCall FileReply} {call : StoreCall}
    (hunderway : underway h = some call) : ∃ began, ⟨.began call, began⟩ ∈ h := by
  induction h with
  | nil => cases hunderway
  | cons e h ih =>
      obtain ⟨c, answer⟩ := e
      have hrest (hsame : underway (⟨c, answer⟩ :: h) = underway h) :
          ∃ began, ⟨.began call, began⟩ ∈ (⟨c, answer⟩ :: h : History FileCall FileReply) := by
        rw [hsame] at hunderway
        obtain ⟨began, hmem⟩ := ih hunderway
        exact ⟨began, List.mem_cons_of_mem _ hmem⟩
      cases c with
      | began begun =>
          cases hunderway
          exact ⟨answer, List.mem_cons_self⟩
      | returned ended reply => cases hunderway
      | _ => exact hrest rfl

/-- None of these calls is the end of a call of the store. -/
def Unreturned (h : History FileCall FileReply) : Prop :=
  ∀ event ∈ h, ∀ call reply, event.call ≠ .returned call reply

theorem completed_append {h earlier : History FileCall FileReply} (hh : Unreturned h) :
    completed (h ++ earlier) = completed earlier := by
  induction h with
  | nil => rfl
  | cons e h ih =>
      obtain ⟨c, answer⟩ := e
      obtain ⟨hhead, hrest⟩ := List.forall_mem_cons.mp hh
      cases c with
      | returned call reply => exact absurd rfl (hhead call reply)
      | _ => exact ih hrest

/-- A call that raises has done nothing. -/
theorem effects_raised {call : StoreCall} {e : PyExc} {began ended : Except PyExc Unit}
    {during earlier : History FileCall FileReply}
    (hkept : (contract codec).Kept
      (⟨.returned call (.error e), ended⟩ :: (during ++ ⟨.began call, began⟩ :: earlier)))
    (hduring : Unreturned during) :
    effects codec (during ++ ⟨.began call, began⟩ :: earlier) = effects codec earlier := by
  have hafter : effects codec (during ++ ⟨.began call, began⟩ :: earlier) =
      completed (during ++ ⟨.began call, began⟩ :: earlier) := effects_eq codec hkept
  have hbefore : effects codec earlier = completed earlier :=
    effects_eq codec (Contract.Kept.of_append hkept.2)
  rw [hafter, hbefore, completed_append hduring]
  rfl

end Histories

variable [DecidableEq ι]

/-- The tasks whose saves have begun. -/
def savesBegun : FileLog ι → List TaskRecord
  | [] => []
  | (_, ⟨.began (.save task), _⟩) :: log => task :: savesBegun log
  | _ :: log => savesBegun log

omit [DecidableEq ι] in
theorem savesBegun_subset (i : ι) (e : Event FileCall FileReply) (log : FileLog ι) :
    savesBegun log ⊆ savesBegun ((i, e) :: log) := by
  obtain ⟨c, answer⟩ := e
  intro task hmem
  cases c with
  | began call =>
      cases call with
      | save other => exact List.mem_cons_of_mem _ hmem
      | get taskId => exact hmem
      | list q => exact hmem
  | _ => exact hmem

omit [DecidableEq ι] in
theorem mem_savesBegun {i : ι} {task : TaskRecord} {began : Except PyExc Unit} {log : FileLog ι}
    (hmem : (i, ⟨.began (.save task), began⟩) ∈ log) : task ∈ savesBegun log := by
  induction log with
  | nil => cases hmem
  | cons event log ih =>
      rcases List.mem_cons.mp hmem with rfl | hmem
      · exact List.mem_cons_self
      · exact savesBegun_subset event.1 event.2 log (ih hmem)

/-- A call that has taken effect has begun. -/
theorem savesBegun_of_linearised (codec : Codec TaskRecord) {log : FileLog ι} {i : ι}
    {task saved : TaskRecord} (hmem : (i, ⟨.save task, saved⟩) ∈ linearised codec log) :
    task ∈ savesBegun log := by
  induction log with
  | nil => cases hmem
  | cons event log ih =>
      obtain ⟨j, c, answer⟩ := event
      cases heffect : effectOf codec (desk codec log j) c answer with
      | none =>
          rw [linearised_none heffect] at hmem
          exact savesBegun_subset j _ log (ih hmem)
      | some entry =>
          rw [linearised_some heffect] at hmem
          rcases List.mem_cons.mp hmem with hnew | hold
          · cases hnew
            have hcalling := calling_of_effect heffect
            have hunderway : underway (ownCalls i log) = some (.save task) :=
              (calling_view codec _).symm.trans hcalling
            obtain ⟨began, hbegan⟩ := mem_of_underway hunderway
            exact savesBegun_subset i _ log (mem_savesBegun (mem_ownCalls.mp hbegan))
          · exact savesBegun_subset j _ log (ih hold)

section Runs

variable {codec : Codec TaskRecord} {file : TaskFile} {crowd : Processes ι α}

theorem readable_of_valid {items : List (TaskId × TaskRecord)} (hvalid : Valid codec file items) :
    Readable codec file where
  get taskId := by
    obtain ⟨found, hfound, -⟩ := hvalid.get taskId
    exact ⟨found, hfound⟩
  list q := by
    obtain ⟨found, hfound, -⟩ := hvalid.list q
    exact ⟨found, hfound⟩

omit [DecidableEq ι] in
theorem findsReadable {disk disk' : StoreDisk ι} {i : ι} {c : FileCall} {answer : FileReply c}
    (hreadable : Readable codec disk.file) (houtcome : Outcome false i disk c answer disk') :
    FindsReadable codec c answer := by
  cases houtcome with
  | missing hfile =>
      rw [hfile] at hreadable
      exact hreadable
  | readText hfile =>
      rw [hfile] at hreadable
      exact hreadable
  | failed hfails e => cases c <;> trivial
  | _ => trivial

end Runs

section Reading

variable {start : MemoryTaskStore} {file : TaskFile} {crowd : Processes ι α}

theorem Sound.map (hp : p.Lawful) (hstart : Valid (TaskRecord.codec p uuid4) file start.tasks)
    (hsound : Sound (TaskRecord.codec p uuid4) false file crowd)
    (hordinary : ∀ task ∈ savesBegun crowd.trace, task.Ordinary p) :
    AnsweredInTurn (TaskRecord.jsonForm p) start
        (linearised (TaskRecord.codec p uuid4) crowd.trace) ∧
      Valid (TaskRecord.codec p uuid4) crowd.state.file (mapAfter (TaskRecord.jsonForm p) start
        (linearised (TaskRecord.codec p uuid4) crowd.trace)).tasks := by
  apply map_of_legal hp hstart _ (hsound.legal rfl)
  exact fun _ task _ hmem => hordinary task (savesBegun_of_linearised _ hmem)

/-- As long as the tasks are ordinary ones, the file can be read. -/
theorem run_reading (hp : p.Lawful) (hstart : Valid (TaskRecord.codec p uuid4) file start.tasks)
    (programs : ι → Prog StoreCall StoreReply α) (schedule : List (Crowd.Turn ι DiskFault))
    (hordinary : ∀ task ∈ savesBegun
      ((processes (TaskRecord.codec p uuid4) programs file).run (device false) schedule).trace,
      task.Ordinary p) :
    Keeps (reading (TaskRecord.codec p uuid4))
      ((processes (TaskRecord.codec p uuid4) programs file).run (device false) schedule) := by
  revert hordinary
  refine (run_invariant (I := fun crowd : Processes ι α =>
    Sound (TaskRecord.codec p uuid4) false file crowd ∧
      ((∀ task ∈ savesBegun crowd.trace, task.Ordinary p) →
        Keeps (reading (TaskRecord.codec p uuid4)) crowd)) ?_ ?_).2
  · rintro crowd turn ⟨hsound, hkeeps⟩
    refine ⟨hsound.step turn, ?_⟩
    have hchange := step_change (device false) crowd turn
    generalize crowd.step (device false) turn = crowd' at hchange ⊢
    cases hchange with
    | nothing => exact hkeeps
    | death halive => exact fun hordinary => (hkeeps hordinary).death _ _
    | call hprogram hanswer =>
        intro hordinary
        have hbefore : ∀ task ∈ savesBegun crowd.trace, task.Ordinary p :=
          fun task hmem => hordinary task (savesBegun_subset _ _ _ hmem)
        have hvalid := (hsound.map hp hstart hbefore).2
        exact (hkeeps hbefore).call hprogram
          (findsReadable (readable_of_valid hvalid) (outcome_of_mayAnswer hanswer)) _
  · exact ⟨sound_start programs file, fun _ =>
      keeps_start _ fun i => wp_process_reading (programs i)⟩

end Reading

/-- This is an order in which the calls that have returned, and some of those that
have not, can have been made one after the other on the map. -/
structure Explains (filed : TaskRecord → Except PyExc TaskRecord) (start : MemoryTaskStore)
    (crowd : Processes ι α) (order : List (ι × Entry)) : Prop where
  answered : AnsweredInTurn filed start order
  covers : ∀ i, Covers order crowd.trace i

/-- The calls look as if they were made one after the other on a map. -/
structure Linearizable (p : Pydantic) (uuid4 : Value → TaskId) (start : MemoryTaskStore)
    (crowd : Processes ι α) : Prop where
  /-- There is one order of the calls in which the map answers them, with the calls
  of each process in its own order, -/
  explained : Explains (TaskRecord.jsonForm p) start crowd
    (linearised (TaskRecord.codec p uuid4) crowd.trace)
  /-- the file holds what the map holds, -/
  stored : Valid (TaskRecord.codec p uuid4) crowd.state.file (mapAfter (TaskRecord.jsonForm p)
    start (linearised (TaskRecord.codec p uuid4) crowd.trace)).tasks
  /-- a call that raised has done nothing, -/
  raised : ∀ i call e began ended later during earlier,
    ownCalls i crowd.trace = later ++ ⟨.returned call (.error e), ended⟩ ::
      (during ++ ⟨.began call, began⟩ :: earlier) → Unreturned during →
    effects (TaskRecord.codec p uuid4) (during ++ ⟨.began call, began⟩ :: earlier) =
      effects (TaskRecord.codec p uuid4) earlier
  /-- and one that only reads raises what a file operation has raised; -/
  reads : ∀ i call e ended later earlier,
    ownCalls i crowd.trace = later ++ ⟨.returned call (.error e), ended⟩ :: earlier →
    (∀ task, call ≠ .save task) → e ∈ (reading (TaskRecord.codec p uuid4)).view earlier
  /-- what was saved stays until the same task is saved again. -/
  kept : ∀ i task saved later earlier,
    linearised (TaskRecord.codec p uuid4) crowd.trace =
      later ++ (i, ⟨.save task, saved⟩) :: earlier →
    (∀ j other response, (j, ⟨.save other, response⟩) ∈ later → other.taskId ≠ task.taskId) →
    ∃ form, task.jsonForm p = .ok form ∧
      (mapAfter (TaskRecord.jsonForm p) start
        (linearised (TaskRecord.codec p uuid4) crowd.trace)).get task.taskId = some form

/-- The store in a file is linearizable, from a file that can be read, whatever
else fails and whoever dies, as long as no stat fails. -/
theorem store_linearizable (hp : p.Lawful) (programs : ι → Prog StoreCall StoreReply α)
    {file : TaskFile} {start : MemoryTaskStore}
    (hstart : Valid (TaskRecord.codec p uuid4) file start.tasks)
    (schedule : List (Crowd.Turn ι DiskFault))
    (hordinary : ∀ task ∈ savesBegun
      ((processes (TaskRecord.codec p uuid4) programs file).run (device false) schedule).trace,
      task.Ordinary p) :
    Linearizable p uuid4 start
      ((processes (TaskRecord.codec p uuid4) programs file).run (device false) schedule) := by
  have hsound := run_sound (TaskRecord.codec p uuid4) false programs file schedule
  have hreading := run_reading hp hstart programs schedule hordinary
  generalize (processes (TaskRecord.codec p uuid4) programs file).run (device false) schedule =
    crowd at hsound hreading hordinary ⊢
  obtain ⟨hanswered, hstored⟩ := hsound.map hp hstart hordinary
  have hcovers i := covers_linearised _ (hsound.keeps.done i)
  refine ⟨⟨hanswered, hcovers⟩, hstored, ?_, ?_, ?_⟩
  · intro i call e began ended later during earlier htrace hduring
    have hdone := hsound.keeps.done i
    rw [htrace] at hdone
    exact effects_raised hdone.of_append hduring
  · intro i call e ended later earlier htrace hreads
    have hdone := hreading.done i
    rw [htrace] at hdone
    have hpasses : PassesOn _ (.returned call (.error e)) := hdone.guarantees
    cases call with
    | save task => exact absurd rfl (hreads task)
    | get taskId => exact hpasses
    | list q => exact hpasses
  · intro i task saved later earlier hlog hlater
    rw [hlog] at hanswered ⊢
    obtain ⟨-, form, hform⟩ := answers_of_mem hanswered
    exact ⟨form, hform, get_mapAfter (fun _ _ => TaskRecord.taskId_jsonForm) hform hlater⟩

/-- One process saves a task, another looks for it. -/
def saveAndGet (saves : Bool) : Prog StoreCall StoreReply Unit :=
  if saves then .call (.save (taskCreatedAt "a" 1000000)) fun _ => .done ()
  else .call (.get "a") fun _ => .done ()

/-- The first one dies as soon as it has replaced the file. -/
def saverDies : List (Crowd.Turn Bool DiskFault) :=
  List.replicate 4 (.act false) ++ List.replicate 11 (.act true) ++ [.act false, .die true] ++
    List.replicate 4 (.act false)

/-- Nothing in the task is out of the ordinary if nothing in its input is. -/
theorem ordinary_of_input {task : TaskRecord} (hinput : p.Ordinary (.dict task.input))
    (hbare : task.metadata = [] ∧ task.result = none ∧ task.auditTrail = []) :
    task.Ordinary p := by
  obtain ⟨hmetadata, hresult, htrail⟩ := hbare
  constructor
  · exact hinput
  · rw [hmetadata]
    exact ⟨List.nodup_nil, trivial⟩
  · rw [hresult]
    exact fun _ hr => by cases hr
  · rw [htrail]
    exact List.forall_mem_nil _

theorem saver_dies_linearizable :
    Linearizable .strict (fun _ => "t") .empty
      ((processes (TaskRecord.codec .strict fun _ => "t") saveAndGet none).run (device false)
        saverDies) := by
  apply store_linearizable Pydantic.strict_lawful saveAndGet (valid_missing _) saverDies
  have hbare : ∀ task ∈ savesBegun ((processes (TaskRecord.codec .strict fun _ => "t") saveAndGet
      none).run (device false) saverDies).trace,
      task.input = [] ∧ task.metadata = [] ∧ task.result = none ∧ task.auditTrail = [] := by
    decide +kernel
  intro task hmem
  obtain ⟨hinput, hrest⟩ := hbare task hmem
  apply ordinary_of_input _ hrest
  rw [hinput]
  exact ⟨List.nodup_nil, trivial⟩

/-- Where a single process has made its calls, there is one order of them. -/
theorem Explains.calls {filed : TaskRecord → Except PyExc TaskRecord} {start : MemoryTaskStore}
    {crowd : Processes Unit α} {order : List (Unit × Entry)} {calls : List Entry}
    (hexplains : Explains filed start crowd order)
    (hfinished : Finished (ownCalls () crowd.trace) calls) : order.map (·.2) = calls := by
  have hown : ownEntries () order = order.map (·.2) := by
    clear hexplains
    induction order with
    | nil => rfl
    | cons event order ih => exact congrArg (List.cons event.2) ih
  rw [← hown, ← hfinished.2]
  rcases hexplains.covers () with hcovers | ⟨entry, hunderway, -⟩
  · exact hcovers
  · rw [hfinished.1] at hunderway
    cases hunderway

/-- On a map of the records themselves, the task that was saved would be found. -/
theorem Explains.found {crowd : Processes Unit α} {order : List (Unit × Entry)}
    {start : MemoryTaskStore} {task : TaskRecord} {found : Option TaskRecord}
    {earlier : List Entry} (hexplains : Explains .ok start crowd order) (later : List Entry)
    (hfinished : Finished (ownCalls () crowd.trace)
      (⟨.get task.taskId, found⟩ :: (later ++ ⟨.save task, task⟩ :: earlier)))
    (hlater : ∀ other response, ⟨.save other, response⟩ ∈ later → other.taskId ≠ task.taskId) :
    found.map (·.sortedKeys) = some task.sortedKeys := by
  have hcalls := hexplains.calls hfinished
  obtain ⟨⟨_, _⟩, rest, rfl, rfl, hrest⟩ := List.map_eq_cons_iff.mp hcalls
  obtain ⟨laterCalls, _, rfl, rfl, hsaved⟩ := List.map_eq_append_iff.mp hrest
  obtain ⟨⟨_, _⟩, earlierCalls, rfl, rfl, -⟩ := List.map_eq_cons_iff.mp hsaved
  have hkept : (mapAfter .ok start
      (laterCalls ++ ((), ⟨.save task, task⟩) :: earlierCalls)).get task.taskId = some task := by
    apply get_mapAfter _ rfl
    · intro j other response hmem
      exact hlater other response (List.mem_map_of_mem hmem)
    · intro task form hform
      exact congrArg _ (Except.ok.inj hform).symm
  exact hexplains.answered.1.trans (congrArg _ hkept)

/-- A process saves the tasks and looks for the first one. -/
def saveThenGet (task : TaskRecord) (others : List TaskRecord) : Prog StoreCall StoreReply Unit :=
  .call (.save task) fun _ => others.foldr (fun other rest => .call (.save other) fun _ => rest)
    (.call (.get task.taskId) fun _ => .done ())

/-- A task whose input has a time in it. -/
def datedTask : TaskRecord := { taskCreatedAt "a" 0 with input := [("at", .datetime 0)] }

/-- The task is not found as it was saved: it comes back with the text of the time. -/
theorem dated_task_not_explained : ∃ schedule, ∀ order, ¬ Explains .ok .empty
    ((processes (TaskRecord.codec .strict fun _ => "t")
      (fun _ : Unit => saveThenGet datedTask []) none).run (device false) schedule) order := by
  let form : TaskRecord :=
    { taskCreatedAt "a" 0 with input := [("at", .str "1970-01-01T00:00:00Z")] }
  have hordinary : datedTask.Ordinary .strict :=
    ordinary_of_input ⟨List.nodup_singleton _, trivial, trivial⟩ ⟨rfl, rfl, rfl⟩
  have hserialisable : form.Serialisable :=
    { taskCreatedAt_serialisable "a" 0 with
      input := ⟨List.nodup_singleton _, trivial, trivial⟩ }
  obtain ⟨text, htext, hvalid⟩ :=
    exists_saved Pydantic.strict_lawful (fun _ => "t") hordinary rfl hserialisable
  obtain ⟨found, hfound, hsame⟩ := hvalid.get "a"
  have hwp : (process (TaskRecord.codec .strict fun _ => "t") (saveThenGet datedTask [])).wp
      (alone false ()) (fun _ k => Finished k.2 [⟨.get "a", found⟩, ⟨.save datedTask, datedTask⟩])
      (.idle none, []) := by
    apply wp_save_then rfl (.inl rfl) htext
    intro disk h hfree hfile hcompleted
    exact wp_get_last hfree hfile hfound hcompleted
  obtain ⟨schedule, hfinished⟩ := exists_finished hwp
  refine ⟨schedule, fun order hexplains => ?_⟩
  have hdated : found.map (·.sortedKeys) = some datedTask.sortedKeys :=
    hexplains.found [] hfinished (by simp)
  rw [hsame] at hdated
  cases hdated

/-- A save that does not see the file leaves no other task in it. -/
theorem unseen_file_not_explained : ∃ schedule, ∀ order, ¬ Explains .ok .empty
    ((processes (TaskRecord.codec .strict fun _ => "t")
      (fun _ : Unit => saveThenGet (taskCreatedAt "a" 0) [taskCreatedAt "b" 0]) none).run
        (device true) schedule) order := by
  have hsaved (taskId : TaskId) : ∃ text,
      savedText (TaskRecord.codec .strict fun _ => "t") taskId (taskCreatedAt taskId 0) none =
        .ok text ∧
      Valid (TaskRecord.codec .strict fun _ => "t") (some text)
        (MemoryTaskStore.empty.save (taskCreatedAt taskId 0)).tasks :=
    exists_saved Pydantic.strict_lawful (fun _ => "t")
      (ordinary_of_input ⟨List.nodup_nil, trivial⟩ ⟨rfl, rfl, rfl⟩) rfl
      (taskCreatedAt_serialisable taskId 0)
  obtain ⟨text, htext, -⟩ := hsaved "a"
  obtain ⟨text', htext', hvalid⟩ := hsaved "b"
  obtain ⟨found, hfound, hsame⟩ := hvalid.get "a"
  have hwp : (process (TaskRecord.codec .strict fun _ => "t")
      (saveThenGet (taskCreatedAt "a" 0) [taskCreatedAt "b" 0])).wp (alone true ())
      (fun _ k => Finished k.2 [⟨.get "a", found⟩,
        ⟨.save (taskCreatedAt "b" 0), taskCreatedAt "b" 0⟩,
        ⟨.save (taskCreatedAt "a" 0), taskCreatedAt "a" 0⟩]) (.idle none, []) := by
    apply wp_save_then rfl (.inl rfl) htext
    intro disk h hfree _ hcompleted
    apply wp_save_then hfree (.inr rfl) htext'
    intro disk' h' hfree' hfile hcompleted'
    exact wp_get_last hfree' hfile hfound (hcompleted'.trans (congrArg _ hcompleted))
  obtain ⟨schedule, hfinished⟩ := exists_finished hwp
  refine ⟨schedule, fun order hexplains => ?_⟩
  have hkept : found.map (·.sortedKeys) = some (taskCreatedAt "a" 0).sortedKeys := by
    apply hexplains.found [⟨.save (taskCreatedAt "b" 0), taskCreatedAt "b" 0⟩] hfinished
    intro other response hmem
    cases List.mem_singleton.mp hmem
    decide
  rw [hsame] at hkept
  cases hkept

/-- The store is no plain map of the records: it answers with the text of a time,
and after a stat that failed it has lost the tasks of other saves. -/
theorem store_not_plain_map :
    (∃ schedule, ∀ order, ¬ Explains .ok .empty
      ((processes (TaskRecord.codec .strict fun _ => "t")
        (fun _ : Unit => saveThenGet datedTask []) none).run (device false) schedule) order) ∧
    (∃ schedule, ∀ order, ¬ Explains .ok .empty
      ((processes (TaskRecord.codec .strict fun _ => "t")
        (fun _ : Unit => saveThenGet (taskCreatedAt "a" 0) [taskCreatedAt "b" 0]) none).run
          (device true) schedule) order) :=
  ⟨dated_task_not_explained, unseen_file_not_explained⟩

end Conductor.LocalTaskStore.Steps
