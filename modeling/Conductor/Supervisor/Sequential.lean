/-
Finite sequential runs from an empty store.  The record an operation has in
hand is the stored one, so what one client may do to it becomes an induction
principle for stored records.
-/
import Mathlib.Algebra.Order.BigOperators.Group.List
import Conductor.Supervisor.Discipline

namespace Conductor

open Effects

/-- The task store after a history of calls. -/
def storeAfter (start : MemoryTaskStore) : Trace → MemoryTaskStore
  | [] => start
  | ⟨.storeSave task, _⟩ :: h => (storeAfter start h).save task
  | _ :: h => storeAfter start h

theorem stateAfter_store (env : Env) (start : World) (h : Trace) :
    (env.machine.stateAfter start h).store = storeAfter start.store h := by
  induction h with
  | nil => rfl
  | cons e h ih =>
      obtain ⟨c, answer⟩ := e
      cases c with
      | enqueue taskId =>
          change (env.respond h (env.machine.stateAfter start h) (.enqueue taskId)).2.store = _
          simp only [Env.respond, storeAfter]
          split <;> exact ih
      | storeSave task =>
          change (env.machine.stateAfter start h).store.save task = _
          rw [ih]
          rfl
      | _ => exact ih

theorem storeAfter_keyed {start : MemoryTaskStore} (hkeyed : start.Keyed) (h : Trace) :
    (storeAfter start h).Keyed := by
  induction h with
  | nil => exact hkeyed
  | cons e h ih =>
      obtain ⟨c, answer⟩ := e
      cases c with
      | storeSave task => exact ih.save task
      | _ => exact ih

/-- The machine answers soundly as long as its store is keyed by task id. -/
theorem sound_of_keyed (env : Env) {k : State} (hkeyed : k.state.store.Keyed) (c : Call) :
    Sound c (env.machine.step k c).1 := by
  cases c with
  | now => exact ⟨_, rfl⟩
  | uuid4 => exact ⟨_, rfl⟩
  | storeGet taskId => exact ⟨_, rfl, fun task htask => hkeyed taskId task htask⟩
  | storeSave task => rfl
  | _ => trivial

theorem keyed_step (env : Env) (k : State) (c : Call) (hkeyed : k.state.store.Keyed) :
    (env.machine.step k c).2.state.store.Keyed := by
  cases c with
  | enqueue taskId =>
      change (env.respond k.history k.state (.enqueue taskId)).2.store.Keyed
      simp only [Env.respond]
      split <;> exact hkeyed
  | storeSave task => exact hkeyed.save task
  | _ => exact hkeyed

theorem store_step_of_not_save (env : Env) (k : State) {c : Call}
    (hsave : ∀ t, c ≠ .storeSave t) : (env.machine.step k c).2.state.store = k.state.store := by
  cases c with
  | enqueue taskId =>
      change (env.respond k.history k.state (.enqueue taskId)).2.store = _
      simp only [Env.respond]
      split <;> rfl
  | storeSave t => exact absurd rfl (hsave t)
  | _ => rfl

/-- The record stored under an id after a history that began with an empty
store. -/
def stored (h : Trace) (taskId : TaskId) : Option TaskRecord :=
  (storeAfter .empty h).get taskId

/-- The record was saved at some time. -/
def Saved (h : Trace) (task : TaskRecord) : Prop :=
  ∃ e ∈ h, e.call = .storeSave task

theorem saved_cons {e : Event Call Answer} {h : Trace} {task : TaskRecord} :
    Saved (e :: h) task ↔ e.call = .storeSave task ∨ Saved h task := by
  simp [Saved]

theorem stored_save (h : Trace) (t : TaskRecord) (answer : Answer (.storeSave t))
    (taskId : TaskId) :
    stored (⟨.storeSave t, answer⟩ :: h) taskId =
      if t.taskId = taskId then some t else stored h taskId :=
  MemoryTaskStore.get_save _ t taskId

theorem stored_cons_of_not_save {h : Trace} {e : Event Call Answer}
    (hsave : ∀ t, e.call ≠ .storeSave t)
    (taskId : TaskId) : stored (e :: h) taskId = stored h taskId := by
  obtain ⟨c, answer⟩ := e
  cases c with
  | storeSave t => exact absurd rfl (hsave t)
  | _ => rfl

theorem stored_keyed {h : Trace} {taskId : TaskId} {r : TaskRecord}
    (hstored : stored h taskId = some r) : r.taskId = taskId :=
  storeAfter_keyed MemoryTaskStore.keyed_empty h taskId r hstored

/-- What was saved stays stored, perhaps in a later version. -/
theorem Saved.stored {h : Trace} {task : TaskRecord} (hsaved : Saved h task) :
    ∃ r, stored h task.taskId = some r := by
  induction h with
  | nil => simp [Saved] at hsaved
  | cons e h ih =>
      obtain ⟨c, answer⟩ := e
      rcases saved_cons.mp hsaved with heq | hsaved
      · cases heq
        exact ⟨task, by rw [stored_save, if_pos rfl]⟩
      · obtain ⟨r, hr⟩ := ih hsaved
        by_cases hsave : ∃ t, c = .storeSave t
        · obtain ⟨t, rfl⟩ := hsave
          rw [stored_save]
          split
          · exact ⟨t, rfl⟩
          · exact ⟨r, hr⟩
        · exact ⟨r, by rwa [stored_cons_of_not_save fun t ht => hsave ⟨t, ht⟩]⟩

/-- The history of one client on the machine, from an empty store on. -/
structure Sequential (sup : Supervisor) (env : Env) (queue : TaskQueue) (h : Trace) : Prop where
  lawful : (discipline sup.guildKnowledge).Lawful h
  genuine : env.machine.Genuine (.initial queue) h

/-- The ids given out are not in use. -/
def UniqueIds (env : Env) : Prop :=
  ∀ h, stored h (env.uuid4 h) = none

theorem mem_savedIds_of_stored {h : Trace} {taskId : TaskId} {r : TaskRecord}
    (hstored : stored h taskId = some r) : taskId ∈ savedIds h := by
  induction h with
  | nil => cases hstored
  | cons e h ih =>
      obtain ⟨c, answer⟩ := e
      cases c with
      | storeSave t =>
          rw [stored_save] at hstored
          by_cases hid : t.taskId = taskId
          · exact hid ▸ List.mem_cons_self
          · rw [if_neg hid] at hstored
            exact List.mem_cons_of_mem _ (ih hstored)
      | _ => exact ih hstored

theorem uniqueIds_of_freshId {env : Env} (huuid : env.uuid4 = freshId) : UniqueIds env := by
  intro h
  rw [huuid]
  cases hstored : stored h (freshId h) with
  | none => rfl
  | some r =>
      have hmem := List.mem_map_of_mem (f := String.length) (mem_savedIds_of_stored hstored)
      have hle := List.le_sum_of_mem hmem
      simp [freshId] at hle

/-- Reporting a success to the guild never raises; in particular there may be
no guild. -/
def GuildSafe (sup : Supervisor) (env : Env) : Prop :=
  sup.guildKnowledge = true → ∀ h capability input,
    env.publishSuccess h capability input = .ok ()

variable {sup : Supervisor} {env : Env} {queue : TaskQueue} {h : Trace}

/-- The store of a run is told by its history. -/
theorem run_store (sup : Supervisor) (env : Env) (fuel : Nat) (ops : List Operation)
    (queue : TaskQueue) (taskId : TaskId) :
    (sup.run env fuel ops (.initial queue)).state.store.get taskId =
      stored (sup.run env fuel ops (.initial queue)).history taskId := by
  have htraced : env.machine.Traced (World.initial queue) (State.initial queue) := ⟨rfl, trivial⟩
  have hstate := (Prog.exec_traced (client sup fuel ops) htraced).1
  change MemoryTaskStore.get (((client sup fuel ops).exec env.machine _).2.state.store) _ = _
  rw [hstate, stateAfter_store]
  rfl

theorem run_sequential (sup : Supervisor) (env : Env) (fuel : Nat) (ops : List Operation)
    (queue : TaskQueue) :
    Sequential sup env queue (sup.run env fuel ops (.initial queue)).history where
  lawful :=
    Prog.exec_lawful (I := fun k => k.state.store.Keyed) (keyed_step env)
      (fun _ c hkeyed => sound_of_keyed env hkeyed c) MemoryTaskStore.keyed_empty
      (client_disciplined sup fuel ops) trivial
  genuine := by
    have htraced : env.machine.Traced (World.initial queue) (State.initial queue) :=
      ⟨rfl, trivial⟩
    exact (Prog.exec_traced (client sup fuel ops) htraced).2

namespace Sequential

theorem of_append {later earlier : Trace} (hseq : Sequential sup env queue (later ++ earlier)) :
    Sequential sup env queue earlier :=
  ⟨hseq.lawful.of_append, hseq.genuine.of_append⟩

theorem tail {e : Event Call Answer} (hseq : Sequential sup env queue (e :: h)) :
    Sequential sup env queue h :=
  ⟨hseq.lawful.2.2, hseq.genuine.2⟩

theorem permitted {e : Event Call Answer} (hseq : Sequential sup env queue (e :: h)) :
    Permitted sup.guildKnowledge (desk h) e.call := by
  rw [← view_discipline sup.guildKnowledge]
  exact hseq.lawful.1

theorem answer_storeGet {taskId : TaskId} {answer : Answer (.storeGet taskId)}
    (hseq : Sequential sup env queue (⟨.storeGet taskId, answer⟩ :: h)) :
    answer = .ok (stored h taskId) := by
  have hanswer := hseq.genuine.1
  change answer = .ok ((env.machine.stateAfter (.initial queue) h).store.get taskId) at hanswer
  rw [hanswer, stateAfter_store]
  rfl

/-- What an operation has in hand is what is stored. -/
theorem held_stored (hseq : Sequential sup env queue h) {r : TaskRecord}
    (hheld : (desk h).held = some r) : stored h r.taskId = some r := by
  induction h generalizing r with
  | nil => cases hheld
  | cons e h ih =>
      have ih (hheld : (desk h).held = some r) := ih hseq.tail hheld
      obtain ⟨c, answer⟩ := e
      cases c with
      | entered | left | runTaskEntered => cases hheld
      | storeGet taskId =>
          have hfound := hseq.answer_storeGet
          rcases answer with e | _ | found
          · exact ih hheld
          · exact ih hheld
          · cases hheld
            have hr : stored h taskId = some r := (Except.ok.inj hfound).symm
            exact stored_keyed hr ▸ hr
      | storeSave task =>
          cases hheld
          rw [stored_save, if_pos rfl]
      | _ => cases answer <;> exact ih hheld

/-- An id that was drawn for a new task is free until the task is saved. -/
theorem issued_fresh (hunique : UniqueIds env) (hseq : Sequential sup env queue h)
    {taskId : TaskId} (hissued : (desk h).issued = some taskId) : stored h taskId = none := by
  induction h with
  | nil => cases hissued
  | cons e h ih =>
      have ih := ih hseq.tail
      obtain ⟨c, answer⟩ := e
      cases c with
      | entered | left | runTaskEntered | storeSave => cases hissued
      | uuid4 =>
          have hanswer : answer = .ok (env.uuid4 h) := hseq.genuine.1
          subst hanswer
          cases hissued
          exact hunique h
      | storeGet id => rcases answer with e | _ | task <;> exact ih hissued
      | _ => cases answer <;> exact ih hissued

theorem not_faulted (hsafe : GuildSafe sup env) (hseq : Sequential sup env queue h) :
    (desk h).faulted = false := by
  induction h with
  | nil => rfl
  | cons e h ih =>
      refine Desk.after_calm (ih hseq.tail) ?_
      rintro capability input exc rfl
      have hanswer : Except.error exc = env.publishSuccess h capability input := hseq.genuine.1
      rw [hsafe hseq.permitted] at hanswer
      cases hanswer

/-- What a save does: it files a new record, or moves the stored one on. -/
theorem saved {t : TaskRecord} {answer : Answer (.storeSave t)}
    (hseq : Sequential sup env queue (⟨.storeSave t, answer⟩ :: h)) :
    Created (desk h) t ∨
      ∃ r, stored h t.taskId = some r ∧ (desk h).held = some r ∧ Move (desk h) r t := by
  rcases hseq.permitted with hcreated | ⟨r, hheld, hmove⟩
  · exact .inl hcreated
  · refine .inr ⟨r, ?_, hheld, hmove⟩
    rw [hmove.taskId_eq]
    exact hseq.tail.held_stored hheld

/-- A new record takes no other's place. -/
theorem created_fresh (hunique : UniqueIds env) (hseq : Sequential sup env queue h)
    {t : TaskRecord} (hcreated : Created (desk h) t) : stored h t.taskId = none := by
  obtain ⟨_, _, -, hissued, -⟩ := hcreated
  exact hseq.issued_fresh hunique hissued

/-- Induction over the life of a stored record: it was created, it moved on, or
something else happened. -/
theorem stored_induction {P : Trace → TaskRecord → Prop}
    (hcreated : ∀ h t answer, Sequential sup env queue (⟨.storeSave t, answer⟩ :: h) →
      Created (desk h) t → P (⟨.storeSave t, answer⟩ :: h) t)
    (hmove : ∀ h r t answer, Sequential sup env queue (⟨.storeSave t, answer⟩ :: h) →
      stored h t.taskId = some r → P h r → (desk h).held = some r → Move (desk h) r t →
        P (⟨.storeSave t, answer⟩ :: h) t)
    (hkeep : ∀ h r e, Sequential sup env queue (e :: h) → stored h r.taskId = some r →
      (∀ t, e.call = .storeSave t → t.taskId ≠ r.taskId) → P h r → P (e :: h) r)
    (hseq : Sequential sup env queue h) {taskId : TaskId} {r : TaskRecord}
    (hstored : stored h taskId = some r) : P h r := by
  induction h generalizing taskId r with
  | nil => cases hstored
  | cons e h ih =>
      have hid := stored_keyed hstored
      subst hid
      obtain ⟨c, answer⟩ := e
      by_cases hsave : ∃ t, c = .storeSave t ∧ t.taskId = r.taskId
      · obtain ⟨t, rfl, hid⟩ := hsave
        rw [stored_save, if_pos hid] at hstored
        cases hstored
        rcases hseq.saved with hnew | ⟨old, hold, hheld, hstep⟩
        · exact hcreated h _ answer hseq hnew
        · exact hmove h old _ answer hseq hold (ih hseq.tail hold) hheld hstep
      · have hother : ∀ t, c = .storeSave t → t.taskId ≠ r.taskId :=
          fun t ht hid => hsave ⟨t, ht, hid⟩
        have hbefore : stored h r.taskId = some r := by
          cases c with
          | storeSave t =>
              rwa [stored_save, if_neg (hother t rfl)] at hstored
          | _ => exact hstored
        exact hkeep h r ⟨c, answer⟩ hseq hbefore hother (ih hseq.tail hbefore)

/-- A stored status never goes back: it ranks at least as high as every status
saved before. -/
theorem rank_le_of_saved (hunique : UniqueIds env) (hseq : Sequential sup env queue h)
    {taskId : TaskId} {r : TaskRecord}
    (hstored : stored h taskId = some r) {t : TaskRecord} (hsaved : Saved h t)
    (hid : t.taskId = r.taskId) : t.status.rank ≤ r.status.rank := by
  have hall : ∀ t, Saved h t → t.taskId = r.taskId → t.status.rank ≤ r.status.rank := by
    refine stored_induction (P := fun h r => ∀ t, Saved h t → t.taskId = r.taskId →
      t.status.rank ≤ r.status.rank) ?_ ?_ ?_ hseq hstored
    · intro h new answer hseq hcreated t hsaved hid
      rcases saved_cons.mp hsaved with heq | hsaved
      · cases heq
        exact Nat.le_refl _
      · obtain ⟨r, hr⟩ := hsaved.stored
        rw [hid, hseq.tail.created_fresh hunique hcreated] at hr
        cases hr
    · intro h r new answer hseq _ ih _ hstep t hsaved hid
      rcases saved_cons.mp hsaved with heq | hsaved
      · cases heq
        exact Nat.le_refl _
      · exact (ih t hsaved (hid.trans hstep.taskId_eq)).trans hstep.rank_le
    · intro h r e _ _ hother ih t hsaved hid
      rcases saved_cons.mp hsaved with heq | hsaved
      · exact absurd hid (hother t heq)
      · exact ih t hsaved hid
  exact hall t hsaved hid

end Sequential

end Conductor
