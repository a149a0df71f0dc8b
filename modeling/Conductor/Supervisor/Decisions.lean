/-
The audit entry of a decision about a parked task.  An approval may run the task
at once, which appends further entries; the entry of the decision comes first.
-/
import Conductor.Effects.Invariant
import Conductor.Supervisor.Atomicity

namespace Conductor

open Effects Block

/-- A move appends one entry. -/
theorem Move.trail {d : Desk} {r t : TaskRecord} (hmove : Move d r t) :
    ∃ entry, t.auditTrail = r.auditTrail ++ [entry] := by
  cases hmove <;> exact ⟨_, rfl⟩

section

variable {sup : Supervisor} {env : Env} {queue : TaskQueue} {taskId : TaskId} {r : TaskRecord}

/-- One call leaves the stored trail of a task a prefix of the next one. -/
theorem Sequential.trail_step (hunique : UniqueIds env) {e : Event Call Answer} {h : Trace}
    (hseq : Sequential sup env queue (e :: h)) (hstored : stored h taskId = some r) :
    ∃ t, stored (e :: h) taskId = some t ∧ r.auditTrail <+: t.auditTrail := by
  obtain ⟨c, answer⟩ := e
  by_cases hsave : ∃ t, c = .storeSave t ∧ t.taskId = taskId
  · obtain ⟨t, hcall, hid⟩ := hsave
    subst hcall
    rw [stored_save, if_pos hid]
    refine ⟨t, rfl, ?_⟩
    rcases hseq.saved with hcreated | ⟨old, hold, -, hmove⟩
    · have hfresh := hseq.tail.created_fresh hunique hcreated
      rw [hid, hstored] at hfresh
      cases hfresh
    · rw [hid, hstored] at hold
      cases hold
      obtain ⟨entry, htrail⟩ := hmove.trail
      rw [htrail]
      exact List.prefix_append _ _
  · refine ⟨r, ?_, List.prefix_refl _⟩
    cases c with
    | storeSave t =>
        rw [stored_save, if_neg fun hid => hsave ⟨t, rfl, hid⟩]
        exact hstored
    | _ => exact hstored

/-- So it is a prefix of every later one. -/
theorem Sequential.trail_grows (hunique : UniqueIds env) {later earlier : Trace}
    (hseq : Sequential sup env queue (later ++ earlier))
    (hstored : stored earlier taskId = some r) :
    ∃ t, stored (later ++ earlier) taskId = some t ∧ r.auditTrail <+: t.auditTrail := by
  induction later with
  | nil => exact ⟨r, hstored, List.prefix_refl _⟩
  | cons e later ih =>
      obtain ⟨t, ht, hprefix⟩ := ih hseq.tail
      obtain ⟨t', ht', hprefix'⟩ := Sequential.trail_step hunique hseq ht
      exact ⟨t', ht', hprefix.trans hprefix'⟩

end

/-- A client calls one more operation. -/
def Supervisor.serve (sup : Supervisor) (env : Env) (fuel : Nat) (op : Operation) (k : State) :
    Option (Except PyExc TaskRecord) × State :=
  let ran := (Prog.call (.entered op) fun _ => (runOperation sup fuel op).run ()).exec
    env.machine k
  (ran.1.map (·.1), ran.2)

section

variable {sup : Supervisor} {env : Env} {queue : TaskQueue} {fuel : Nat}

theorem run_traced (sup : Supervisor) (env : Env) (fuel : Nat) (ops : List Operation)
    (queue : TaskQueue) :
    env.machine.Traced (World.initial queue) (sup.run env fuel ops (.initial queue)) :=
  Prog.exec_traced (client sup fuel ops) ⟨rfl, trivial⟩

theorem stored_of_traced {k : State} (htraced : env.machine.Traced (World.initial queue) k)
    (taskId : TaskId) : k.state.store.get taskId = stored k.history taskId := by
  rw [htraced.1, stateAfter_store]
  rfl

theorem keyed_of_traced {k : State} (htraced : env.machine.Traced (World.initial queue) k) :
    k.state.store.Keyed := by
  rw [htraced.1, stateAfter_store]
  exact storeAfter_keyed MemoryTaskStore.keyed_empty _

theorem serve_traced (sup : Supervisor) (fuel : Nat) (op : Operation) {k : State}
    (htraced : env.machine.Traced (World.initial queue) k) :
    env.machine.Traced (World.initial queue) (sup.serve env fuel op k).2 :=
  Prog.exec_traced _ htraced

theorem serve_sequential (sup : Supervisor) (fuel : Nat) (op : Operation) {k : State}
    (hseq : Sequential sup env queue k.history)
    (htraced : env.machine.Traced (World.initial queue) k) :
    Sequential sup env queue (sup.serve env fuel op k).2.history := by
  constructor
  · apply Prog.exec_lawful (I := fun k => k.state.store.Keyed) (keyed_step env)
      (fun _ c hkeyed => sound_of_keyed env hkeyed c) (keyed_of_traced htraced) _ hseq.lawful
    · exact fun _ _ => True
    · refine ⟨trivial, fun _ _ => ?_⟩
      exact Prog.wp_mono monotone_L (fun _ _ _ => trivial) (runOperation_spec sup fuel op)
  · exact (serve_traced sup fuel op htraced).2

/-- The task was parked, its record was saved with one more audit entry, which
names the actor and the action, and more may have happened since. -/
structure Decided (queue : TaskQueue) (taskId : TaskId) (actor action : String) (env : Env)
    (k k' : State) (r t : TaskRecord) (entry : AuditEntry) : Prop where
  found : k.state.store.get taskId = some r
  trail : t.auditTrail = r.auditTrail ++ [entry]
  actor : entry.actor = actor
  action : entry.action = action
  saved : ∃ later k₁, env.machine.Traced (World.initial queue) k₁ ∧
    k₁.state.store.get taskId = some t ∧ k'.history = later ++ k₁.history

/-- A transition of a record that was read before, up to its save. -/
theorem wp_transition_saved {k₀ k : State} (htraced : env.machine.Traced (World.initial queue) k)
    {taskId : TaskId} {r task : TaskRecord} (hfound : k₀.state.store.get taskId = some r)
    (hid : task.taskId = taskId) (htrail : task.auditTrail = r.auditTrail) (toStatus : TaskStatus)
    (actor action : String) (eventType : EventType) (metadata : Dict) (error : Option String)
    (timestamp : Option Time) :
    (transitionStatus toStatus actor action eventType metadata error timestamp).wp
      (env.machine.logic fun _ => True) (fun _ _ k' => ∃ t entry,
        Decided queue taskId actor action env k₀ k' r t entry) task k := by
  have hwp := wp_transitionStatus_machine env toStatus actor action eventType metadata error
    timestamp task k
  apply wp_mono (env.machine.logic_monotone _) _ (wp_traced htraced (wp_of_total hwp))
  intro outcome t k' hdone
  obtain ⟨⟨ts, hdone⟩, htraced'⟩ := hdone
  have hsaved : k'.state.store.get taskId =
      some (task.transitioned toStatus actor action metadata ts) := by
    rw [hdone.state, MemoryTaskStore.get_save, if_pos]
    exact hid
  refine ⟨_, ⟨ts, actor, action, some task.status, some toStatus, metadata⟩, hfound, ?_, rfl, rfl,
    [], k', htraced', hsaved, rfl⟩
  exact congrArg (· ++ _) htrail

/-- What was decided stays so while the operation goes on. -/
theorem Decided.later {k k₁ k₂ : State} {taskId : TaskId} {actor action : String}
    {r t : TaskRecord} {entry : AuditEntry}
    (hdecided : Decided queue taskId actor action env k k₁ r t entry)
    (hlater : ∃ new, k₂.history = new ++ k₁.history) :
    Decided queue taskId actor action env k k₂ r t entry := by
  obtain ⟨later, k₀, htraced, hstored, hhistory⟩ := hdecided.saved
  obtain ⟨new, hnew⟩ := hlater
  refine ⟨hdecided.found, hdecided.trail, hdecided.actor, hdecided.action, new ++ later, k₀,
    htraced, hstored, ?_⟩
  rw [hnew, hhistory, List.append_assoc]

/-- A decision about a task, with its actor and the action it is recorded as. -/
def Operation.decision : Operation → Option (TaskId × String × String)
  | .approveTask taskId actor _ _ => some (taskId, actor, "approved")
  | .cancelTask taskId actor _ _ => some (taskId, actor, "cancelled")
  | _ => none

/-- An operation that decides and returns has decided. -/
theorem wp_decision (sup : Supervisor) (fuel : Nat) {k : State} (hkeyed : k.state.store.Keyed)
    (htraced : env.machine.Traced (World.initial queue) k) {op : Operation} {taskId : TaskId}
    {actor action : String} (hop : op.decision = some (taskId, actor, action)) :
    (runOperation sup fuel op).wp (env.machine.logic fun _ => True)
      (onReturn fun _ _ k' => ∃ r t entry, Decided queue taskId actor action env k k' r t entry)
      () k := by
  -- The record is looked up first, which leaves the state as it is.
  have hlooked : env.machine.Traced (World.initial queue) (lookedUp k taskId) :=
    htraced.step (.storeGet taskId)
  cases op with
  | approveTask id by_ metadata run =>
      cases hop
      change (approveTask sup fuel taskId actor metadata run).wp _ _ () k
      unfold approveTask
      rw [wp_bind]
      apply wp_of_total
      refine wp_getTask_machine (fun _ _ => trivial) fun task hfound => ?_
      dsimp only
      split
      · rw [wp_bind, wp_on]
        apply wp_mono (env.machine.logic_monotone _) _
          (wp_transition_saved hlooked hfound (hkeyed taskId task hfound) rfl .approved actor
            "approved" .taskApproved (metadata.getD []) none none)
        intro outcome approved k₁ hdone
        obtain ⟨t, entry, hdecided⟩ := hdone
        cases outcome with
        | error e => trivial
        | ok announced =>
            have hlater := wp_history (M := env.machine) (if run then runTask sup fuel taskId
              else do
                ask (.enqueue taskId)
                pure approved) () k₁
            apply wp_mono (env.machine.logic_monotone _) _ hlater
            intro outcome _ k₂ hnew
            cases outcome with
            | error e => trivial
            | ok saved => exact ⟨task, t, entry, hdecided.later hnew⟩
      · trivial
  | cancelTask id by_ reason metadata =>
      cases hop
      change (cancelTask taskId actor reason metadata).wp _ _ () k
      unfold cancelTask
      rw [wp_bind]
      apply wp_of_total
      refine wp_getTask_machine (fun _ _ => trivial) fun task hfound => ?_
      dsimp only
      split
      · have hnow : env.machine.step (lookedUp k taskId) .now = (.ok (env.now _), _) := rfl
        rw [wp_bind, now, wp_ask]
        refine Machine.call_of_step hnow ?_
        dsimp only
        rw [wp_bind, wp_on]
        refine wp_mono (env.machine.logic_monotone _) ?_
          (wp_transition_saved (hlooked.step .now) hfound (by exact hkeyed taskId task hfound)
            (by rfl) .cancelled actor "cancelled" .taskCancelled _ _ _)
        intro outcome _ k₁ hdone
        obtain ⟨t, entry, hdecided⟩ := hdone
        cases outcome with
        | error e => trivial
        | ok announced => exact ⟨task, t, entry, hdecided⟩
      · trivial
  | _ => cases hop

/-- The first entry that the audit trail of the task has gained names this actor
and this action. -/
def Attributed (k k' : State) (taskId : TaskId) (actor action : String) : Prop :=
  ∃ r r' entry rest, k.state.store.get taskId = some r ∧ k'.state.store.get taskId = some r' ∧
    r'.auditTrail = r.auditTrail ++ entry :: rest ∧ entry.actor = actor ∧ entry.action = action

/-- There is one such actor. -/
theorem Attributed.actor_unique {k k' : State} {taskId : TaskId} {actor other action : String}
    (hactor : Attributed k k' taskId actor action) (hother : Attributed k k' taskId other action) :
    actor = other := by
  obtain ⟨r, r', entry, rest, hr, hr', htrail, hentry, -⟩ := hactor
  obtain ⟨s, s', entry', rest', hs, hs', htrail', hentry', -⟩ := hother
  have hsame : r = s := Option.some.inj (hr.symm.trans hs)
  have hsame' : r' = s' := Option.some.inj (hr'.symm.trans hs')
  subst hsame hsame'
  have hentries := List.append_cancel_left (htrail.symm.trans htrail')
  rw [← hentry, ← hentry', (List.cons.inj hentries).1]

/-- A decision that succeeds after a run is recorded under the given actor. -/
theorem serve_attributed (hunique : UniqueIds env) (ops : List Operation) {op : Operation}
    {taskId : TaskId} {actor action : String} (hop : op.decision = some (taskId, actor, action))
    {task : TaskRecord} {k' : State}
    (hserved : sup.serve env fuel op (sup.run env fuel ops (.initial queue)) =
      (some (.ok task), k')) :
    Attributed (sup.run env fuel ops (.initial queue)) k' taskId actor action := by
  have htraced := run_traced sup env fuel ops queue
  have hentered := htraced.step (.entered op)
  have hwp := wp_decision sup fuel (keyed_of_traced hentered) hentered hop
  have hseq := serve_sequential sup fuel op (run_sequential sup env fuel ops queue) htraced
  have htraced' := serve_traced sup fuel op htraced
  rw [hserved] at hseq htraced'
  obtain ⟨r, t, entry, hdecided⟩ : ∃ r t entry, Decided queue taskId actor action env
      (sup.run env fuel ops (.initial queue)) k' r t entry := by
    have hends := ((env.machine.wp_iff_exec _ _ _ _).mp hwp).1
    rw [Supervisor.serve, Prog.exec] at hserved
    cases hexec : ((runOperation sup fuel op).run ()).exec env.machine
        (env.machine.step (sup.run env fuel ops (.initial queue)) (.entered op)).2 with
    | mk ended k₂ =>
        rw [hexec] at hserved
        cases ended with
        | none => cases hserved
        | some ended =>
            obtain ⟨outcome, _⟩ := ended
            cases hserved
            obtain ⟨r, t, entry, hdecided⟩ := hends _ _ hexec
            exact ⟨r, t, entry, hdecided.found, hdecided.trail, hdecided.actor, hdecided.action,
              hdecided.saved⟩
  obtain ⟨later, k₁, htraced₁, hstored, hhistory⟩ := hdecided.saved
  rw [stored_of_traced htraced₁] at hstored
  rw [hhistory] at hseq
  obtain ⟨r', hr', hprefix⟩ := hseq.trail_grows hunique hstored
  obtain ⟨rest, hrest⟩ := hprefix
  rw [← hhistory, ← stored_of_traced htraced'] at hr'
  refine ⟨r, r', entry, rest, hdecided.found, hr', ?_, hdecided.actor, hdecided.action⟩
  rw [← hrest, hdecided.trail, List.append_assoc]
  rfl

end

end Conductor
