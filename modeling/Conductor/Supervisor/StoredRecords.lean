/-
What the store knows.  In a sequential run the stored record is the one the
supervisor works with wherever it lets somebody else act, and its audit trail
replays to its status.
-/
import Conductor.Supervisor.Sequential

namespace Conductor

open Effects

variable {sup : Supervisor} {env : Env} {queue : TaskQueue} {h : Trace}

/-- What is stored when a call is made: at an execution the running record in
hand, whose input was just validated; at a retry decision the record with the
failure in question; at an event the record it describes; and at the end of an
operation the record it returns. -/
def WrittenAhead (earlier : Trace) : Call → Prop
  | .execute _ task payload context _ =>
      stored earlier task.taskId = some task ∧ task.status = .running ∧
        context.taskId = task.taskId ∧ (desk earlier).validated = some (task.input, payload)
  | .decide task failure => stored earlier task.taskId = some task ∧ FailureRecorded task failure
  | .emit task event => stored earlier task.taskId = some task ∧ Describes event task
  | .left _ (.ok task) => stored earlier task.taskId = some task
  | _ => True

/-- Every call of a sequential run without a guild is written ahead. -/
theorem write_ahead (sup : Supervisor) (env : Env) (queue : TaskQueue) (fuel : Nat)
    (ops : List Operation) (hguild : sup.guildKnowledge = false) :
    ∀ later e earlier, (sup.run env fuel ops (.initial queue)).history = later ++ e :: earlier →
      WrittenAhead earlier e.call := by
  intro later e earlier hsplit
  have hsafe : GuildSafe sup env := fun h => by simp [hguild] at h
  have hrun := run_sequential sup env fuel ops queue
  rw [hsplit] at hrun
  have hhere := hrun.of_append
  have hpermitted := hhere.permitted
  obtain ⟨c, answer⟩ := e
  cases c with
  | execute capability task payload context timeout =>
      obtain ⟨hheld, hunderway, -, -, hvalidated, hcontext⟩ := hpermitted
      exact ⟨hhere.tail.held_stored hheld, hunderway.running (hhere.tail.not_faulted hsafe),
        hcontext, hvalidated⟩
  | decide task failure => exact ⟨hhere.tail.held_stored hpermitted.1, hpermitted.2.2⟩
  | emit task event => exact ⟨hhere.tail.held_stored hpermitted.1, hpermitted.2⟩
  | left op outcome =>
      cases outcome with
      | error e => trivial
      | ok task => exact hhere.tail.held_stored hpermitted.2.1
  | _ => trivial

theorem write_ahead_echo :
    ∃ task earlier, stored earlier "x" = some task ∧ task.status = .running := by
  have hexecuted : (executions echoRun.history).map (·.taskId) = ["x"] := by decide +kernel
  cases htasks : executions echoRun.history with
  | nil => simp [htasks] at hexecuted
  | cons task tasks =>
      obtain ⟨later, earlier, capability, payload, context, timeout, answer, hsplit⟩ :=
        exists_split_of_mem_executions (htasks ▸ List.mem_cons_self : task ∈ _)
      obtain ⟨hstored, hrunning, -⟩ := write_ahead _ _ _ _ _ rfl later _ earlier hsplit
      have hid : task.taskId = "x" := by
        rw [htasks] at hexecuted
        exact (List.cons.inj hexecuted).1
      exact ⟨task, earlier, hid ▸ hstored, hrunning⟩

/-- A status may be followed by this one: it is kept, or an edge leads there. -/
def MayFollow : Option TaskStatus → TaskStatus → Prop
  | none, target => target = .pending
  | some source, target => source = target ∨ source.canBecome target = true

/-- The entries with a `to_status` form a chain from one status to another. -/
def Replays (source : Option TaskStatus) : List AuditEntry → Option TaskStatus → Prop
  | [], target => source = target
  | entry :: rest, target =>
      match entry.toStatus with
      | none => Replays source rest target
      | some status =>
          entry.fromStatus = source ∧ MayFollow source status ∧ Replays (some status) rest target

theorem Replays.append {source middle target : Option TaskStatus}
    {entries rest : List AuditEntry} (hfirst : Replays source entries middle)
    (hrest : Replays middle rest target) : Replays source (entries ++ rest) target := by
  induction entries generalizing source with
  | nil => exact hfirst ▸ hrest
  | cons entry entries ih =>
      rw [List.cons_append, Replays]
      rw [Replays] at hfirst
      split at hfirst
      · exact ih hfirst
      · exact ⟨hfirst.1, hfirst.2.1, ih hfirst.2.2⟩

/-- The audit trail begins with the submission, replays to the status and is in
the order of its timestamps. -/
structure AuditReplays (task : TaskRecord) : Prop where
  submitted : ∃ entry rest, task.auditTrail = entry :: rest ∧ entry.action = "submitted" ∧
    entry.fromStatus = none ∧ entry.toStatus = some .pending
  chain : Replays none task.auditTrail (some task.status)
  ordered : task.auditTrail.Pairwise fun earlier later => earlier.timestamp ≤ later.timestamp

/-- A move extends a trail that replays, given a later timestamp. -/
theorem AuditReplays.move {d : Desk} {r t : TaskRecord} (haudit : AuditReplays r)
    (hmove : Move d r t) (hfaulted : d.faulted = false)
    (hclock : ∀ ts ∈ d.clock, ∀ entry ∈ r.auditTrail, entry.timestamp ≤ ts) :
    AuditReplays t := by
  obtain ⟨entry, htrail, hts, hstatuses⟩ := hmove.audit hfaulted
  refine ⟨?_, ?_, ?_⟩
  · obtain ⟨first, rest, hfirst, hsubmitted⟩ := haudit.submitted
    exact ⟨first, rest ++ [entry], by rw [htrail, hfirst, List.cons_append], hsubmitted⟩
  · rw [htrail]
    refine haudit.chain.append ?_
    rcases hstatuses with ⟨hnone, hsame⟩ | ⟨hfrom, hto⟩
    · simp only [Replays, hnone, hsame]
    · simp only [Replays, hto, hfrom, MayFollow, true_and, and_true]
      exact (hmove.status_step hfaulted).imp_left Eq.symm
  · rw [htrail, List.pairwise_append]
    refine ⟨haudit.ordered, List.pairwise_singleton _ _, ?_⟩
    intro earlier hearlier later hlater
    rw [List.mem_singleton.mp hlater]
    exact hclock _ hts earlier hearlier

/-- The clock never goes back. -/
def ClockForward (env : Env) : Prop :=
  ∀ e h, env.now h ≤ env.now (e :: h)

/-- No stored entry and no reading on the desk is ahead of the clock, and no
reading is behind an entry of the record in hand. -/
structure Timely (env : Env) (d : Desk) (h : Trace) : Prop where
  trail : ∀ taskId r, stored h taskId = some r → ∀ entry ∈ r.auditTrail,
    entry.timestamp ≤ env.now h
  clock : ∀ ts ∈ d.clock, ts ≤ env.now h
  order : ∀ r, d.held = some r → ∀ ts ∈ d.clock, ∀ entry ∈ r.auditTrail, entry.timestamp ≤ ts

namespace Timely

variable {d : Desk}

/-- A call other than a save keeps the store, and time goes on. -/
theorem later (htimely : Timely env d h) (hforward : ClockForward env) {e : Event Call Answer}
    (hsave : ∀ t, e.call ≠ .storeSave t) : Timely env d (e :: h) where
  trail taskId r hstored entry hentry := by
    rw [stored_cons_of_not_save hsave] at hstored
    exact (htimely.trail taskId r hstored entry hentry).trans (hforward e h)
  clock ts hts := (htimely.clock ts hts).trans (hforward e h)
  order := htimely.order

/-- With no readings on it, a desk is as timely as any other. -/
theorem of_clock_nil (htimely : Timely env d h) {d' : Desk} (hclock : d'.clock = []) :
    Timely env d' h where
  trail := htimely.trail
  clock ts hts := by simp [hclock] at hts
  order r _ ts hts := by simp [hclock] at hts

end Timely

theorem Sequential.timely (hforward : ClockForward env) (hsafe : GuildSafe sup env)
    (hseq : Sequential sup env queue h) :
    Timely env (desk h) h := by
  induction h with
  | nil =>
      refine ⟨?_, ?_, ?_⟩
      · rintro taskId r ⟨⟩
      · rintro ts ⟨⟩
      · rintro r ⟨⟩
  | cons e h ih =>
      have ih := ih hseq.tail
      obtain ⟨c, answer⟩ := e
      cases c with
      | entered | left | runTaskEntered => exact (ih.later hforward (by simp)).of_clock_nil rfl
      | now =>
          have hanswer : answer = .ok (env.now h) := hseq.genuine.1
          subst hanswer
          have hlater := ih.later hforward (e := ⟨.now, .ok (env.now h)⟩) (by simp)
          refine ⟨hlater.trail, ?_, ?_⟩
          · intro ts hts
            rcases List.mem_cons.mp hts with rfl | hts
            · exact hforward _ h
            · exact hlater.clock ts hts
          · intro r hheld ts hts
            rcases List.mem_cons.mp hts with rfl | hts
            · exact ih.trail _ r (hseq.tail.held_stored hheld)
            · exact hlater.order r hheld ts hts
      | storeGet taskId =>
          have hlater := ih.later hforward (e := ⟨.storeGet taskId, answer⟩) (by simp)
          rcases answer with e | _ | found
          · exact ⟨hlater.trail, hlater.clock, hlater.order⟩
          · exact ⟨hlater.trail, hlater.clock, hlater.order⟩
          · exact hlater.of_clock_nil rfl
      | storeSave t =>
          have htrail : ∀ entry ∈ t.auditTrail, entry.timestamp ≤ env.now h := by
            rcases hseq.saved with ⟨ts, _, _, _, hts, -, -, htrail⟩ | ⟨r, hr, -, hmove⟩
            · intro entry hentry
              rw [htrail, List.mem_singleton] at hentry
              exact hentry ▸ ih.clock ts hts
            · obtain ⟨new, htrail, hts, -⟩ := hmove.audit (hseq.tail.not_faulted hsafe)
              intro entry hentry
              rw [htrail, List.mem_append, List.mem_singleton] at hentry
              rcases hentry with hold | rfl
              · exact ih.trail _ r hr entry hold
              · exact ih.clock _ hts
          refine ⟨?_, ?_, ?_⟩
          · intro taskId r hstored entry hentry
            rw [stored_save] at hstored
            split at hstored
            · cases hstored
              exact (htrail entry hentry).trans (hforward _ h)
            · exact (ih.trail taskId r hstored entry hentry).trans (hforward _ h)
          · rintro ts ⟨⟩
          · rintro r - ts ⟨⟩
      | _ =>
          have hlater := ih.later hforward (e := ⟨_, answer⟩) (by simp)
          cases answer <;> exact ⟨hlater.trail, hlater.clock, hlater.order⟩

/-- The audit trail replays to the status.  In every state a sequential run
passes through from an empty store, when the clock does not go back and
reporting a success to the guild does not raise, the trail of every stored
record starts with the submission, replays along the edges of the state machine
to the record's status and never goes back in time. -/
theorem audit_trail_replays (sup : Supervisor) (env : Env) (queue : TaskQueue) (fuel : Nat)
    (ops : List Operation) (hforward : ClockForward env) (hsafe : GuildSafe sup env)
    {later earlier : Trace}
    (hsplit : (sup.run env fuel ops (.initial queue)).history = later ++ earlier)
    {taskId : TaskId} {r : TaskRecord} (hstored : stored earlier taskId = some r) :
    AuditReplays r := by
  have hrun := run_sequential sup env fuel ops queue
  rw [hsplit] at hrun
  refine Sequential.stored_induction (P := fun _ r => AuditReplays r) ?_ ?_ ?_
    hrun.of_append hstored
  · rintro h t answer _ ⟨ts, metadata, -, -, -, hpending, -, htrail⟩
    refine ⟨⟨_, _, htrail, rfl, rfl, rfl⟩, ?_, ?_⟩
    · rw [htrail, hpending]
      exact ⟨rfl, rfl, rfl⟩
    · rw [htrail]
      exact List.pairwise_singleton _ _
  · intro h r t answer hseq _ haudit hheld hmove
    exact haudit.move hmove (hseq.tail.not_faulted hsafe)
      ((hseq.tail.timely hforward hsafe).order r hheld)
  · exact fun _ _ _ _ _ _ haudit => haudit

/-- The trail of a completed task. -/
theorem audit_trail_replays_echo :
    ∃ r, echoRun.state.store.get "x" = some r ∧ r.status = .completed ∧ AuditReplays r := by
  have hstatus : (echoRun.state.store.get "x").map (·.status) = some .completed := by
    decide +kernel
  obtain ⟨r, hr, hcompleted⟩ := Option.map_eq_some_iff.mp hstatus
  refine ⟨r, hr, hcompleted, ?_⟩
  rw [echoRun, run_store] at hr
  exact audit_trail_replays _ _ _ _ _ (fun _ h => Nat.le_succ h.length) (fun h => by cases h)
    (List.nil_append _).symm hr

end Conductor
