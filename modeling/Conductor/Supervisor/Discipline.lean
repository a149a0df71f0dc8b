/-
The supervisor keeps the discipline: from every method, whatever the
collaborators answer, each call is permitted by the calls before it.  One
specification for each method; a caller uses the specifications of the methods
it calls.
-/
import Conductor.Supervisor.Lifecycle
import Conductor.Supervisor.Service

namespace Conductor

open Effects Block

variable {σ α : Type} {x : σ} {d d' d'' : Desk} {task t : TaskRecord} {sup : Supervisor}

namespace Desk

/-- A later desk of the same `run_task` call. -/
structure Extends (d d' : Desk) : Prop where
  operation : d'.operation = d.operation
  running : d'.running = d.running
  entry : d'.entry = d.entry
  saved : ∀ t ∈ d.saved, t ∈ d'.saved
  descriptors : ∀ item ∈ d.descriptors, item ∈ d'.descriptors
  verdicts : ∀ verdict ∈ d.verdicts, verdict ∈ d'.verdicts
  faulted : d.faulted = true → d'.faulted = true

namespace Extends

theorem refl (d : Desk) : d.Extends d :=
  ⟨rfl, rfl, rfl, fun _ h => h, fun _ h => h, fun _ h => h, fun h => h⟩

theorem trans (h : d.Extends d') (h' : d'.Extends d'') : d.Extends d'' where
  operation := h'.operation.trans h.operation
  running := h'.running.trans h.running
  entry := h'.entry.trans h.entry
  saved t ht := h'.saved t (h.saved t ht)
  descriptors item hitem := h'.descriptors item (h.descriptors item hitem)
  verdicts verdict hverdict := h'.verdicts verdict (h.verdicts verdict hverdict)
  faulted hfaulted := h'.faulted (h.faulted hfaulted)

theorem readClock (h : d.Extends d') (ts : Time) : d.Extends (d'.readClock ts) :=
  ⟨h.operation, h.running, h.entry, h.saved, h.descriptors, h.verdicts, h.faulted⟩

theorem wrote (h : d.Extends d') (task : TaskRecord) : d.Extends (d'.wrote task) :=
  ⟨h.operation, h.running, h.entry, fun t ht => List.mem_cons_of_mem _ (h.saved t ht),
    h.descriptors, h.verdicts, h.faulted⟩

theorem checked (h : d.Extends d') (input : Dict) (payload : Value) :
    d.Extends (d'.checked input payload) :=
  ⟨h.operation, h.running, h.entry, h.saved, h.descriptors, h.verdicts, h.faulted⟩

theorem described (h : d.Extends d') (capability : String) (descriptor : CapabilityDescriptor) :
    d.Extends (d'.described capability descriptor) :=
  ⟨h.operation, h.running, h.entry, h.saved,
    fun item hitem => List.mem_cons_of_mem _ (h.descriptors item hitem), h.verdicts, h.faulted⟩

theorem judged (h : d.Extends d') (verdict : Verdict) : d.Extends (d'.judged verdict) :=
  ⟨h.operation, h.running, h.entry, h.saved, h.descriptors,
    fun v hv => List.mem_cons_of_mem _ (h.verdicts v hv), h.faulted⟩

theorem fault (h : d.Extends d') : d.Extends d'.fault :=
  ⟨h.operation, h.running, h.entry, h.saved, h.descriptors, h.verdicts, fun _ => rfl⟩

end Extends

end Desk

theorem Admitted.mono (h : Admitted d task) (hextends : d.Extends d')
    (hid : t.taskId = task.taskId) (hcapability : t.capability = task.capability) :
    Admitted d' t := by
  obtain ⟨hrunning, entry, hentry, hentryId, hsame, hgates⟩ := h
  refine ⟨by rw [hextends.running, hrunning, hid], entry, by rw [hextends.entry, hentry],
    by rw [hentryId, hid], by rw [hsame, hcapability], ?_⟩
  rcases hgates with happroved | ⟨hpending, ⟨descriptor, hmem, hflag⟩, verdict, hverdict, hallowed⟩
  · exact .inl happroved
  · refine .inr ⟨hpending, ⟨descriptor, ?_, hflag⟩, verdict, hextends.verdicts _ hverdict, ?_⟩
    · rw [hcapability]
      exact hextends.descriptors _ hmem
    · rw [hid, hcapability]
      exact hallowed

theorem Underway.mono (h : Underway d task) (hextends : d.Extends d')
    (hid : t.taskId = task.taskId) (hstatus : t.status = task.status) : Underway d' t := by
  obtain ⟨⟨run, hrun, hrunId, hrunning⟩, hwork⟩ := h
  refine ⟨⟨run, hextends.saved run hrun, hrunId.trans hid.symm, hrunning⟩, ?_⟩
  rw [hstatus]
  exact hwork.imp_right fun hcompleted => ⟨hcompleted.1, hextends.faulted hcompleted.2⟩

/-- The task in hand is stored, admitted and running. -/
structure AtWork (d : Desk) (task : TaskRecord) : Prop where
  held : d.held = some task
  admitted : Admitted d task
  underway : Underway d task

theorem AtWork.mono (h : AtWork d task) (hextends : d.Extends d')
    (hheld : d'.held = some t) (hid : t.taskId = task.taskId)
    (hcapability : t.capability = task.capability) (hstatus : t.status = task.status) :
    AtWork d' t :=
  ⟨hheld, h.admitted.mono hextends hid hcapability, h.underway.mono hextends hid hstatus⟩

/-- The logic of the discipline, for a supervisor with or without a guild
knowledge base. -/
abbrev L (sup : Supervisor) : Logic Desk Call Answer := (discipline sup.guildKnowledge).logic

theorem monotone_L : (L sup).Monotone := (discipline sup.guildKnowledge).logic_monotone

@[simp] theorem call_L (c : Call) (post : Answer c → Desk → Prop) :
    (L sup).call d c post =
      (Permitted sup.guildKnowledge d c ∧
        ∀ answer, Sound c answer → post answer (d.after c answer)) := rfl

@[simp] theorem outOfFuel_L : (L sup).outOfFuel d = True := rfl

@[simp] theorem wp_now (post : Except PyExc Time → σ → Desk → Prop) :
    (now : Block Call Response PyExc σ Time).wp (L sup) post x d =
      ∀ ts, post (.ok ts) x (d.readClock ts) := by
  simp only [now, wp_ask, call_L, Permitted, Sound, true_and, eq_iff_iff]
  constructor
  · intro h ts
    exact h (.ok ts) ⟨ts, rfl⟩
  · rintro h answer ⟨ts, rfl⟩
    exact h ts

@[simp] theorem wp_storeSave
    (post : Except PyExc (Response (.storeSave task)) → σ → Desk → Prop) :
    @Block.wp Call Response PyExc σ (no_index (Response (.storeSave task))) Desk (L sup)
        (ask (.storeSave task)) post x d =
      (Permitted sup.guildKnowledge d (.storeSave task) ∧ post (.ok ()) x (d.wrote task)) := by
  simp only [wp_ask, call_L, Sound, eq_iff_iff]
  constructor
  · exact fun h => ⟨h.1, h.2 (.ok ()) rfl⟩
  · rintro ⟨hpermitted, hpost⟩
    exact ⟨hpermitted, by rintro answer rfl; exact hpost⟩

theorem Permitted.move {r : TaskRecord} (hheld : d.held = some r) (hmove : Move d r t) :
    Permitted sup.guildKnowledge d (.storeSave t) :=
  .inr ⟨r, hheld, hmove⟩

/-- Emitting never disturbs the desk, and lets through only what `except
Exception` lets through. -/
theorem wp_emitEvent {post : Except PyExc Unit → TaskRecord → Desk → Prop}
    {eventType : EventType} {error : Option String} {metadata : Dict}
    (hheld : d.held = some task)
    (hpost : ∀ outcome ts, (∀ e, outcome = .error e → e.isException = false) →
      post outcome task (d.readClock ts)) :
    (emitEvent eventType error metadata).wp (L sup) post task d := by
  simp only [emitEvent, wp_tryExcept, wp_bind, wp_now, wp_object, wp_ask, call_L]
  intro ts
  refine ⟨⟨hheld, rfl, rfl, rfl, rfl, rfl, rfl⟩, ?_⟩
  intro answer _
  cases answer with
  | ok value => exact hpost (.ok value) ts (by simp)
  | error e =>
      dsimp only
      split
      · exact hpost (.ok ()) ts (by simp)
      · rename_i hcatch
        refine hpost (.error e) ts ?_
        rintro e' ⟨⟩
        simpa using hcatch

theorem wp_transitionStatus {post : Except PyExc Unit → TaskRecord → Desk → Prop}
    {toStatus : TaskStatus} {actor action : String} {eventType : EventType}
    {metadata : Dict} {error : Option String} {ts : Time}
    (hpermitted : Permitted sup.guildKnowledge d
      (.storeSave (task.transitioned toStatus actor action metadata ts)))
    (hpost : ∀ outcome ts', (∀ e, outcome = .error e → e.isException = false) →
      post outcome (task.transitioned toStatus actor action metadata ts)
        ((d.wrote (task.transitioned toStatus actor action metadata ts)).readClock ts')) :
    (transitionStatus toStatus actor action eventType metadata error (some ts)).wp
      (L sup) post task d := by
  simp only [transitionStatus, appendAudit, saveTask, timestampOrNow, wp_bind, wp_pure,
    wp_object, wp_mutate, wp_storeSave]
  exact ⟨hpermitted, wp_emitEvent rfl hpost⟩

theorem wp_transitionStatus_none {post : Except PyExc Unit → TaskRecord → Desk → Prop}
    {toStatus : TaskStatus} {actor action : String} {eventType : EventType}
    {metadata : Dict} {error : Option String}
    (h : ∀ ts, (transitionStatus toStatus actor action eventType metadata error (some ts)).wp
      (L sup) post task (d.readClock ts)) :
    (transitionStatus toStatus actor action eventType metadata error none).wp (L sup)
      post task d := by
  simp only [transitionStatus, timestampOrNow, wp_bind, wp_now]
  intro ts
  simpa only [transitionStatus, timestampOrNow, wp_bind, wp_pure] using h ts

/-- A block that returns with the object and the desk as they were. -/
def Aside (sup : Supervisor) (m : Block Call Response PyExc σ α) : Prop :=
  ∀ x d, m.wp (L sup) (onReturn fun _ y d' => x = y ∧ d = d') x d

namespace Aside

variable {β : Type}

theorem pure (value : α) : Aside sup (Pure.pure value : Block Call Response PyExc σ α) :=
  fun _ _ => ⟨rfl, rfl⟩

theorem object : Aside sup (Block.object : Block Call Response PyExc σ σ) :=
  fun _ _ => ⟨rfl, rfl⟩

theorem ofExcept (result : Except PyExc α) :
    Aside sup (Block.ofExcept result : Block Call Response PyExc σ α) := by
  intro x d
  rw [wp_ofExcept]
  cases result with
  | error e => trivial
  | ok value => exact ⟨rfl, rfl⟩

theorem ask {c : Call} (hquiet : c.quiet = true) :
    Aside sup (Conductor.ask c : Block Call Response PyExc σ (Response c)) := by
  intro x d
  rw [wp_ask, call_L]
  refine ⟨Call.permitted_of_quiet hquiet _ d, ?_⟩
  intro answer _
  rw [Call.after_of_quiet hquiet]
  cases answer with
  | error e => trivial
  | ok value => exact ⟨rfl, rfl⟩

theorem bind {m : Block Call Response PyExc σ α} {f : α → Block Call Response PyExc σ β}
    (hm : Aside sup m) (hf : ∀ value, Aside sup (f value)) : Aside sup (m >>= f) := by
  intro x d
  refine wp_seq monotone_L (hm x d) ?_
  rintro value _ _ ⟨rfl, rfl⟩
  exact hf value x d

end Aside

theorem publishFailures_aside (sup : Supervisor) (history : List FailureContext)
    (hint : String) : Aside sup (publishFailures sup history hint) := by
  unfold publishFailures
  split
  · rename_i hguild
    refine .bind .object fun task => ?_
    intro x d
    rw [wp_ask, call_L]
    refine ⟨hguild, ?_⟩
    rintro (e | published) -
    · trivial
    · exact ⟨rfl, rfl⟩
  · exact .pure ()

theorem buildEscalationRecord_aside (sup : Supervisor) (history : List FailureContext) :
    Aside sup (buildEscalationRecord sup history) := by
  unfold buildEscalationRecord
  split
  · exact .bind .object fun _ => .bind (.ask rfl) fun _ => .pure _
  · exact .pure none

theorem policyEscalates_aside (sup : Supervisor) (history : List FailureContext) :
    Aside sup (policyEscalates sup history) := by
  unfold policyEscalates
  split
  · exact .bind .object fun _ => .ask rfl
  · exact .pure false

theorem escalates_aside (sup : Supervisor) (decision : RetryDecision)
    (history : List FailureContext) : Aside sup (escalates sup decision history) := by
  unfold escalates
  split
  · exact .pure true
  · exact policyEscalates_aside sup history

theorem retryDelay_aside (sup : Supervisor) (decision : RetryDecision) :
    Aside sup (retryDelay decision) := by
  unfold retryDelay
  split
  · split
    · exact .ask rfl
    · exact .pure ()
  · exact .pure ()

theorem waitForExecutionWindow_aside (sup : Supervisor) (capability : String) :
    Aside sup (waitForExecutionWindow (σ := σ) sup capability) := by
  unfold waitForExecutionWindow
  refine .bind (.ofExcept _) fun controls => ?_
  split
  · exact .pure ()
  · refine .bind (.ask rfl) fun now => .bind (.ask rfl) fun previousStart => ?_
    split
    · exact .ask rfl
    · dsimp only
      split
      · exact .bind (.ask rfl) fun _ => .bind (.ask rfl) fun _ => .ask rfl
      · exact .ask rfl

/-! ### One attempt -/

variable {capability : String} {controls : CapabilityExecutionControls}
  {startedAt : Time}

theorem attempt_spec (hwork : AtWork d task) :
    (attempt sup task.capability controls startedAt).wp (L sup)
      (fun outcome t d' => d.Extends d' ∧ t.capability = task.capability ∧ match outcome with
        | .ok _ => d'.held = some t
        | .error e => e.isException = true → AtWork d' t)
      task d := by
  simp only [attempt, wp_bind, wp_object, wp_ask, call_L, wp_now, wp_mutate]
  refine ⟨trivial, ?_⟩
  rintro (e | payload) -
  · exact ⟨.refl d, trivial, fun _ => hwork⟩
  have hchecked : d.Extends (d.checked task.input payload) := (Desk.Extends.refl d).checked _ _
  refine ⟨⟨hwork.held, hwork.underway, hwork.admitted, rfl, rfl, rfl⟩, ?_⟩
  rintro (e | result) -
  · exact ⟨hchecked, trivial, fun _ => hwork.mono hchecked hwork.held rfl rfl rfl⟩
  intro completedAt
  refine wp_transitionStatus
    (.move hwork.held (.completed _ _ _ hwork.underway List.mem_cons_self)) ?_
  intro outcome ts houtcome
  have hcompleted := ((hchecked.readClock completedAt).wrote
    ({ task with result := some ⟨true, result.output, none, result.metadata, some startedAt,
        some completedAt⟩ }.transitioned .completed "supervisor" "completed"
      [("attempt", .int task.attempt)] completedAt)).readClock ts
  cases outcome with
  | error e => exact ⟨hcompleted, rfl, fun hcaught => by simp [houtcome e rfl] at hcaught⟩
  | ok value =>
      dsimp only
      split
      · rename_i hguild
        simp only [wp_bind, wp_object, wp_ask, call_L]
        refine ⟨hguild, ?_⟩
        rintro (e | reported) -
        · -- the task is stored as completed, and the loop takes it up again
          refine ⟨hcompleted.fault, rfl, fun _ => ⟨rfl, ?_, ?_⟩⟩
          · exact hwork.admitted.mono hcompleted.fault rfl rfl
          · obtain ⟨run, hrun, hrunning⟩ := hwork.underway.1
            exact ⟨⟨run, hcompleted.saved run hrun, hrunning⟩, .inr ⟨rfl, rfl⟩⟩
        · exact ⟨hcompleted, rfl, rfl⟩
      · exact ⟨hcompleted, rfl, rfl⟩

theorem recordFailure_spec {exc : PyExc} (hwork : AtWork d task) :
    (recordFailure sup exc).wp (L sup) (onReturn fun failure t d' =>
      d.Extends d' ∧ t.capability = task.capability ∧ AtWork d' t ∧ FailureRecorded t failure)
      task d := by
  simp only [recordFailure, appendAudit, saveTask, timestampOrNow, wp_bind, wp_object,
    wp_ofExcept, wp_now, wp_mutate]
  cases inputFingerprint sup.sha256Hex task.input with
  | error e => trivial
  | ok fingerprint =>
      cases exc.str with
      | error e => trivial
      | ok message =>
          intro ts saved
          simp only [wp_storeSave, wp_pure]
          have hextends := ((Desk.Extends.refl d).readClock ts).readClock saved
          refine ⟨.move hwork.held (.failureRecorded _ _ _ (hwork.underway.mono hextends rfl rfl)
            ?_ ?_), ?_⟩
          · exact List.mem_cons_of_mem _ List.mem_cons_self
          · exact List.mem_cons_self
          · exact ⟨hextends.wrote _, rfl, hwork.mono (hextends.wrote _) rfl rfl rfl rfl,
              rfl, rfl, _, _, rfl⟩

theorem doEscalate_spec {r : TaskRecord} {attempt : Int} {input : Dict}
    {history : List FailureContext} {exc : PyExc} {reason : Option String}
    (hwork : AtWork d r) (htask : task = { r with attempt := attempt, input := input }) :
    (doEscalate sup history startedAt exc reason).wp (L sup) (onReturn fun _ t d' =>
      d.Extends d' ∧ d'.held = some t) task d := by
  subst htask
  unfold doEscalate
  rw [wp_bind, wp_now]
  intro escalatedAt
  have hnow := (Desk.Extends.refl d).readClock escalatedAt
  refine wp_seq monotone_L (buildEscalationRecord_aside _ _ _ _) ?_
  rintro record _ _ ⟨rfl, rfl⟩
  simp only [wp_bind, wp_ofExcept]
  cases exc.str with
  | error e => trivial
  | ok error =>
      simp only [wp_mutate, wp_object]
      refine wp_transitionStatus (.move hwork.held
        (.escalated _ _ _ _ _ (hwork.underway.mono hnow rfl rfl) List.mem_cons_self)) ?_
      intro outcome ts _
      cases outcome with
      | error e => trivial
      | ok value =>
          refine wp_onReturn_mono monotone_L ?_ (publishFailures_aside _ _ _ _ _)
          rintro _ _ _ ⟨rfl, rfl⟩
          exact ⟨(hnow.wrote _).readClock ts, rfl⟩

theorem failTask_spec {history : List FailureContext} {exc : PyExc} (hwork : AtWork d task) :
    (failTask sup history startedAt exc).wp (L sup) (onReturn fun _ t d' =>
      d.Extends d' ∧ d'.held = some t) task d := by
  unfold failTask
  refine wp_seq monotone_L (publishFailures_aside _ _ _ _ _) ?_
  rintro _ _ _ ⟨rfl, rfl⟩
  rw [wp_bind, wp_now]
  intro failedAt
  have hnow := (Desk.Extends.refl d).readClock failedAt
  simp only [wp_bind, wp_ofExcept]
  cases exc.str with
  | error e => trivial
  | ok error =>
      simp only [wp_mutate, wp_object]
      refine wp_transitionStatus (.move hwork.held
        (.failed _ _ _ (hwork.underway.mono hnow rfl rfl) List.mem_cons_self)) ?_
      intro outcome ts _
      cases outcome with
      | error e => trivial
      | ok value => exact ⟨(hnow.wrote _).readClock ts, rfl⟩

/-- What holds after a round of the loop: unless the task has been put away, it
is still being worked on. -/
def AfterRound (d : Desk) (capability : String) (flow : Flow) (t : TaskRecord)
    (d' : Desk) : Prop :=
  d.Extends d' ∧ match flow with
    | .stop none _ => d'.held = some t
    | _ => AtWork d' t ∧ t.capability = capability

theorem giveUp_spec {exc : PyExc} {history : List FailureContext} {decision : RetryDecision}
    (hwork : AtWork d task) :
    (giveUp sup startedAt exc history decision).wp (L sup)
      (onReturn (AfterRound d task.capability)) task d := by
  unfold giveUp
  refine wp_seq monotone_L (escalates_aside _ _ _ _ _) ?_
  rintro escalate _ _ ⟨rfl, rfl⟩
  split
  · refine wp_seq monotone_L (doEscalate_spec hwork rfl) ?_
    rintro _ t d' hescalated
    exact hescalated
  · exact ⟨.refl _, hwork, rfl⟩

theorem retry_spec {exc : PyExc} {history : List FailureContext} {decision : RetryDecision}
    (hwork : AtWork d task) :
    (retry sup startedAt exc history decision).wp (L sup)
      (onReturn (AfterRound d task.capability)) task d := by
  unfold retry
  rw [wp_bind, wp_mutate]
  refine wp_seq monotone_L (policyEscalates_aside _ _ _ _) ?_
  rintro escalate _ _ ⟨rfl, rfl⟩
  split
  · refine wp_seq monotone_L (doEscalate_spec hwork rfl) ?_
    rintro _ t d' hescalated
    exact hescalated
  · simp only [wp_bind, wp_object, wp_ofExcept, appendAudit, saveTask, timestampOrNow, wp_now,
      wp_mutate]
    cases exc.str with
    | error e => trivial
    | ok error =>
        intro ts saved
        have hclock := ((Desk.Extends.refl d).readClock ts).readClock saved
        rw [wp_storeSave]
        refine ⟨.move hwork.held (.retried _ _ _ _ (hwork.underway.mono hclock rfl rfl) ?_ ?_), ?_⟩
        · exact List.mem_cons_of_mem _ List.mem_cons_self
        · exact List.mem_cons_self
        refine wp_emitEvent rfl ?_
        intro outcome ts' _
        cases outcome with
        | error e => trivial
        | ok value =>
            refine wp_mono monotone_L ?_ (retryDelay_aside _ _ _ _)
            rintro (e | slept) _ _ hslept
            · trivial
            obtain ⟨rfl, rfl⟩ := hslept
            refine ⟨(hclock.wrote _).readClock ts', ?_, rfl⟩
            exact hwork.mono ((hclock.wrote _).readClock ts') rfl rfl rfl rfl

theorem handleFailure_spec {exc : PyExc} {history : List FailureContext}
    (hwork : AtWork d task) :
    (handleFailure sup startedAt history exc).wp (L sup)
      (onReturn (AfterRound d task.capability)) task d := by
  unfold handleFailure
  refine wp_seq monotone_L (recordFailure_spec hwork) ?_
  rintro failure t d' ⟨hextends, hcapability, hrecorded, hstored⟩
  simp only [wp_bind, wp_object, wp_ask, call_L]
  refine ⟨⟨hrecorded.held, hrecorded.underway, hstored⟩, ?_⟩
  rintro (e | decision) -
  · trivial
  have hround : ∀ flow t' d'', AfterRound d' t.capability flow t' d'' →
      AfterRound d task.capability flow t' d'' := by
    rintro flow t' d'' ⟨hlater, hflow⟩
    exact ⟨hextends.trans hlater, hcapability ▸ hflow⟩
  dsimp only
  split
  · exact wp_onReturn_mono monotone_L hround (retry_spec hrecorded)
  · exact wp_onReturn_mono monotone_L hround (giveUp_spec hrecorded)

theorem attemptRound_spec {history : List FailureContext} (hwork : AtWork d task) :
    (attemptRound sup task.capability controls startedAt history).wp (L sup)
      (onReturn (AfterRound d task.capability)) task d := by
  simp only [attemptRound, wp_tryExcept, wp_bind, wp_pure]
  refine wp_mono monotone_L ?_ (attempt_spec hwork)
  rintro outcome t d' ⟨hextends, hcapability, hattempt⟩
  cases outcome with
  | ok value => exact ⟨hextends, hattempt⟩
  | error e =>
      dsimp only
      split
      · rename_i hcaught
        refine wp_onReturn_mono monotone_L ?_ (handleFailure_spec (hattempt hcaught))
        rintro flow t' d'' ⟨hlater, hflow⟩
        exact ⟨hextends.trans hlater, hcapability ▸ hflow⟩
      · trivial

/-! ### The loop and what surrounds it -/

theorem attemptLoop_spec {history : List FailureContext} (fuel : Nat) (hwork : AtWork d task)
    (hcapability : task.capability = capability) :
    (attemptLoop sup capability controls startedAt fuel history).wp (L sup)
      (onReturn fun ended t d' => AfterRound d capability (.stop ended.1 ended.2) t d')
      task d := by
  induction fuel generalizing d task history with
  | zero => trivial
  | succ fuel ih =>
      rw [attemptLoop]
      subst hcapability
      refine wp_seq monotone_L (attemptRound_spec hwork) ?_
      rintro flow t d' ⟨hextends, hflow⟩
      cases flow with
      | stop lastExc history => exact ⟨hextends, hflow⟩
      | again history =>
          refine wp_onReturn_mono monotone_L ?_ (ih hflow.1 hflow.2)
          rintro ended t' d'' ⟨hlater, hended⟩
          exact ⟨hextends.trans hlater, hended⟩

theorem runAttempts_spec {fuel : Nat} (hwork : AtWork d task) :
    (runAttempts sup fuel task.capability controls startedAt).wp (L sup)
      (onReturn fun _ t d' => d.Extends d' ∧ d'.held = some t) task d := by
  unfold runAttempts
  refine wp_seq monotone_L (attemptLoop_spec fuel hwork rfl) ?_
  rintro ⟨lastExc, history⟩ t d' ⟨hextends, hended⟩
  cases lastExc with
  | none => exact ⟨hextends, hended⟩
  | some exc =>
      refine wp_onReturn_mono monotone_L ?_ (failTask_spec hended.1)
      rintro _ t' d'' ⟨hlater, hheld⟩
      exact ⟨hextends.trans hlater, hheld⟩

theorem applyPeerSuggestion_spec (hheld : d.held = some task) (hadmitted : Admitted d task)
    (hstatus : task.status = .pending ∨ task.status = .approved) :
    (applyPeerSuggestion sup).wp (L sup) (onReturn fun _ t d' =>
      d.Extends d' ∧ d'.held = some t ∧ t.taskId = task.taskId ∧
        t.capability = task.capability ∧ t.status = task.status) task d := by
  unfold applyPeerSuggestion
  split
  · rw [wp_bind, wp_object]
    refine wp_seq monotone_L (Aside.ask rfl _ _) ?_
    rintro suggestions _ _ ⟨rfl, rfl⟩
    cases suggestions with
    | nil => exact ⟨.refl d, hheld, rfl, rfl, rfl⟩
    | cons best rest =>
        simp only [wp_bind, wp_mutate, appendAudit, saveTask, timestampOrNow, wp_now, wp_object]
        intro ts saved
        have hclock := ((Desk.Extends.refl d).readClock ts).readClock saved
        rw [wp_storeSave]
        refine ⟨.move hheld (.suggested (task.input.update best.approachAdjustment) _ ts saved
          (hadmitted.mono hclock rfl rfl) hstatus ?_ ?_), ?_⟩
        · exact List.mem_cons_of_mem _ List.mem_cons_self
        · exact List.mem_cons_self
        · exact ⟨hclock.wrote _, rfl, rfl, rfl, rfl⟩
  · exact ⟨.refl d, hheld, rfl, rfl, rfl⟩

theorem startTask_spec (hheld : d.held = some task) (hadmitted : Admitted d task)
    (hstatus : task.status = .pending ∨ task.status = .approved) :
    (startTask sup).wp (L sup) (onReturn fun _ t d' =>
      d.Extends d' ∧ AtWork d' t ∧ t.capability = task.capability) task d := by
  unfold startTask
  rw [wp_bind, wp_object]
  refine wp_seq monotone_L (Aside.ofExcept _ _ _) ?_
  rintro controls _ _ ⟨rfl, rfl⟩
  refine wp_seq monotone_L (waitForExecutionWindow_aside _ _ _ _) ?_
  rintro _ _ _ ⟨rfl, rfl⟩
  simp only [wp_bind, wp_now, wp_mutate, wp_object]
  intro startedAt
  have hclock := (Desk.Extends.refl d).readClock startedAt
  refine wp_transitionStatus (.move hheld
    (.started _ _ (hadmitted.mono hclock rfl rfl) hstatus List.mem_cons_self)) ?_
  intro outcome ts _
  cases outcome with
  | error e => trivial
  | ok value =>
      refine ⟨(hclock.wrote _).readClock ts, ⟨rfl, ?_, ?_⟩, rfl⟩
      · exact hadmitted.mono ((hclock.wrote _).readClock ts) rfl rfl
      · exact ⟨⟨_, List.mem_cons_self, rfl, rfl⟩, .inl rfl⟩

/-- What holds when `run_task` is done with the record. -/
def Stored (d : Desk) (t : TaskRecord) (d' : Desk) : Prop :=
  d.Extends d' ∧ d'.held = some t

theorem executeTask_spec {fuel : Nat} (hheld : d.held = some task) (hadmitted : Admitted d task)
    (hstatus : task.status = .pending ∨ task.status = .approved) :
    (executeTask sup fuel task.capability).wp (L sup)
      (onReturn fun _ t d' => Stored d t d') task d := by
  unfold executeTask
  refine wp_seq monotone_L (applyPeerSuggestion_spec hheld hadmitted hstatus) ?_
  rintro _ t d₁ ⟨hsuggested, hheld₁, hid, hcapability, hsame⟩
  refine wp_seq monotone_L (startTask_spec hheld₁ (hadmitted.mono hsuggested hid hcapability)
    (hsame ▸ hstatus)) ?_
  rintro started t₂ d₂ ⟨hstarted, hwork, hcapability₂⟩
  rw [← hcapability, ← hcapability₂]
  refine wp_onReturn_mono monotone_L ?_ (runAttempts_spec hwork)
  rintro _ t₃ d₃ ⟨hran, hheld₃⟩
  exact ⟨(hsuggested.trans hstarted).trans hran, hheld₃⟩

/-- `run_task` has read the record it was called for. -/
structure Entered (d : Desk) (task : TaskRecord) : Prop where
  held : d.held = some task
  running : d.running = some task.taskId
  entry : d.entry = some task

theorem applyPolicy_spec {decision : PolicyDecision} {r : TaskRecord} (hentered : Entered d r)
    (hstatus : r.status = .pending)
    (hungated : ∃ descriptor, (r.capability, descriptor) ∈ d.descriptors ∧
      descriptor.requireApproval = false)
    (hverdict : ∃ verdict ∈ d.verdicts, verdict.task = r ∧ verdict.decision = decision) :
    (applyPolicy sup decision).wp (L sup) (onReturn fun _ t d' =>
      Stored d t d' ∧ t.capability = r.capability ∧
        (t.status = .pending → Admitted d' t)) r d := by
  obtain ⟨verdict, hmem, hon, hdecision⟩ := hverdict
  unfold applyPolicy
  dsimp only
  split
  · simp only [wp_bind, wp_now, wp_mutate]
    intro deniedAt
    have hclock := (Desk.Extends.refl d).readClock deniedAt
    refine wp_transitionStatus (.move hentered.held (.denied _ _ _ hstatus List.mem_cons_self)) ?_
    intro outcome ts _
    cases outcome with
    | error e => trivial
    | ok value => exact ⟨⟨(hclock.wrote _).readClock ts, rfl⟩, rfl, nofun⟩
  · rename_i happroval
    refine wp_transitionStatus_none fun ts => ?_
    have hclock := (Desk.Extends.refl d).readClock ts
    refine wp_transitionStatus (.move hentered.held (.parked _ _ _ hstatus
      ⟨hentered.running, .inr ⟨verdict, hmem, hon, hdecision ▸ happroval⟩⟩ List.mem_cons_self)) ?_
    intro outcome ts' _
    cases outcome with
    | error e => trivial
    | ok value => exact ⟨⟨(hclock.wrote _).readClock ts', rfl⟩, rfl, nofun⟩
  · rename_i hallowed
    simp only [wp_bind, appendAudit, saveTask, timestampOrNow, wp_now, wp_mutate, wp_object]
    intro ts saved
    have hclock := ((Desk.Extends.refl d).readClock ts).readClock saved
    rw [wp_storeSave]
    refine ⟨.move hentered.held (.allowed _ _ _ hstatus ?_ ?_), ?_⟩
    · exact List.mem_cons_of_mem _ List.mem_cons_self
    · exact List.mem_cons_self
    refine ⟨⟨hclock.wrote _, rfl⟩, rfl, fun _ => ?_⟩
    refine ⟨hentered.running, r, hentered.entry, rfl, rfl,
      .inr ⟨hstatus, hungated, verdict, hmem, ?_⟩⟩
    exact ⟨by rw [hon], by rw [hon], hdecision ▸ hallowed⟩

/-! ### `run_task` and the other operations -/

/-- Asking a capability for its descriptor puts it on the desk. -/
theorem descriptor_spec :
    (ask (.descriptor capability) : Block Call Response PyExc σ CapabilityDescriptor).wp (L sup)
      (onReturn fun descriptor y d' => x = y ∧ d' = d.described capability descriptor) x d := by
  rw [wp_ask, call_L]
  refine ⟨trivial, ?_⟩
  rintro (e | descriptor) -
  · trivial
  · exact ⟨rfl, rfl⟩

theorem gatePending_spec (hentered : Entered d task) (hstatus : task.status = .pending) :
    (gatePending sup task.capability).wp (L sup) (onReturn fun _ t d' =>
      Stored d t d' ∧ t.capability = task.capability ∧
        (t.status = .pending → Admitted d' t)) task d := by
  unfold gatePending
  refine wp_seq monotone_L descriptor_spec ?_
  rintro descriptor _ _ ⟨rfl, rfl⟩
  have hfirst := (Desk.Extends.refl d).described task.capability descriptor
  split
  · rename_i hflag
    rw [wp_bind, wp_object]
    refine wp_transitionStatus_none fun ts => ?_
    refine wp_transitionStatus (.move hentered.held (.parked _ _ _ hstatus
      ⟨hentered.running, .inl ⟨descriptor, List.mem_cons_self, hflag⟩⟩ List.mem_cons_self)) ?_
    intro outcome ts' _
    cases outcome with
    | error e => trivial
    | ok value => exact ⟨⟨((hfirst.readClock ts).wrote _).readClock ts', rfl⟩, rfl, nofun⟩
  · rename_i hflag
    refine wp_seq monotone_L descriptor_spec ?_
    rintro current _ _ ⟨rfl, rfl⟩
    have hsecond := hfirst.described task.capability current
    simp only [wp_bind, wp_object, wp_ask, call_L]
    refine ⟨⟨hentered.held, List.mem_cons_self⟩, ?_⟩
    rintro (e | decision) -
    · trivial
    have hjudged := hsecond.judged ⟨task, ⟨current, sup.workdir⟩, decision⟩
    refine wp_onReturn_mono monotone_L ?_ (applyPolicy_spec
      ⟨hentered.held, hentered.running, hentered.entry⟩ hstatus
      ⟨descriptor, List.mem_cons_of_mem _ List.mem_cons_self, by simpa using hflag⟩
      ⟨_, List.mem_cons_self, rfl, rfl⟩)
    rintro _ t d' ⟨⟨hextends, hheld⟩, hrest⟩
    exact ⟨⟨hjudged.trans hextends, hheld⟩, hrest⟩

/-- A submission resolves to the capability it names. -/
theorem validateTaskSubmission_spec {submission : TaskSubmission} :
    (validateTaskSubmission sup submission).wp (L sup) (onReturn fun capability y d' =>
      capability = submission.capability ∧ x = y ∧
        ∃ payload, d' = d.checked submission.input payload) x d := by
  refine wp_validateTaskSubmission (fun _ _ => trivial) fun _ => ?_
  rw [call_L]
  refine ⟨trivial, ?_⟩
  rintro (e | payload) -
  · trivial
  · exact ⟨rfl, rfl, payload, rfl⟩

theorem runLoadedTask_spec {fuel : Nat} (hentered : Entered d task) :
    (runLoadedTask sup fuel).wp (L sup) (onReturn fun _ t d' => Stored d t d') task d := by
  unfold runLoadedTask
  rw [wp_bind, wp_object]
  dsimp only
  split
  · rename_i hpending
    refine wp_seq monotone_L validateTaskSubmission_spec ?_
    rintro _ _ _ ⟨rfl, rfl, payload, rfl⟩
    have hchecked := (Desk.Extends.refl d).checked task.input payload
    refine wp_seq monotone_L (gatePending_spec
      ⟨hentered.held, hentered.running, hentered.entry⟩ hpending) ?_
    rintro _ t d' ⟨⟨hextends, hheld⟩, hcapability, hadmitted⟩
    rw [wp_bind, wp_object]
    dsimp only
    split
    · rename_i hstill
      refine wp_onReturn_mono monotone_L ?_
        (hcapability ▸ executeTask_spec hheld (hadmitted hstill) (.inl hstill))
      rintro _ t' d'' ⟨hlater, hheld'⟩
      exact ⟨(hchecked.trans hextends).trans hlater, hheld'⟩
    · exact ⟨hchecked.trans hextends, hheld⟩
  split
  · rename_i happroved
    refine wp_seq monotone_L validateTaskSubmission_spec ?_
    rintro _ _ _ ⟨rfl, rfl, payload, rfl⟩
    have hchecked := (Desk.Extends.refl d).checked task.input payload
    refine wp_onReturn_mono monotone_L ?_ (executeTask_spec (d := d.checked task.input payload)
      hentered.held
      ⟨hentered.running, task, hentered.entry, rfl, rfl, .inl happroved⟩ (.inr happroved))
    rintro _ t' d'' ⟨hlater, hheld'⟩
    exact ⟨hchecked.trans hlater, hheld'⟩
  · exact ⟨.refl d, hentered.held⟩

/-- A later desk of the same operation. -/
def Desk.Continues (d d' : Desk) : Prop :=
  d'.operation = d.operation ∧ ∀ t ∈ d.saved, t ∈ d'.saved

/-- What holds when an operation has come to a record: it is in hand. -/
def Reached (d : Desk) (t : TaskRecord) (d' : Desk) : Prop :=
  d.Continues d' ∧ d'.held = some t

theorem getTask_spec {taskId : TaskId} :
    (getTask taskId).wp (L sup)
      (onReturn fun t _ d' => t.taskId = taskId ∧ d' = d.took t) () d := by
  simp only [getTask, wp_bind, wp_ask, call_L]
  refine ⟨trivial, ?_⟩
  rintro answer ⟨found, rfl, hfound⟩
  cases found with
  | none => trivial
  | some t => exact ⟨hfound t rfl, rfl⟩

theorem runTask_spec {fuel : Nat} {taskId : TaskId} :
    (runTask sup fuel taskId).wp (L sup) (onReturn fun t _ d' => Reached d t d') () d := by
  unfold runTask
  rw [wp_bind, wp_ask, call_L]
  refine ⟨trivial, ?_⟩
  rintro (e | entered) -
  · trivial
  refine wp_seq monotone_L getTask_spec ?_
  rintro t _ _ ⟨rfl, rfl⟩
  have hentered : Entered ((d.enteredRunTask t.taskId).took t) t :=
    ⟨rfl, rfl, if_pos ⟨rfl, rfl⟩⟩
  rw [wp_bind, wp_on]
  refine wp_mono monotone_L ?_ (runLoadedTask_spec hentered)
  rintro (e | ran) t' d' hran
  · trivial
  · exact ⟨⟨hran.1.operation, hran.1.saved⟩, hran.2⟩

theorem createTaskRecord_spec {submission : TaskSubmission} {enqueue : Bool}
    (hheld : d.held = none) :
    (createTaskRecord sup submission enqueue).wp (L sup)
      (onReturn fun t _ d' => Reached d t d') () d := by
  unfold createTaskRecord
  refine wp_seq monotone_L validateTaskSubmission_spec ?_
  rintro _ _ _ ⟨rfl, rfl, payload, rfl⟩
  rw [wp_bind, wp_ask, call_L]
  refine ⟨trivial, ?_⟩
  rintro _ ⟨taskId, rfl⟩
  simp only [wp_bind, wp_now, wp_on, appendAudit, timestampOrNow, wp_pure, wp_mutate, wp_object]
  intro createdAt updatedAt
  rw [wp_storeSave]
  refine ⟨.inl ⟨createdAt, _, hheld, rfl, ?_, rfl, rfl, rfl⟩, ?_⟩
  · exact List.mem_cons_of_mem _ List.mem_cons_self
  have hsaved (t : TaskRecord) : Reached d t ((({ d.checked submission.input payload with
      issued := some taskId }.readClock createdAt).readClock updatedAt).wrote t) :=
    ⟨⟨rfl, fun _ ht => List.mem_cons_of_mem _ ht⟩, rfl⟩
  dsimp only
  split
  · refine wp_seq monotone_L (Aside.ask rfl _ _) ?_
    rintro _ _ _ ⟨rfl, rfl⟩
    exact hsaved _
  · exact hsaved _

theorem approveTask_spec {fuel : Nat} {taskId : TaskId} {actor : String}
    {metadata : Option Dict} {run : Bool}
    (hoperation : d.operation = some (.approveTask taskId actor metadata run)) :
    (approveTask sup fuel taskId actor metadata run).wp (L sup) (onReturn fun t _ d' =>
      Reached d t d' ∧ ∃ t ∈ d'.saved, t.taskId = taskId ∧ t.status = .approved) () d := by
  unfold approveTask
  refine wp_seq monotone_L getTask_spec ?_
  rintro task _ _ ⟨rfl, rfl⟩
  split
  · rename_i hawaiting
    rw [wp_bind, wp_on]
    refine wp_transitionStatus_none fun ts => ?_
    refine wp_transitionStatus (.move rfl
      (.approved _ _ _ _ _ hawaiting hoperation List.mem_cons_self)) ?_
    intro outcome ts' _
    cases outcome with
    | error e => trivial
    | ok value =>
        dsimp only
        have hsaved (t : TaskRecord) (ht : t ∈ d.saved) (approved : TaskRecord) :
            t ∈ approved :: d.saved := List.mem_cons_of_mem _ ht
        split
        · refine wp_onReturn_mono monotone_L ?_ runTask_spec
          rintro t _ d' ⟨⟨hsame, hkept⟩, hheld⟩
          refine ⟨⟨⟨hsame, fun t' ht => hkept t' (hsaved t' ht _)⟩, hheld⟩, _,
            hkept _ List.mem_cons_self, rfl, rfl⟩
        · refine wp_seq monotone_L (Aside.ask rfl _ _) ?_
          rintro _ _ _ ⟨rfl, rfl⟩
          exact ⟨⟨⟨rfl, fun t' ht => hsaved t' ht _⟩, rfl⟩, _, List.mem_cons_self, rfl, rfl⟩
  · trivial

theorem cancelTask_spec {taskId : TaskId} {actor : String} {reason : Option String}
    {metadata : Option Dict} :
    (cancelTask taskId actor reason metadata).wp (L sup) (onReturn fun t _ d' =>
      Reached d t d' ∧ t ∈ d'.saved ∧ t.taskId = taskId ∧ t.status = .cancelled) () d := by
  unfold cancelTask
  refine wp_seq monotone_L getTask_spec ?_
  rintro task _ _ ⟨rfl, rfl⟩
  dsimp only
  split
  · rename_i hawaiting
    simp only [wp_bind, wp_now, wp_on, wp_pure]
    intro cancelledAt
    refine wp_transitionStatus (.move rfl
      (.cancelled _ _ _ _ hawaiting List.mem_cons_self)) ?_
    intro outcome ts' _
    cases outcome with
    | error e => trivial
    | ok value =>
        exact ⟨⟨⟨rfl, fun _ ht => List.mem_cons_of_mem _ ht⟩, rfl⟩, List.mem_cons_self, rfl, rfl⟩
  · trivial

/-- However an operation ends, it may end so. -/
theorem runOperation_spec (sup : Supervisor) (fuel : Nat) (op : Operation) :
    (runOperation sup fuel op).wp (L sup)
      (fun outcome _ d' => Permitted sup.guildKnowledge d' (.left op outcome))
      () (.started op) := by
  have hends {m : OpBlock TaskRecord}
      (hm : m.wp (L sup) (onReturn fun t _ d' =>
        Reached (.started op) t d' ∧ Settled d' t op) () (.started op)) :
      m.wp (L sup) (fun outcome _ d' => Permitted sup.guildKnowledge d' (.left op outcome))
        () (.started op) := by
    refine wp_mono monotone_L ?_ hm
    rintro (e | t) _ d' hreturned
    · trivial
    · exact ⟨hreturned.1.1.1, hreturned.1.2, hreturned.2⟩
  refine hends ?_
  cases op with
  | submit submission =>
      exact wp_onReturn_mono monotone_L (fun _ _ _ h => ⟨h, trivial⟩)
        (createTaskRecord_spec rfl)
  | runSubmission submission =>
      refine wp_seq monotone_L (createTaskRecord_spec rfl) ?_
      rintro t _ d₁ ⟨⟨hoperation, hsaved⟩, -⟩
      refine wp_onReturn_mono monotone_L ?_ runTask_spec
      rintro t' _ d₂ ⟨⟨hoperation', hsaved'⟩, hheld⟩
      exact ⟨⟨⟨hoperation'.trans hoperation, fun t ht => hsaved' t (hsaved t ht)⟩, hheld⟩, trivial⟩
  | runNext =>
      refine wp_seq monotone_L (Aside.ask rfl _ _) ?_
      rintro taskId _ _ ⟨rfl, rfl⟩
      cases taskId with
      | none => trivial
      | some taskId =>
          exact wp_onReturn_mono monotone_L (fun _ _ _ h => ⟨h, trivial⟩) runTask_spec
  | runTask taskId =>
      exact wp_onReturn_mono monotone_L (fun _ _ _ h => ⟨h, trivial⟩) runTask_spec
  | approveTask taskId actor metadata run => exact approveTask_spec rfl
  | cancelTask taskId actor reason metadata => exact cancelTask_spec

/-- A client keeps the discipline, whatever it is asked to do. -/
theorem client_disciplined (sup : Supervisor) (fuel : Nat) (ops : List Operation) :
    (client sup fuel ops).wp (L sup) (fun _ _ => True) d := by
  induction ops generalizing d with
  | nil => trivial
  | cons op ops ih =>
      simp only [client, Prog.wp_call, call_L]
      refine ⟨trivial, ?_⟩
      intro entered _
      rw [Prog.wp_bind]
      refine Prog.wp_mono monotone_L ?_ (runOperation_spec sup fuel op)
      rintro ⟨outcome, _⟩ d' hpermitted
      exact ⟨hpermitted, fun _ _ => ih⟩

end Conductor
