/-
What a run tells of its failures.  A run of a task that has failed reports its
failed attempts to the knowledge base, and the first of them carries the
fingerprint of the input that was tried first.
-/
import Conductor.Guild.Ledger
import Conductor.Supervisor.GuildReports
import Conductor.Supervisor.Stages

namespace Conductor

open Effects Block

/-- The report that a call makes to the knowledge base. -/
def Call.report : Call → Option KnowledgeCall
  | .publish capability failures hint =>
      some (.publish ⟨capability, failures, none, some hint, none, none⟩)
  | .publishSuccess capability input => some (.publishSuccess ⟨capability, input, none, none⟩)
  | _ => none

/-- The failed attempt that a call asks the retry strategy about. -/
def Call.failedAttempt : Call → Option FailureContext
  | .decide _ failure => some failure
  | _ => none

/-- The reports of a history, the oldest first. -/
def guildReports (h : Trace) : List KnowledgeCall := (h.filterMap fun e => e.call.report).reverse

/-- The failed attempts of a history, the oldest first. -/
def failedAttempts (h : Trace) : List FailureContext :=
  (h.filterMap fun e => e.call.failedAttempt).reverse

theorem guildReports_append (new h : Trace) :
    guildReports (new ++ h) = guildReports h ++ guildReports new := by
  simp [guildReports]

theorem failedAttempts_append (new h : Trace) :
    failedAttempts (new ++ h) = failedAttempts h ++ failedAttempts new := by
  simp [failedAttempts]

theorem guildReports_cons {c : Call} (answer : Answer c) (h : Trace) :
    guildReports (⟨c, answer⟩ :: h) = guildReports h ++ c.report.toList := by
  cases hreport : c.report <;> simp [guildReports, hreport]

theorem failedAttempts_cons {c : Call} (answer : Answer c) (h : Trace) :
    failedAttempts (⟨c, answer⟩ :: h) = failedAttempts h ++ c.failedAttempt.toList := by
  cases hfailed : c.failedAttempt <;> simp [failedAttempts, hfailed]

theorem onReturn_of_forall {σ α : Type} {S : Type*} {Q : α → σ → S → Prop} {x : σ} {s : S}
    (h : ∀ value, Q value x s) (outcome : Except PyExc α) : onReturn Q outcome x s := by
  cases outcome with
  | error e => trivial
  | ok value => exact h value

/-- The history has gone on from an earlier one by calls with the property `Q`. -/
def Since (earlier : Trace) (Q : Trace → Prop) (h : Trace) : Prop :=
  ∃ new, h = new ++ earlier ∧ Q new

/-- No failed attempt, and no report. -/
def Untold (h : Trace) : Prop := failedAttempts h = [] ∧ guildReports h = []

/-- These attempts failed. -/
def HasFailed (failures : List FailureContext) (h : Trace) : Prop := failedAttempts h = failures

/-- These attempts failed, and they were reported. -/
def HasReported (capability : String) (failures : List FailureContext) (h : Trace) : Prop :=
  failedAttempts h = failures ∧
    ∃ hint, .publish ⟨capability, failures, none, some hint, none, none⟩ ∈ guildReports h

/-- Calls that tell nothing. -/
def Call.untold (c : Call) : Bool := c.report.isNone && c.failedAttempt.isNone

/-- Calls about no failed attempt. -/
def Call.undecided (c : Call) : Bool := c.failedAttempt.isNone

/-- Calls of this kind do not change it. -/
def Lasting (kind : Call → Bool) (Q : Trace → Prop) : Prop :=
  ∀ ⦃c h⦄ (answer : Answer c), kind c = true → Q h → Q (⟨c, answer⟩ :: h)

theorem Lasting.since {kind : Call → Bool} {Q : Trace → Prop} (hQ : Lasting kind Q)
    (earlier : Trace) : Lasting kind (Since earlier Q) := by
  intro c h answer hc hsince
  obtain ⟨new, rfl, hnew⟩ := hsince
  exact ⟨⟨c, answer⟩ :: new, rfl, hQ answer hc hnew⟩

theorem lasting_untold : Lasting Call.untold Untold := by
  intro c h answer hc huntold
  obtain ⟨hreport, hfailed⟩ := Bool.and_eq_true_iff.mp hc
  rw [Option.isNone_iff_eq_none] at hreport hfailed
  constructor
  · rw [failedAttempts_cons, hfailed, huntold.1]
    rfl
  · rw [guildReports_cons, hreport, huntold.2]
    rfl

theorem lasting_failed (failures : List FailureContext) :
    Lasting Call.undecided (HasFailed failures) := by
  intro c h answer hc hfailed
  rw [HasFailed, failedAttempts_cons, Option.isNone_iff_eq_none.mp hc, hfailed]
  exact List.append_nil _

theorem lasting_reported (capability : String) (failures : List FailureContext) :
    Lasting Call.undecided (HasReported capability failures) := by
  intro c h answer hc hreported
  obtain ⟨hfailed, hint, hmem⟩ := hreported
  constructor
  · exact lasting_failed failures answer hc hfailed
  · refine ⟨hint, ?_⟩
    rw [guildReports_cons]
    exact List.mem_append_left _ hmem

section Statements

variable {env : Env} {sup : Supervisor} {V : TaskRecord → Prop} {Q : Trace → Prop}
variable {x : TaskRecord} {k : State} {kind : Call → Bool} {σ : Type}

/-- The one run there is; nothing is asked of a run that is out of fuel. -/
abbrev Env.logic (env : Env) : Logic State Call Answer := env.machine.logic fun _ => True

theorem Env.logic_monotone (env : Env) : env.logic.Monotone := env.machine.logic_monotone _

theorem keptByNotes (hV : AboutRequest V) (hQ : Lasting kind Q)
    (hkind : ∀ c : Call, c.isNote = true → kind c = true) :
    KeptByNotes env.logic V fun k => Q k.history where
  monotone := env.logic_monotone
  aboutRequest := hV
  calls c _ hc _ hk := hQ _ (hkind c hc) hk

theorem untold_of_isNote (c : Call) (hc : c.isNote = true) : c.untold = true := by
  cases c <;> first | rfl | cases hc

theorem undecided_of_isNote (c : Call) (hc : c.isNote = true) : c.undecided = true := by
  cases c <;> first | rfl | cases hc

/-- What calls about no failed attempt do not change, the work on a task keeps. -/
theorem workInvariant_undecided (hV : AboutRequest V) (hQ : Lasting Call.undecided Q) :
    WorkInvariant env.logic fun x k => V x ∧ Q k.history := by
  apply (keptByNotes hV hQ undecided_of_isNote).workInvariant
  intro c k hc hk
  apply hQ _ _ hk
  cases c <;> first | rfl | cases hc

/-- A call of the kind, with the task in hand. -/
theorem Lasting.call (hQ : Lasting kind Q) {c : Call} (hc : kind c = true)
    (h : V x ∧ Q k.history) : env.logic.call k c fun _ k' => V x ∧ Q k'.history :=
  ⟨h.1, hQ _ hc h.2⟩

theorem Keeps.returns {I : TaskRecord → State → Prop} {α : Type} {m : TaskBlock α}
    (hm : Keeps env.logic I m) (h : I x k) :
    m.wp env.logic (onReturn fun _ t k' => I t k') x k := by
  apply wp_mono env.logic_monotone _ (hm h)
  intro outcome t k' ht
  cases outcome with
  | error e => trivial
  | ok value => exact ht

/-- An attempt that returns has completed the task. -/
theorem attempt_completes (hV : AboutRequest V) (hQ : Lasting Call.undecided Q)
    {capability : String} {controls : CapabilityExecutionControls} {startedAt : Time}
    (h : V x ∧ Q k.history) :
    (attempt sup capability controls startedAt).wp env.logic (fun outcome t k' =>
      (V t ∧ Q k'.history) ∧ (outcome = .ok () → t.status = .completed)) x k := by
  have hkept : KeptByNotes env.logic V fun k => Q k.history :=
    keptByNotes hV hQ undecided_of_isNote
  unfold attempt
  rw [wp_bind, wp_object]
  dsimp only
  rw [wp_bind, wp_ask]
  apply env.logic_monotone _ (hQ.call rfl h)
  intro answer k' h
  cases answer with
  | error e => exact ⟨h, nofun⟩
  | ok payload =>
      dsimp only
      rw [wp_bind, wp_ask]
      apply env.logic_monotone _ (hQ.call rfl h)
      intro answer k' h
      cases answer with
      | error e => exact ⟨h, nofun⟩
      | ok result =>
          dsimp only
          rw [wp_bind, now, wp_ask]
          apply env.logic_monotone _ (hQ.call rfl h)
          intro answer k' h
          cases answer with
          | error e => exact ⟨h, nofun⟩
          | ok completedAt =>
              dsimp only
              rw [wp_mutate_bind, wp_bind]
              refine wp_mono env.logic_monotone ?_ (hkept.transitionStatus _ _ _ _ _ _ _ ?_)
              rotate_left
              · exact hkept.version h rfl rfl rfl rfl
              intro outcome t k' ht
              cases outcome with
              | error e => exact ⟨ht.1, nofun⟩
              | ok completed =>
                  dsimp only
                  by_cases hguild : sup.guildKnowledge = true
                  · rw [if_pos hguild, wp_object_bind, wp_ask]
                    apply env.logic_monotone _ (hQ.call rfl ht.1)
                    intro answer k' h
                    exact ⟨h, fun _ => ht.2 rfl⟩
                  · rw [if_neg hguild]
                    exact ⟨ht.1, fun _ => ht.2 rfl⟩

/-- A failure is described from the task in hand. -/
theorem recordFailure_tells (hV : AboutRequest V) (hQ : Lasting Call.undecided Q) {exc : PyExc}
    (h : V x ∧ Q k.history) :
    (recordFailure sup exc).wp env.logic (onReturn fun failure t k' => (V t ∧ Q k'.history) ∧
      failure.capability = x.capability ∧
        ∃ inputFp, inputFingerprint sup.sha256Hex x.input = .ok inputFp ∧
          failure.inputFingerprint = some inputFp) x k := by
  have hkept : WorkInvariant env.logic fun x k => V x ∧ Q k.history :=
    workInvariant_undecided hV hQ
  unfold recordFailure
  rw [wp_bind, wp_object]
  dsimp only
  rw [wp_bind, wp_ofExcept]
  cases hinput : inputFingerprint sup.sha256Hex x.input with
  | error e => trivial
  | ok inputFp =>
      dsimp only
      rw [wp_bind, wp_ofExcept]
      cases exc.str with
      | error e => trivial
      | ok message =>
          dsimp only
          rw [← Block.bind_assoc]
          apply wp_seq env.logic_monotone (Keeps.returns (hkept.noted _ _ _ _ _ rfl) h)
          intro _ t k' ht
          exact ⟨ht, rfl, inputFp, rfl, rfl⟩

variable {earlier : Trace} {name : String} {input : Dict} {failures : List FailureContext}
variable {startedAt : Time} {exc : PyExc} {decision : RetryDecision}

/-- A task of the capability, of which these attempts have failed. -/
def Tried (earlier : Trace) (name : String) (failures : List FailureContext) (t : TaskRecord)
    (k : State) : Prop :=
  t.capability = name ∧ Since earlier (HasFailed failures) k.history

/-- A task of the capability, of which these failed attempts were reported. -/
def Told (earlier : Trace) (name : String) (failures : List FailureContext) (t : TaskRecord)
    (k : State) : Prop :=
  t.capability = name ∧ Since earlier (HasReported name failures) k.history

/-- The first of the failures is one of the capability on this input. -/
def Begins (sha256Hex : String → String) (name : String) (input : Dict)
    (failures : List FailureContext) : Prop :=
  ∃ failure rest inputFp, failures = failure :: rest ∧ failure.capability = name ∧
    inputFingerprint sha256Hex input = .ok inputFp ∧ failure.inputFingerprint = some inputFp

/-- How a task may end: it is completed, or its failed attempts were reported. -/
def Ends (sup : Supervisor) (earlier : Trace) (name : String) (input : Dict) (t : TaskRecord)
    (k : State) : Prop :=
  t.status = .completed ∨
    ∃ failures, Begins sup.sha256Hex name input failures ∧ Told earlier name failures t k

/-- What holds where the loop goes on or ends. -/
def LeavesTold (sup : Supervisor) (earlier : Trace) (name : String) (input : Dict) (flow : Flow)
    (t : TaskRecord) (k : State) : Prop :=
  match flow with
  | .stop none _ => Ends sup earlier name input t k
  | .stop (some _) failures | .again failures =>
      Begins sup.sha256Hex name input failures ∧ Tried earlier name failures t k

theorem aboutCapability (name : String) : AboutRequest fun t => t.capability = name :=
  fun _ _ _ _ hcapability _ h => hcapability.trans h

theorem tried_invariant (env : Env) (earlier : Trace) (name : String)
    (failures : List FailureContext) :
    WorkInvariant env.logic (Tried earlier name failures) :=
  workInvariant_undecided (aboutCapability name) ((lasting_failed failures).since earlier)

theorem told_invariant (env : Env) (earlier : Trace) (name : String)
    (failures : List FailureContext) :
    WorkInvariant env.logic (Told earlier name failures) :=
  workInvariant_undecided (aboutCapability name) ((lasting_reported name failures).since earlier)

/-- A report of the failed attempts. -/
theorem Since.reported (hsince : Since earlier (HasFailed failures) k.history) {hint : String}
    (answer : Answer (.publish name failures hint)) :
    Since earlier (HasReported name failures)
      (⟨.publish name failures hint, answer⟩ :: k.history) := by
  obtain ⟨new, hnew, hfailed⟩ := hsince
  refine ⟨⟨.publish name failures hint, answer⟩ :: new, by rw [hnew]; rfl, ?_, hint, ?_⟩
  · exact lasting_failed failures answer rfl hfailed
  · rw [guildReports_cons]
    exact List.mem_append_right _ (List.mem_singleton_self _)

theorem publishFailures_tells (hguild : sup.guildKnowledge = true) {hint : String}
    (h : Tried earlier name failures x k) :
    (publishFailures sup failures hint).wp env.logic
      (onReturn fun _ => Told earlier name failures) x k := by
  obtain ⟨hname, hsince⟩ := h
  unfold publishFailures
  rw [if_pos hguild, wp_object_bind, wp_ask, hname]
  apply onReturn_of_forall
  intro value
  exact ⟨hname, hsince.reported _⟩

theorem doEscalate_tells (hguild : sup.guildKnowledge = true) {reason : Option String}
    (h : Tried earlier name failures x k) :
    (doEscalate sup failures startedAt exc reason).wp env.logic
      (onReturn fun _ => Told earlier name failures) x k := by
  have hkept := tried_invariant env earlier name failures
  unfold doEscalate
  apply wp_seq env.logic_monotone (Keeps.returns (hkept.ask_aside rfl) h)
  intro escalatedAt t k' h
  apply wp_seq env.logic_monotone (Keeps.returns (hkept.buildEscalationRecord failures) h)
  intro record t k' h
  apply wp_seq env.logic_monotone (Keeps.returns (.ofExcept _) h)
  intro error t k' h
  apply wp_seq env.logic_monotone (Keeps.returns (hkept.mutate_result _) h)
  intro _ t k' h
  rw [wp_object_bind]
  refine wp_seq (P := fun _ => Tried earlier name failures) env.logic_monotone ?_ ?_
  · exact Keeps.returns (hkept.worked _ _ _ _ _ _ (by decide) nofun rfl) h
  · intro _ t k' h
    exact publishFailures_tells hguild h

theorem failTask_tells (hguild : sup.guildKnowledge = true)
    (h : Tried earlier name failures x k) :
    (failTask sup failures startedAt exc).wp env.logic
      (onReturn fun _ => Told earlier name failures) x k := by
  have hkept := told_invariant env earlier name failures
  unfold failTask
  apply wp_seq env.logic_monotone (publishFailures_tells hguild h)
  intro _ t k' h
  apply Keeps.returns _ h
  refine .bind env.logic_monotone (hkept.ask_aside rfl) fun failedAt => ?_
  refine .bind env.logic_monotone (.ofExcept _) fun error => ?_
  refine .bind env.logic_monotone (hkept.mutate_result _) fun _ => ?_
  refine .bind env.logic_monotone .object fun task => ?_
  exact hkept.worked _ _ _ _ _ _ (by decide) nofun rfl

theorem escalate_follows (hguild : sup.guildKnowledge = true) {reason : Option String}
    (hbegins : Begins sup.sha256Hex name input failures) (h : Tried earlier name failures x k) :
    (do
      doEscalate sup failures startedAt exc reason
      pure (.stop none failures) : TaskBlock Flow).wp env.logic
        (onReturn (LeavesTold sup earlier name input)) x k := by
  apply wp_seq env.logic_monotone (doEscalate_tells hguild h)
  intro _ t k' h
  exact .inr ⟨failures, hbegins, h⟩

theorem giveUp_follows (hguild : sup.guildKnowledge = true)
    (hbegins : Begins sup.sha256Hex name input failures) (h : Tried earlier name failures x k) :
    (giveUp sup startedAt exc failures decision).wp env.logic
      (onReturn (LeavesTold sup earlier name input)) x k := by
  have hkept := tried_invariant env earlier name failures
  unfold giveUp
  apply wp_seq env.logic_monotone (Keeps.returns (hkept.escalates decision failures) h)
  intro escalate t k' h
  by_cases hescalate : escalate = true
  · rw [if_pos hescalate]
    exact escalate_follows hguild hbegins h
  · rw [if_neg hescalate]
    exact ⟨hbegins, h⟩

theorem retry_follows (hguild : sup.guildKnowledge = true)
    (hbegins : Begins sup.sha256Hex name input failures) (h : Tried earlier name failures x k) :
    (retry sup startedAt exc failures decision).wp env.logic
      (onReturn (LeavesTold sup earlier name input)) x k := by
  have hkept := tried_invariant env earlier name failures
  unfold retry
  rw [wp_mutate_bind]
  have hadjusted : Tried earlier name failures { x with
      attempt := x.attempt + 1, input := decision.adjustedInput.getD x.input } k := h
  apply wp_seq env.logic_monotone (Keeps.returns (hkept.policyEscalates failures) hadjusted)
  intro escalate t k' h
  by_cases hescalate : escalate = true
  · rw [if_pos hescalate]
    exact escalate_follows hguild hbegins h
  · rw [if_neg hescalate, wp_object_bind]
    apply wp_seq env.logic_monotone (Keeps.returns (.ofExcept _) h)
    intro error _ k' h
    dsimp only
    have hretried := hkept.retried (retryMetadata t error decision) (some error)
    simp only [← Block.bind_assoc] at hretried ⊢
    apply wp_seq env.logic_monotone (Keeps.returns (.bind env.logic_monotone hretried
      fun _ => hkept.retryDelay decision) h)
    intro _ t k' h
    exact ⟨hbegins, h⟩

/-- The task that the loop tries: as long as nothing has failed it has its first
input. -/
def Tackled (sha256Hex : String → String) (name : String) (input : Dict)
    (failures : List FailureContext) (t : TaskRecord) : Prop :=
  t.capability = name ∧
    (failures = [] ∧ t.input = input ∨ Begins sha256Hex name input failures)

/-- What holds when the loop goes round. -/
def Pursued (sup : Supervisor) (earlier : Trace) (name : String) (input : Dict)
    (failures : List FailureContext) (t : TaskRecord) (k : State) : Prop :=
  Tackled sup.sha256Hex name input failures t ∧ Since earlier (HasFailed failures) k.history

theorem aboutHand (sha256Hex : String → String) (name : String) (input : Dict)
    (failures : List FailureContext) : AboutRequest (Tackled sha256Hex name input failures) := by
  intro task t _ _ hcapability hinput h
  rw [Tackled, hcapability, hinput]
  exact h

theorem pursued_of_begins (hbegins : Begins sup.sha256Hex name input failures)
    (h : Tried earlier name failures x k) : Pursued sup earlier name input failures x k :=
  ⟨⟨h.1, .inr hbegins⟩, h.2⟩

/-- The failure of the attempt in hand comes after the others. -/
theorem Tackled.begins (hhand : Tackled sup.sha256Hex name input failures x)
    {failure : FailureContext} {inputFp : String} (hcapability : failure.capability = x.capability)
    (hinput : inputFingerprint sup.sha256Hex x.input = .ok inputFp)
    (hfailure : failure.inputFingerprint = some inputFp) :
    Begins sup.sha256Hex name input (failures ++ [failure]) := by
  obtain ⟨hname, hfirst | hlater⟩ := hhand
  · rw [hfirst.1]
    rw [hfirst.2] at hinput
    exact ⟨failure, [], inputFp, rfl, hcapability.trans hname, hinput, hfailure⟩
  · obtain ⟨first, rest, firstFp, hfailures, hrest⟩ := hlater
    exact ⟨first, rest ++ [failure], firstFp, by rw [hfailures]; rfl, hrest⟩

/-- The retry strategy is asked about one more failure. -/
theorem Since.failed (hsince : Since earlier (HasFailed failures) k.history) {t : TaskRecord}
    {failure : FailureContext} (answer : Answer (.decide t failure)) :
    Since earlier (HasFailed (failures ++ [failure]))
      (⟨.decide t failure, answer⟩ :: k.history) := by
  obtain ⟨new, hnew, hfailed⟩ := hsince
  refine ⟨⟨.decide t failure, answer⟩ :: new, by rw [hnew]; rfl, ?_⟩
  rw [HasFailed, failedAttempts_cons, hfailed]
  rfl

theorem handleFailure_follows (hguild : sup.guildKnowledge = true)
    (h : Pursued sup earlier name input failures x k) :
    (handleFailure sup startedAt failures exc).wp env.logic
      (onReturn (LeavesTold sup earlier name input)) x k := by
  unfold handleFailure
  have hlasting := (lasting_failed failures).since earlier
  apply wp_seq env.logic_monotone
    (recordFailure_tells (aboutHand sup.sha256Hex name input failures) hlasting h)
  intro failure t k' htold
  obtain ⟨ht, hcapability, inputFp, hinput, hfailure⟩ := htold
  have hbegins := h.1.begins hcapability hinput hfailure
  rw [wp_object_bind, wp_bind, wp_ask]
  have htried : env.logic.call k' (.decide t failure) fun _ k'' =>
      Tried earlier name (failures ++ [failure]) t k'' := ⟨ht.1.1, ht.2.failed _⟩
  apply env.logic_monotone _ htried
  intro answer k'' h
  cases answer with
  | error e => trivial
  | ok decision =>
      dsimp only
      by_cases hretry : decision.shouldRetry = true
      · rw [if_pos hretry]
        exact retry_follows hguild hbegins h
      · rw [if_neg hretry]
        exact giveUp_follows hguild hbegins h

theorem attemptRound_follows (hguild : sup.guildKnowledge = true) {capability : String}
    {controls : CapabilityExecutionControls} (h : Pursued sup earlier name input failures x k) :
    (attemptRound sup capability controls startedAt failures).wp env.logic
      (onReturn (LeavesTold sup earlier name input)) x k := by
  have hlasting := (lasting_failed failures).since earlier
  unfold attemptRound
  rw [wp_tryExcept, wp_bind]
  apply wp_mono env.logic_monotone _
    (attempt_completes (aboutHand sup.sha256Hex name input failures) hlasting h)
  intro outcome t k' ht
  cases outcome with
  | ok completed => exact .inl (ht.2 rfl)
  | error e =>
      dsimp only
      by_cases hcaught : e.isException = true
      · rw [if_pos hcaught]
        exact handleFailure_follows hguild ht.1
      · rw [if_neg hcaught]
        trivial

theorem attemptLoop_follows (hguild : sup.guildKnowledge = true) {capability : String}
    {controls : CapabilityExecutionControls} {fuel : Nat}
    (h : Pursued sup earlier name input failures x k) :
    (attemptLoop sup capability controls startedAt fuel failures).wp env.logic
      (onReturn fun ended => LeavesTold sup earlier name input (.stop ended.1 ended.2)) x k := by
  induction fuel generalizing failures x k with
  | zero => trivial
  | succ fuel ih =>
      unfold attemptLoop
      apply wp_seq env.logic_monotone (attemptRound_follows hguild h)
      intro flow t k' hflow
      cases flow with
      | stop lastExc failures => exact hflow
      | again failures => exact ih (pursued_of_begins hflow.1 hflow.2)

theorem runAttempts_tells (hguild : sup.guildKnowledge = true) {capability : String}
    {controls : CapabilityExecutionControls} {fuel : Nat}
    (h : Pursued sup earlier name input [] x k) :
    (runAttempts sup fuel capability controls startedAt).wp env.logic
      (onReturn fun _ => Ends sup earlier name input) x k := by
  unfold runAttempts
  apply wp_seq env.logic_monotone (attemptLoop_follows hguild h)
  intro ended t k' hended
  obtain ⟨lastExc, failures⟩ := ended
  cases lastExc with
  | none => exact hended
  | some exc =>
      apply wp_onReturn_mono env.logic_monotone _ (failTask_tells hguild hended.2)
      intro _ t k' htold
      exact .inr ⟨failures, hended.1, htold⟩

/-- A task of the capability with this input, about which nothing was told yet. -/
def Unattempted (earlier : Trace) (name : String) (input : Dict) (t : TaskRecord) (k : State) :
    Prop :=
  (t.capability = name ∧ t.input = input) ∧ Since earlier Untold k.history

theorem aboutInput (name : String) (input : Dict) :
    AboutRequest fun t => t.capability = name ∧ t.input = input :=
  fun _ _ _ _ hcapability hinput h => ⟨hcapability.trans h.1, hinput.trans h.2⟩

theorem ready_notes (env : Env) (earlier : Trace) (name : String) (input : Dict) :
    KeptByNotes env.logic (fun t => t.capability = name ∧ t.input = input)
      fun k => Since earlier Untold k.history :=
  keptByNotes (aboutInput name input) (lasting_untold.since earlier) untold_of_isNote

theorem ready_ask (env : Env) (earlier : Trace) (name : String) (input : Dict) {c : Call}
    (hc : c.untold = true) : Keeps env.logic (Unattempted earlier name input) (ask c) :=
  .perform fun _ _ h => ⟨h.1, lasting_untold.since earlier _ hc h.2⟩

theorem waitForExecutionWindow_ready (env : Env) (earlier : Trace) (name : String) (input : Dict)
    (capability : String) :
    Keeps env.logic (Unattempted earlier name input) (waitForExecutionWindow sup capability) := by
  have hask {c : Call} (hc : c.untold = true) :
      Keeps env.logic (Unattempted earlier name input) (ask c) :=
    ready_ask env earlier name input hc
  unfold waitForExecutionWindow
  refine .bind env.logic_monotone (.ofExcept _) fun controls => ?_
  split
  · exact .pure ()
  refine .bind env.logic_monotone (hask rfl) fun now => ?_
  refine .bind env.logic_monotone (hask rfl) fun previousStart => ?_
  split
  · exact hask rfl
  dsimp only
  split
  · refine .bind env.logic_monotone (hask rfl) fun _ => ?_
    exact .bind env.logic_monotone (hask rfl) fun _ => hask rfl
  · exact hask rfl

theorem startTask_ready (h : Unattempted earlier name input x k) :
    (startTask sup).wp env.logic (onReturn fun _ => Pursued sup earlier name input []) x k := by
  unfold startTask
  rw [wp_object_bind]
  apply wp_seq env.logic_monotone (Keeps.returns (.ofExcept _) h)
  intro controls t k' h
  apply wp_seq env.logic_monotone
    (Keeps.returns (waitForExecutionWindow_ready env earlier name input _) h)
  intro _ t k' h
  apply wp_seq env.logic_monotone (Keeps.returns (ready_ask env earlier name input rfl) h)
  intro startedAt t k' h
  rw [wp_mutate_bind, wp_object_bind]
  have hstarted : Unattempted earlier name input { t with attempt := t.attempt + 1 } k' := h
  refine wp_seq (P := fun _ => Unattempted earlier name input) env.logic_monotone ?_ ?_
  · apply wp_mono env.logic_monotone _
      ((ready_notes env earlier name input).transitionStatus _ _ _ _ _ _ _ hstarted)
    intro outcome t k' h
    cases outcome with
    | error e => trivial
    | ok started => exact h.1
  · intro _ t k' h
    obtain ⟨hrequest, new, hnew, huntold⟩ := h
    exact ⟨⟨hrequest.1, .inl ⟨rfl, hrequest.2⟩⟩, new, hnew, huntold.1⟩

/-- The task has neither failed nor been escalated. -/
def Unfailed (t : TaskRecord) : Prop := t.status ≠ .failed ∧ t.status ≠ .escalated

theorem transition_unfailed {toStatus : TaskStatus} {actor action : String}
    {eventType : EventType} {metadata : Dict} {error : Option String} {timestamp : Option Time}
    (hopen : toStatus ≠ .failed ∧ toStatus ≠ .escalated) (h : Unattempted earlier name input x k) :
    (transitionStatus toStatus actor action eventType metadata error timestamp).wp env.logic
      (onReturn fun _ t k' => Unattempted earlier name input t k' ∧ Unfailed t) x k := by
  apply wp_mono env.logic_monotone _
    ((ready_notes env earlier name input).transitionStatus _ _ _ _ _ _ _ h)
  intro outcome t k' ht
  cases outcome with
  | error e => trivial
  | ok moved =>
      refine ⟨ht.1, ?_⟩
      rw [Unfailed, ht.2 rfl]
      exact hopen

/-- A note leaves the status alone. -/
theorem noted_unfailed (actor action : String) (fromStatus toStatus : Option TaskStatus)
    (metadata : Dict) :
    Keeps env.logic (fun t k => Unattempted earlier name input t k ∧ Unfailed t) (do
      appendAudit actor action fromStatus toStatus metadata none
      saveTask none) := by
  have hask {c : Call} (hc : c.untold = true) :
      Keeps env.logic (fun t k => Unattempted earlier name input t k ∧ Unfailed t) (ask c) :=
    .perform fun _ _ h => ⟨⟨h.1.1, lasting_untold.since earlier _ hc h.1.2⟩, h.2⟩
  refine .bind env.logic_monotone ?_ fun _ => ?_
  · exact .bind env.logic_monotone (hask rfl) fun _ => .mutate fun _ _ h => h
  · refine .bind env.logic_monotone (hask rfl) fun _ => ?_
    refine .bind env.logic_monotone (.mutate fun _ _ h => h) fun _ => ?_
    exact .bind env.logic_monotone .object fun _ => hask rfl

theorem applyPolicy_unfailed {verdict : PolicyDecision} (hopen : Unfailed x)
    (h : Unattempted earlier name input x k) :
    (applyPolicy sup verdict).wp env.logic
      (onReturn fun _ t k' => Unattempted earlier name input t k' ∧ Unfailed t) x k := by
  unfold applyPolicy
  dsimp only
  split
  · apply wp_seq env.logic_monotone (Keeps.returns (ready_ask env earlier name input rfl) h)
    intro deniedAt t k' h
    rw [wp_mutate_bind]
    apply transition_unfailed (by decide)
    exact h
  · exact transition_unfailed (by decide) h
  · exact Keeps.returns (noted_unfailed _ _ _ _ _) ⟨h, hopen⟩

theorem gatePending_unfailed {capability : String} (hopen : Unfailed x)
    (h : Unattempted earlier name input x k) :
    (gatePending sup capability).wp env.logic
      (onReturn fun _ t k' => Unattempted earlier name input t k' ∧ Unfailed t) x k := by
  unfold gatePending
  have hask {c : Call} (hc : c.untold = true) :
      Keeps env.logic (fun t k => Unattempted earlier name input t k ∧ Unfailed t) (ask c) :=
    .perform fun _ _ h => ⟨⟨h.1.1, lasting_untold.since earlier _ hc h.1.2⟩, h.2⟩
  apply wp_seq env.logic_monotone (Keeps.returns (hask rfl) ⟨h, hopen⟩)
  intro descriptor t k' h
  split
  · rw [wp_object_bind]
    exact transition_unfailed (by decide) h.1
  · apply wp_seq env.logic_monotone (Keeps.returns (hask rfl) h)
    intro descriptor t k' h
    rw [wp_object_bind]
    apply wp_seq env.logic_monotone (Keeps.returns (hask rfl) h)
    intro verdict t k' h
    exact applyPolicy_unfailed h.2 h.1

end Statements

end Conductor
