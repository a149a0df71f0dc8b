/-
Tasks that are started.  A task that everybody lets through comes to its first
attempt: the guardrails admit it, no flag asks for approval, the policy allows
it, and nothing raises that is called before.
-/
import Conductor.Supervisor.Attempts
import Conductor.Supervisor.Stages

namespace Conductor

open Effects Block

variable {σ : Type} {sup : Supervisor} {env : Env} {task x : TaskRecord} {k : State}
  {capability : String}

/-- No attempt of the call has begun. -/
def Unstarted (h : Trace) : Prop := (progress h).attempts = none

/-- Everything that is asked before the first attempt is granted: a task that
waits for approval has it, and a pending one needs none. -/
structure Env.Starts (env : Env) (sup : Supervisor) (task : TaskRecord) : Prop where
  admits : sup.Admits (buildSubmission task)
  validateInput : ∀ h, Unstarted h →
    ∃ payload, env.validateInput h task.capability task.input = .ok payload
  descriptor : task.status = .pending → ∀ h, Unstarted h →
    ∃ descriptor, env.descriptor h task.capability = .ok descriptor ∧
      descriptor.requireApproval = false
  evaluate : task.status = .pending → ∀ h context, Unstarted h →
    ∃ decision, env.evaluate h task context = .ok decision ∧ decision.decision = .allow
  suggest : sup.peerSuggestions = true → ∀ h input, Unstarted h →
    ∃ suggestions, env.suggest h task.capability input = .ok suggestions
  sleep : ∀ h seconds, Unstarted h → env.sleep h seconds = .ok ()

theorem Env.Starts.executionControls (hstarts : env.Starts sup task) :
    ∃ controls, sup.registry.executionControls task.capability = .ok controls := by
  have hregistered : task.capability ∈ sup.registry.capabilities := hstarts.admits.2.2
  exact ⟨_, if_pos hregistered⟩

/-- The logic of one run that may run out of fuel. -/
abbrev Env.running (env : Env) : Logic State Call Answer := env.machine.logic fun _ => True

theorem monotone_running : env.running.Monotone := env.machine.logic_monotone _

def Call.isEmit : Call → Bool
  | .emit _ _ => true
  | _ => false

/-- Only the event of the start begins the attempts. -/
theorem Unstarted.step (hwaiting : Unstarted k.history) {c : Call}
    (hc : c.isEmit = false) : Unstarted (env.machine.step k c).2.history := by
  change ((progress k.history).after c _).attempts = none
  unfold Unstarted at hwaiting
  cases c with
  | emit t event => cases hc
  | runTaskEntered taskId => rfl
  | storeGet taskId =>
      cases hfound : k.state.store.get taskId <;>
        simpa [Env.machine, Env.respond, Progress.after, Progress.wrote, hfound] using hwaiting
  | _ =>
      generalize (env.machine.respond k.history k.state _).1 = answer
      cases answer <;> simp [Progress.after, Progress.wrote, Progress.succeeded, Progress.failed,
        Progress.stuck, hwaiting]

/-- A call before the start, which returns. -/
theorem call_running {c : Call} {value : Response c} {post : Answer c → State → Prop}
    (hwaiting : Unstarted k.history) (hc : c.isEmit = false)
    (hanswer : (env.machine.step k c).1 = .ok value)
    (hpost : ∀ k', Unstarted k'.history → post (.ok value) k') :
    env.running.call k c post := by
  change post (env.machine.step k c).1 (env.machine.step k c).2
  rw [hanswer]
  exact hpost _ (hwaiting.step hc)

/-- The event of the start, whatever the bus makes of it. -/
theorem call_started {event : TaskEvent} {post : Answer (.emit x event) → State → Prop}
    (huninterrupted : env.Uninterrupted) (hevent : event.eventType = .taskStarted)
    (hpost : ∀ answer k', (∀ e, answer = .error e → e.isException = true) →
      (progress k'.history).attempts.isSome = true → post answer k') :
    env.running.call k (.emit x event) post := by
  apply hpost
  · exact fun e => huninterrupted.emit _ _ _
  · change ((progress k.history).after (.emit x event) _).attempts.isSome = true
    simp [Progress.after, hevent, Progress.started]

theorem wp_now_running {x : σ} {post : Except PyExc Time → σ → State → Prop}
    (hwaiting : Unstarted k.history)
    (hpost : ∀ ts k', Unstarted k'.history → post (.ok ts) x k') :
    (now : Block Call Response PyExc σ Time).wp env.running post x k :=
  call_running hwaiting rfl rfl (hpost _)

/-- The guardrails let the task pass. -/
theorem validateTaskSubmission_starts {x : σ} (hstarts : env.Starts sup task)
    (hwaiting : Unstarted k.history) :
    (validateTaskSubmission sup (buildSubmission task)).wp env.running
      (fun outcome y k' => outcome = .ok task.capability ∧ y = x ∧ Unstarted k'.history) x k := by
  apply wp_validateTaskSubmission
  · exact fun hrejected => absurd hstarts.admits hrejected
  · intro _
    obtain ⟨payload, hpayload⟩ := hstarts.validateInput k.history hwaiting
    refine call_running hwaiting rfl hpayload ?_
    exact fun k' hwaiting' => ⟨rfl, rfl, hwaiting'⟩

/-- No flag is found, and the policy allows the task. -/
theorem gatePending_starts (hstarts : env.Starts sup task) (hpending : task.status = .pending)
    (hwaiting : Unstarted k.history) :
    (gatePending sup task.capability).wp env.running
      (fun outcome y k' => outcome = .ok () ∧ y.status = .pending ∧
        y.capability = task.capability ∧ Unstarted k'.history) task k := by
  simp only [gatePending, wp_bind, wp_ask]
  obtain ⟨descriptor, hdescriptor, hflag⟩ := hstarts.descriptor hpending k.history hwaiting
  refine call_running hwaiting rfl hdescriptor ?_
  intro k hwaiting
  simp only [hflag, Bool.false_eq_true, if_false, wp_bind, wp_object, wp_ask]
  obtain ⟨descriptor, hdescriptor, -⟩ := hstarts.descriptor hpending k.history hwaiting
  refine call_running hwaiting rfl hdescriptor ?_
  intro k hwaiting
  obtain ⟨decision, hdecision, hallow⟩ :=
    hstarts.evaluate hpending k.history ⟨descriptor, sup.workdir⟩ hwaiting
  refine call_running hwaiting rfl hdecision ?_
  intro k hwaiting
  simp only [applyPolicy, hallow, appendAudit, saveTask, timestampOrNow, wp_bind, wp_mutate,
    wp_object, wp_ask]
  apply wp_now_running hwaiting
  intro ts k hwaiting
  apply wp_now_running hwaiting
  intro saved k hwaiting
  refine call_running hwaiting rfl rfl ?_
  exact fun k hwaiting => ⟨rfl, hpending, rfl, hwaiting⟩

theorem applyPeerSuggestion_starts (hstarts : env.Starts sup task)
    (hcapability : x.capability = task.capability) (hwaiting : Unstarted k.history) :
    (applyPeerSuggestion sup).wp env.running
      (fun outcome y k' => outcome = .ok () ∧ y.capability = task.capability ∧
        Unstarted k'.history) x k := by
  unfold applyPeerSuggestion
  split
  · rename_i hsuggests
    simp only [wp_bind, wp_object, wp_ask]
    obtain ⟨suggestions, hsuggestions⟩ := hstarts.suggest hsuggests k.history x.input hwaiting
    rw [← hcapability] at hsuggestions
    refine call_running hwaiting rfl hsuggestions ?_
    intro k hwaiting
    cases suggestions with
    | nil => exact ⟨rfl, hcapability, hwaiting⟩
    | cons best rest =>
        simp only [appendAudit, saveTask, timestampOrNow, wp_bind, wp_mutate, wp_object, wp_ask]
        apply wp_now_running hwaiting
        intro ts k hwaiting
        apply wp_now_running hwaiting
        intro saved k hwaiting
        refine call_running hwaiting rfl rfl ?_
        exact fun k hwaiting => ⟨rfl, hcapability, hwaiting⟩
  · exact ⟨rfl, hcapability, hwaiting⟩

theorem waitForExecutionWindow_starts {x : σ} (hstarts : env.Starts sup task)
    (hwaiting : Unstarted k.history) :
    (waitForExecutionWindow sup task.capability).wp env.running
      (fun outcome y k' => outcome = .ok () ∧ y = x ∧ Unstarted k'.history) x k := by
  have hreserved (k : State) (hwaiting : Unstarted k.history) (start : Rat) :
      env.running.call k (.setLastStart task.capability start) fun answer k' =>
        answer = .ok () ∧ x = x ∧ Unstarted k'.history :=
    call_running hwaiting rfl rfl fun k hwaiting => ⟨rfl, rfl, hwaiting⟩
  obtain ⟨controls, hcontrols⟩ := hstarts.executionControls
  unfold waitForExecutionWindow
  rw [wp_bind, wp_ofExcept, hcontrols]
  dsimp only
  split
  · exact ⟨rfl, rfl, hwaiting⟩
  · rename_i minInterval _
    rw [wp_bind, wp_ask]
    refine call_running hwaiting rfl rfl ?_
    intro k hwaiting
    dsimp only
    rw [wp_bind, wp_ask]
    refine call_running hwaiting rfl rfl ?_
    intro k' hwaiting
    dsimp only
    split
    · exact hreserved k' hwaiting _
    · split
      · rw [wp_bind, wp_ask]
        refine call_running hwaiting rfl (hstarts.sleep _ _ hwaiting) ?_
        intro k hwaiting
        dsimp only
        rw [wp_bind, wp_ask]
        refine call_running hwaiting rfl rfl ?_
        exact fun k hwaiting => hreserved k hwaiting _
      · exact hreserved k' hwaiting _

/-- With its event the first attempt is due. -/
theorem startTask_starts (hstarts : env.Starts sup task) (huninterrupted : env.Uninterrupted)
    (hcapability : x.capability = task.capability) (hwaiting : Unstarted k.history) :
    (startTask sup).wp env.running
      (fun outcome _ k' => (∃ started, outcome = .ok started) ∧
        (progress k'.history).attempts.isSome = true) x k := by
  obtain ⟨controls, hcontrols⟩ := hstarts.executionControls
  simp only [startTask, wp_bind, wp_object, wp_ofExcept, hcapability, hcontrols]
  apply wp_mono monotone_running _ (waitForExecutionWindow_starts hstarts hwaiting)
  rintro outcome y k ⟨rfl, rfl, hwaiting⟩
  dsimp only
  apply wp_now_running hwaiting
  intro startedAt k hwaiting
  simp only [transitionStatus, appendAudit, saveTask, emitEvent, timestampOrNow, wp_bind, wp_mutate,
    wp_object, wp_pure, wp_tryExcept, wp_ask]
  refine call_running hwaiting rfl rfl ?_
  intro k hwaiting
  apply wp_now_running hwaiting
  intro ts k hwaiting
  apply call_started huninterrupted rfl
  rintro (e | emitted) k hcaught hbegun
  · have hexception : e.isException = true := hcaught e rfl
    simp only [hexception, if_true]
    exact ⟨⟨_, rfl⟩, hbegun⟩
  · exact ⟨⟨_, rfl⟩, hbegun⟩

/-- Attempts that have begun stay begun. -/
theorem attempts_kept : KeptByCalls env.running (fun _ => True)
    fun k => (progress k.history).attempts.isSome = true where
  monotone := monotone_running
  outOfFuel _ _ := trivial
  identifies _ _ _ _ _ _ := trivial
  calls c k hc _ hbegun := by
    change ((progress k.history).after c _).attempts.isSome = true
    cases c with
    | runTaskEntered | storeGet => cases hc
    | emit t event =>
        simp only [Progress.after]
        split
        · rfl
        · exact hbegun
    | _ =>
      generalize (env.machine.respond k.history k.state _).1 = answer
      cases answer <;> simpa [Progress.after, Progress.wrote, Progress.succeeded,
        Progress.failed, Progress.stuck] using hbegun

theorem executeTask_starts (hstarts : env.Starts sup task) (huninterrupted : env.Uninterrupted)
    (fuel : Nat) (hcapability : x.capability = task.capability) (hwaiting : Unstarted k.history) :
    (executeTask sup fuel capability).wp env.running
      (fun _ _ k' => (progress k'.history).attempts.isSome = true) x k := by
  simp only [executeTask, wp_bind]
  apply wp_mono monotone_running _ (applyPeerSuggestion_starts hstarts hcapability hwaiting)
  rintro outcome y k ⟨rfl, hcapability, hwaiting⟩
  apply wp_mono monotone_running _ (startTask_starts hstarts huninterrupted hcapability hwaiting)
  rintro outcome y k ⟨⟨started, rfl⟩, hbegun⟩
  have hkept : (runAttempts sup fuel capability started.1 started.2).wp env.running
      (fun _ _ k' => True ∧ (progress k'.history).attempts.isSome = true) y k :=
    attempts_kept.taskInvariant.runAttempts fuel capability started.1 started.2 ⟨trivial, hbegun⟩
  exact wp_mono monotone_running (fun _ _ _ h => h.2) hkept

theorem runLoadedTask_starts (hstarts : env.Starts sup task) (huninterrupted : env.Uninterrupted)
    (fuel : Nat) (hexecutable : task.status = .pending ∨ task.status = .approved)
    (hwaiting : Unstarted k.history) :
    (runLoadedTask sup fuel).wp env.running
      (fun _ _ k' => (progress k'.history).attempts.isSome = true) task k := by
  simp only [runLoadedTask, wp_bind, wp_object]
  rcases hexecutable with hpending | happroved
  · rw [if_pos hpending, wp_bind]
    apply wp_mono monotone_running _ (validateTaskSubmission_starts hstarts hwaiting)
    rintro outcome _ k ⟨rfl, rfl, hwaiting⟩
    simp only [wp_bind]
    apply wp_mono monotone_running _ (gatePending_starts hstarts hpending hwaiting)
    rintro outcome y k ⟨rfl, hpending, hcapability, hwaiting⟩
    simp only [wp_object, if_pos hpending]
    exact executeTask_starts hstarts huninterrupted fuel hcapability hwaiting
  · rw [if_neg (by simp [happroved]), if_pos happroved, wp_bind]
    apply wp_mono monotone_running _ (validateTaskSubmission_starts hstarts hwaiting)
    rintro outcome _ k ⟨rfl, rfl, hwaiting⟩
    exact executeTask_starts hstarts huninterrupted fuel rfl hwaiting

/-- `run_task` on a task that everybody lets through comes to an attempt. -/
theorem runTask_starts (hstarts : env.Starts sup task) (huninterrupted : env.Uninterrupted)
    {taskId : TaskId} (hstored : k.state.store.get taskId = some task) (fuel : Nat)
    (hexecutable : task.status = .pending ∨ task.status = .approved) :
    (runTask sup fuel taskId).wp env.running
      (fun _ _ k' => (progress k'.history).attempts.isSome = true) () k := by
  simp only [runTask, getTask, wp_bind, wp_ask, wp_on]
  apply Machine.call_of_step (rfl : env.machine.step k (.runTaskEntered taskId) = (.ok (), _))
  have hloaded : (env.machine.step (env.machine.step k (.runTaskEntered taskId)).2
      (.storeGet taskId)).1 = .ok (some task) := by
    rw [← hstored]
    rfl
  have hwaiting : Unstarted (env.machine.step k (.runTaskEntered taskId)).2.history := rfl
  refine call_running hwaiting rfl hloaded ?_
  intro k hwaiting
  dsimp only [wp_pure]
  apply wp_mono monotone_running _
    (runLoadedTask_starts hstarts huninterrupted fuel hexecutable hwaiting)
  rintro (e | ran) y k hbegun <;> exact hbegun

end Conductor
