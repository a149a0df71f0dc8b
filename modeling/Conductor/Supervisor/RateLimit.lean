/-
The distance between the executions of a capability.  A place is reserved for the
first attempt at a task; a retry takes none.
-/
import Mathlib.Data.List.Chain
import Conductor.Supervisor.Sequential
import Conductor.Supervisor.Stages

namespace Conductor

open Effects Block

/-- The instants that were reserved for a capability, the newest first. -/
def reservations (capability : String) : Trace → List Rat
  | [] => []
  | ⟨.setLastStart name start, _⟩ :: h =>
      if name = capability then start :: reservations capability h
      else reservations capability h
  | _ :: h => reservations capability h

/-- A place was reserved since the capability was executed last. -/
def Reserved (capability : String) : Trace → Prop
  | [] => False
  | ⟨.setLastStart name _, _⟩ :: h => name = capability ∨ Reserved capability h
  | ⟨.execute name _ _ _ _, _⟩ :: h => name ≠ capability ∧ Reserved capability h
  | _ :: h => Reserved capability h

/-- The last decision about a task of the capability, in the call of `run_task` under
way, is to retry it. -/
def Retrying (capability : String) : Trace → Prop
  | [] => False
  | ⟨.entered _, _⟩ :: _ => False
  | ⟨.runTaskEntered _, _⟩ :: _ => False
  | ⟨.decide task _, .ok decision⟩ :: h =>
      if task.capability = capability then decision.shouldRetry = true
      else Retrying capability h
  | _ :: h => Retrying capability h

/-- A task of the capability came to another attempt: after the decision to retry
it, its input was found valid again. -/
def SecondAttempt (capability : String) (h : Trace) : Prop :=
  ∃ later input payload earlier,
    h = later ++ ⟨.validateInput capability input, .ok payload⟩ :: earlier ∧
      Retrying capability earlier

/-- Each execution has a reservation of its own, and the reservations keep their
distance. -/
structure RateLimited (capability : String) (minInterval : Rat) (h : Trace) : Prop where
  own : ∀ later earlier task payload context timeout answer,
    h = later ++ ⟨.execute capability task payload context timeout, answer⟩ :: earlier →
      Reserved capability earlier
  spaced : (reservations capability h).IsChain fun start previous =>
    previous + minInterval ≤ start

/-- `time.monotonic` never decreases, and `time.sleep` takes its time. -/
structure Env.Clocked (env : Env) : Prop where
  monotonic : ∀ h later, env.monotonic h ≤ env.monotonic (later ++ h)
  sleep : ∀ h later seconds, env.sleep h seconds = .ok () →
    env.monotonic h + seconds ≤ env.monotonic (later ++ ⟨.sleep seconds, .ok ()⟩ :: h)

/-- Whatever starts an attempt must have a place, unless it is a second attempt. -/
def Limited (capability : String) (minInterval : Rat) (h : Trace) : Call → Prop
  | .setLastStart name start => name = capability →
      ∀ previous ∈ (reservations capability h).head?, previous + minInterval ≤ start
  | .execute name _ _ _ _ => name = capability →
      Reserved capability h ∨ SecondAttempt capability h
  | _ => True

theorem SecondAttempt.later {capability : String} {h : Trace} (hsecond : SecondAttempt capability h)
    (new : Trace) : SecondAttempt capability (new ++ h) := by
  obtain ⟨later, input, payload, earlier, hsplit, hretrying⟩ := hsecond
  refine ⟨new ++ later, input, payload, earlier, ?_, hretrying⟩
  rw [hsplit, List.append_assoc]

/-- What the rules come to for a history without second attempts. -/
theorem rateLimited_of_obeys {capability : String} {minInterval : Rat} {h : Trace}
    (hobeys : Obeys (Limited capability minInterval) h)
    (hfirst : ¬ SecondAttempt capability h) : RateLimited capability minInterval h := by
  constructor
  · intro later earlier task payload context timeout answer hsplit
    rw [hsplit] at hobeys hfirst
    rcases hobeys.of_append.1 rfl with hreserved | hsecond
    · exact hreserved
    · exact absurd ((hsecond.later [_]).later later) hfirst
  · clear hfirst
    induction h with
    | nil => exact List.isChain_nil
    | cons e h ih =>
        have ih := ih hobeys.2
        obtain ⟨c, answer⟩ := e
        cases c with
        | setLastStart name start =>
            rw [reservations]
            split
            · rename_i hname
              exact List.isChain_cons.mpr ⟨hobeys.1 hname, ih⟩
            · exact ih
        | _ => exact ih

/-! ### The reservation -/

/-- The store of the last starts is what the reservations say. -/
theorem stateAfter_lastStart (env : Env) (queue : TaskQueue) (capability : String) (h : Trace) :
    (env.machine.stateAfter (World.initial queue) h).lastCapabilityStart.lookup capability =
      (reservations capability h).head? := by
  induction h with
  | nil => rfl
  | cons e h ih =>
      obtain ⟨c, answer⟩ := e
      cases c with
      | enqueue taskId =>
          change (env.respond h (env.machine.stateAfter (World.initial queue) h)
            (.enqueue taskId)).2.lastCapabilityStart.lookup capability = _
          simp only [Env.respond]
          split <;> exact ih
      | setLastStart name start =>
          change List.lookup capability ((name, start) ::
            (env.machine.stateAfter (World.initial queue) h).lastCapabilityStart) = _
          rw [List.lookup_cons, reservations, ih]
          by_cases hname : name = capability
          · rw [if_pos hname, hname, beq_self_eq_true]
            rfl
          · rw [if_neg hname, beq_false_of_ne (Ne.symm hname)]
      | _ => exact ih

/-- The reservations lie in the past. -/
structure Paced (env : Env) (queue : TaskQueue) (capability : String) (k : State) : Prop where
  traced : env.machine.Traced (World.initial queue) k
  past : ∀ start ∈ reservations capability k.history, ∀ later,
    start ≤ env.monotonic (later ++ k.history)

section

variable {env : Env} {queue : TaskQueue} {capability name : String} {minInterval : Rat} {k : State}
variable {sup : Supervisor} {σ : Type} {x : σ}

/-- A call after which the history has the same reservations. -/
theorem Paced.same (hpaced : Paced env queue capability k) (c : Call)
    (hsame : reservations capability (env.machine.step k c).2.history =
      reservations capability k.history) : Paced env queue capability (env.machine.step k c).2 where
  traced := hpaced.traced.step c
  past start hstart later := by
    rw [hsame] at hstart
    have hpast := hpaced.past start hstart (later ++ [⟨c, (env.machine.step k c).1⟩])
    rwa [List.append_assoc] at hpast

theorem Paced.reserve (hpaced : Paced env queue capability k) (start : Rat)
    (hpast : ∀ later, start ≤ env.monotonic (later ++ k.history)) :
    Paced env queue capability (env.machine.step k (.setLastStart name start)).2 where
  traced := hpaced.traced.step _
  past other hother later := by
    have hlater (bound : Rat) (hbound : ∀ later, bound ≤ env.monotonic (later ++ k.history)) :
        bound ≤ env.monotonic
          (later ++ (env.machine.step k (.setLastStart name start)).2.history) := by
      have hpast := hbound (later ++ [⟨.setLastStart name start, .ok ()⟩])
      rwa [List.append_assoc] at hpast
    have hmem : other = start ∨ other ∈ reservations capability k.history := by
      change other ∈ reservations capability (⟨.setLastStart name start, .ok ()⟩ :: k.history)
        at hother
      rw [reservations] at hother
      split at hother
      · exact List.mem_cons.mp hother
      · exact .inr hother
    rcases hmem with hnew | hold
    · rw [hnew]
      exact hlater start hpast
    · exact hlater other (hpaced.past other hold)

/-- The logic of the rules. -/
abbrev Paces (env : Env) (capability : String) (minInterval : Rat) : Logic State Call Answer :=
  env.machine.guardedLogic (Limited capability minInterval)

theorem monotone_paces : (Paces env capability minInterval).Monotone :=
  env.machine.guardedLogic_monotone _

/-- An allowed call, by its answer. -/
theorem call_of_step {k' : State} {c : Call} {answer : Answer c}
    (hallowed : Limited capability minInterval k.history c)
    (hstep : env.machine.step k c = (answer, k')) {post : Answer c → State → Prop}
    (hpost : post answer k') : (Paces env capability minInterval).call k c post := by
  refine ⟨hallowed, ?_⟩
  rwa [hstep]

/-- A reservation that keeps the distance to the one before it. -/
theorem wp_reserve (hpaced : Paced env queue capability k) {start : Rat}
    (hpast : ∀ later, start ≤ env.monotonic (later ++ k.history))
    (hspaced : name = capability →
      ∀ previous ∈ (reservations capability k.history).head?, previous + minInterval ≤ start) :
    (ask (.setLastStart name start) : Block Call Response PyExc σ Unit).wp
      (Paces env capability minInterval) (fun outcome y k' =>
        y = x ∧ Paced env queue capability k' ∧
          (outcome = .ok () → name = capability → Reserved capability k'.history)) x k :=
  ⟨hspaced, rfl, hpaced.reserve start hpast, fun _ hname => .inl hname⟩

/-- Waiting for the execution window ends with a reservation. -/
theorem waitForExecutionWindow_reserves (hclock : env.Clocked)
    {controls : CapabilityExecutionControls}
    (hcontrols : sup.registry.executionControls capability = .ok controls)
    (hinterval : controls.minIntervalSeconds = some minInterval)
    (hpaced : Paced env queue capability k) :
    (waitForExecutionWindow sup name : Block Call Response PyExc σ Unit).wp
      (Paces env capability minInterval) (fun outcome y k' =>
        y = x ∧ Paced env queue capability k' ∧
          (outcome = .ok () → name = capability → Reserved capability k'.history)) x k := by
  let k₁ : State := (env.machine.step k .monotonic).2
  let k₂ : State := (env.machine.step k₁ (.lastStart name)).2
  have hpaced₂ : Paced env queue capability k₂ := (hpaced.same .monotonic rfl).same _ rfl
  have hnow (later : Trace) : env.monotonic k.history ≤ env.monotonic (later ++ k₂.history) := by
    have hlater := hclock.monotonic k.history (later ++ [⟨.lastStart name,
      .ok (k.state.lastCapabilityStart.lookup name)⟩, ⟨.monotonic, .ok (env.monotonic k.history)⟩])
    rwa [List.append_assoc] at hlater
  have hlast : k.state.lastCapabilityStart.lookup capability =
      (reservations capability k₂.history).head? := by
    rw [hpaced.traced.1, stateAfter_lastStart]
    rfl
  unfold waitForExecutionWindow
  rw [wp_bind, wp_ofExcept]
  cases hfound : sup.registry.executionControls name with
  | error e => exact ⟨rfl, hpaced, by simp⟩
  | ok found =>
      have hsame : name = capability → found.minIntervalSeconds = some minInterval := by
        intro hname
        rw [hname, hcontrols] at hfound
        rw [← Except.ok.inj hfound, hinterval]
      dsimp only
      cases hmin : found.minIntervalSeconds with
      | none =>
          refine ⟨rfl, hpaced, fun _ hname => ?_⟩
          rw [hsame hname] at hmin
          cases hmin
      | some interval =>
          dsimp only
          have hmonotonic : env.machine.step k .monotonic = (.ok (env.monotonic k.history), k₁) :=
            rfl
          have hlookup : env.machine.step k₁ (.lastStart name) =
              (.ok (k.state.lastCapabilityStart.lookup name), k₂) := rfl
          rw [wp_bind, wp_ask]
          refine call_of_step (by trivial) hmonotonic ?_
          dsimp only
          rw [wp_bind, wp_ask]
          refine call_of_step (by trivial) hlookup ?_
          dsimp only
          cases hprevious : k.state.lastCapabilityStart.lookup name with
          | none =>
              refine wp_reserve hpaced₂ hnow fun hname previous hhead => ?_
              rw [← hlast, ← hname, hprevious] at hhead
              cases hhead
          | some previous =>
              have hhead : name = capability →
                  ∀ other ∈ (reservations capability k₂.history).head?, other = previous := by
                intro hname other hother
                rw [← hlast, ← hname, hprevious] at hother
                exact (Option.some.inj hother).symm
              dsimp only
              split
              · let seconds := interval - (env.monotonic k.history - previous)
                let k₃ : State := (env.machine.step k₂ (.sleep seconds)).2
                have hpaced₃ : Paced env queue capability k₃ := hpaced₂.same _ rfl
                rw [wp_bind, wp_ask]
                cases hsleep : env.sleep k₂.history seconds with
                | error e =>
                    have hstep : env.machine.step k₂ (.sleep seconds) = (.error e, k₃) :=
                      congrArg (·, k₃) hsleep
                    exact call_of_step (by trivial) hstep ⟨rfl, hpaced₃, by simp⟩
                | ok slept =>
                    have hstep : env.machine.step k₂ (.sleep seconds) = (.ok (), k₃) :=
                      congrArg (·, k₃) hsleep
                    have hawake : env.machine.step k₃ .monotonic =
                        (.ok (env.monotonic k₃.history), _) := rfl
                    refine call_of_step (by trivial) hstep ?_
                    dsimp only
                    rw [wp_bind, wp_ask]
                    refine call_of_step (by trivial) hawake ?_
                    refine wp_reserve (hpaced₃.same .monotonic rfl) ?_ ?_
                    · intro later
                      have hlater := hclock.monotonic k₃.history
                        (later ++ [⟨.monotonic, .ok (env.monotonic k₃.history)⟩])
                      rwa [List.append_assoc] at hlater
                    · intro hname other hother
                      rw [hhead hname other hother]
                      have hinterval' : interval = minInterval :=
                        Option.some.inj (hmin.symm.trans (hsame hname))
                      have hhistory : ⟨.sleep seconds, .ok ()⟩ :: k₂.history = k₃.history :=
                        congrArg (⟨.sleep seconds, ·⟩ :: k₂.history) hsleep.symm
                      have htook := hclock.sleep k₂.history [] seconds hsleep
                      rw [List.nil_append, hhistory] at htook
                      have hstart := hnow []
                      rw [List.nil_append] at hstart
                      have hseconds : seconds = interval - (env.monotonic k.history - previous) :=
                        rfl
                      linarith
              · rename_i hpassed
                refine wp_reserve hpaced₂ hnow fun hname other hother => ?_
                rw [hhead hname other hother]
                have hinterval' : interval = minInterval :=
                  Option.some.inj (hmin.symm.trans (hsame hname))
                rw [hinterval'] at hpassed
                linarith

end

/-! ### The attempts -/

section

variable {env : Env} {queue : TaskQueue} {capability name : String} {minInterval : Rat} {k : State}
variable {sup : Supervisor} {x : TaskRecord}

/-- A task of the capability `name` is under way, and so much is known of the history. -/
def InProgress (env : Env) (queue : TaskQueue) (capability name : String) (Q : Trace → Prop)
    (x : TaskRecord) (k : State) : Prop :=
  x.capability = name ∧ Paced env queue capability k ∧ Q k.history

/-- What the calls about a task under way do not change. -/
def Steady (Q : Trace → Prop) : Prop :=
  ∀ ⦃c h⦄ (answer : Answer c), c.isWork = true → Q h → Q (⟨c, answer⟩ :: h)

theorem work_limited {c : Call} {h : Trace} (hc : c.isWork = true) :
    Limited capability minInterval h c := by
  cases c with
  | setLastStart | execute => cases hc
  | _ => trivial

theorem work_reservations {c : Call} {h : Trace} (answer : Answer c) (hc : c.isWork = true) :
    reservations capability (⟨c, answer⟩ :: h) = reservations capability h := by
  cases c <;> first | rfl | cases hc

theorem underway_kept {Q : Trace → Prop} (hQ : Steady Q) :
    KeptByWork (Paces env capability minInterval) (fun t => t.capability = name)
      fun k => Paced env queue capability k ∧ Q k.history where
  monotone := monotone_paces
  identifies _ _ _ _ hcapability h := hcapability.trans h
  calls c k hc _ h := by
    refine ⟨work_limited hc, h.1.same c (work_reservations _ hc), hQ _ hc h.2⟩

theorem underway_work {Q : Trace → Prop} (hQ : Steady Q) :
    WorkInvariant (Paces env capability minInterval) (InProgress env queue capability name Q) :=
  (underway_kept hQ).workInvariant

theorem steady_true : Steady fun _ => True := fun _ _ _ _ _ => trivial

theorem steady_reserved : Steady fun h => name = capability → Reserved capability h := by
  intro c h answer hc hQ hname
  cases c <;> first | exact hQ hname | cases hc

theorem steady_retrying : Steady fun h => name = capability → Retrying capability h := by
  intro c h answer hc hQ hname
  cases c <;> first | exact hQ hname | cases hc

/-- An attempt may begin: there is a place for it, or it is the second one. -/
def MayStart (capability name : String) (h : Trace) : Prop :=
  name = capability → Reserved capability h ∨ Retrying capability h

theorem attempt_limited {controls : CapabilityExecutionControls} {startedAt : Time}
    (hunderway : InProgress env queue capability name (MayStart capability name) x k) :
    (attempt sup name controls startedAt).wp (Paces env capability minInterval)
      (fun _ t k' => InProgress env queue capability name (fun _ => True) t k') x k := by
  obtain ⟨hcapability, hpaced, hmayStart⟩ := hunderway
  apply (underway_work steady_true).attempt
  refine ⟨trivial, ⟨hcapability, hpaced.same _ rfl, trivial⟩, fun payload hpayload => ?_⟩
  refine ⟨fun hname => ?_, hcapability, (hpaced.same _ rfl).same _ rfl, trivial⟩
  rcases hmayStart hname with hreserved | hretrying
  · exact .inl hreserved
  · right
    refine ⟨[], x.input, payload, k.history, ?_, hretrying⟩
    rw [← hname, ← hpayload]
    rfl

/-- The loop goes round again only if the task is retried. -/
theorem handleFailure_limited {startedAt : Time} {history : List FailureContext} {exc : PyExc}
    (hprogress : InProgress env queue capability name (fun _ => True) x k) :
    (handleFailure sup startedAt history exc).wp (Paces env capability minInterval)
      (fun outcome t k' => InProgress env queue capability name (fun _ => True) t k' ∧
        ∀ history, outcome = .ok (.again history) → MayStart capability name k'.history)
      x k := by
  unfold handleFailure
  rw [wp_bind]
  refine wp_mono monotone_paces ?_ ((underway_work steady_true).recordFailure exc hprogress)
  intro outcome t k₁ hprogress
  cases outcome with
  | error e => exact ⟨hprogress, by simp⟩
  | ok failure =>
      obtain ⟨hcapability, hpaced, -⟩ := hprogress
      have hpaced₂ := hpaced.same (.decide t failure) rfl
      dsimp only
      rw [wp_bind, wp_object]
      dsimp only
      rw [wp_bind, wp_ask]
      cases hdecision : env.decide k₁.history t failure with
      | error e =>
          have hstep : env.machine.step k₁ (.decide t failure) = (.error e, _) :=
            congrArg (·, _) hdecision
          exact call_of_step (by trivial) hstep ⟨⟨hcapability, hpaced₂, trivial⟩, by simp⟩
      | ok decision =>
          have hstep : env.machine.step k₁ (.decide t failure) = (.ok decision, _) :=
            congrArg (·, _) hdecision
          refine call_of_step (by trivial) hstep ?_
          dsimp only
          split
          · rename_i hretry
            have hretrying : name = capability →
                Retrying capability (env.machine.step k₁ (.decide t failure)).2.history := by
              intro hname
              change Retrying capability
                (⟨.decide t failure, env.decide k₁.history t failure⟩ :: k₁.history)
              rw [hdecision, Retrying, if_pos (hcapability.trans hname)]
              exact hretry
            refine wp_mono monotone_paces ?_ ((underway_work steady_retrying).retry_after
              startedAt exc _ decision ⟨hcapability, hpaced₂, hretrying⟩)
            intro outcome t' k' hprogress'
            exact ⟨⟨hprogress'.1, hprogress'.2.1, trivial⟩,
              fun _ _ hname => .inr (hprogress'.2.2 hname)⟩
          · refine wp_mono monotone_paces ?_ ((underway_work steady_true).giveUp
              startedAt exc _ decision ⟨hcapability, hpaced₂, trivial⟩)
            intro outcome t' k' hgaveup
            exact ⟨hgaveup.1, fun history hagain => absurd hagain (hgaveup.2 history)⟩

theorem attemptRound_limited {controls : CapabilityExecutionControls} {startedAt : Time}
    {history : List FailureContext}
    (hprogress : InProgress env queue capability name (MayStart capability name) x k) :
    (attemptRound sup name controls startedAt history).wp (Paces env capability minInterval)
      (fun outcome t k' => InProgress env queue capability name (fun _ => True) t k' ∧
        ∀ history, outcome = .ok (.again history) → MayStart capability name k'.history)
      x k := by
  unfold attemptRound
  rw [wp_tryExcept, wp_bind]
  refine wp_mono monotone_paces ?_ (attempt_limited hprogress)
  intro outcome t k₁ hprogress
  cases outcome with
  | error e =>
      dsimp only
      split
      · exact handleFailure_limited hprogress
      · exact ⟨hprogress, by simp⟩
  | ok done => exact ⟨hprogress, by simp⟩

/-- Round by round, each attempt has a place or is a second one. -/
theorem attemptLoop_limited {controls : CapabilityExecutionControls} {startedAt : Time}
    (fuel : Nat) (history : List FailureContext)
    (hprogress : InProgress env queue capability name (MayStart capability name) x k) :
    (attemptLoop sup name controls startedAt fuel history).wp (Paces env capability minInterval)
      (fun _ t k' => InProgress env queue capability name (fun _ => True) t k') x k := by
  induction fuel generalizing history x k with
  | zero => trivial
  | succ fuel ih =>
      unfold attemptLoop
      rw [wp_bind]
      refine wp_mono monotone_paces ?_ (attemptRound_limited hprogress)
      intro outcome t k₁ hround
      cases outcome with
      | error e => exact hround.1
      | ok flow =>
          cases flow with
          | stop lastExc history => exact hround.1
          | again history =>
              have hprogress := hround.1
              exact ih history ⟨hprogress.1, hprogress.2.1, hround.2 history rfl⟩

theorem runAttempts_limited {controls : CapabilityExecutionControls} {startedAt : Time}
    (fuel : Nat) (hprogress : InProgress env queue capability name (MayStart capability name) x k) :
    (runAttempts sup fuel name controls startedAt).wp (Paces env capability minInterval)
      (fun _ t k' => InProgress env queue capability name (fun _ => True) t k') x k := by
  unfold runAttempts
  rw [wp_bind]
  refine wp_mono monotone_paces ?_ (attemptLoop_limited fuel [] hprogress)
  intro outcome t k₁ hprogress
  cases outcome with
  | error e => exact hprogress
  | ok ended =>
      dsimp only
      split
      · exact hprogress
      · exact (underway_work steady_true).failTask _ _ _ hprogress

theorem applyPeerSuggestion_limited
    (hprogress : InProgress env queue capability name (fun _ => True) x k) :
    (applyPeerSuggestion sup).wp (Paces env capability minInterval)
      (fun _ t k' => InProgress env queue capability name (fun _ => True) t k') x k := by
  unfold applyPeerSuggestion
  split
  · rw [wp_bind, wp_object]
    dsimp only
    rw [wp_bind, wp_ask]
    refine ⟨trivial, ?_⟩
    have hsuggested : InProgress env queue capability name (fun _ => True) x
        (env.machine.step k (.suggest x.capability x.input)).2 :=
      ⟨hprogress.1, hprogress.2.1.same _ rfl, trivial⟩
    rcases (env.machine.step k (.suggest x.capability x.input)).1 with e | _ | ⟨best, rest⟩
    · exact hsuggested
    · exact hsuggested
    · exact (underway_work steady_true).noted _ _ _ _ _ rfl hsuggested
  · exact hprogress

/-- A started task has its place. -/
theorem startTask_limited (hclock : env.Clocked) {controls : CapabilityExecutionControls}
    (hcontrols : sup.registry.executionControls capability = .ok controls)
    (hinterval : controls.minIntervalSeconds = some minInterval)
    (hprogress : InProgress env queue capability name (fun _ => True) x k) :
    (startTask sup).wp (Paces env capability minInterval) (fun outcome t k' =>
      InProgress env queue capability name (fun _ => True) t k' ∧
        ∀ started, outcome = .ok started → MayStart capability name k'.history) x k := by
  obtain ⟨hcapability, hpaced, -⟩ := hprogress
  unfold startTask
  rw [wp_bind, wp_object]
  dsimp only
  rw [wp_bind, wp_ofExcept]
  cases sup.registry.executionControls x.capability with
  | error e => exact ⟨⟨hcapability, hpaced, trivial⟩, by simp⟩
  | ok found =>
      dsimp only
      rw [wp_bind, hcapability]
      refine wp_mono monotone_paces ?_
        (waitForExecutionWindow_reserves hclock hcontrols hinterval hpaced)
      intro outcome t k₁ hwaited
      obtain ⟨hsame, hpaced₁, hreserved⟩ := hwaited
      have hcapability₁ : t.capability = name := hsame ▸ hcapability
      cases outcome with
      | error e => exact ⟨⟨hcapability₁, hpaced₁, trivial⟩, by simp⟩
      | ok waited =>
          have hstarted : InProgress env queue capability name
              (fun h => name = capability → Reserved capability h) t k₁ :=
            ⟨hcapability₁, hpaced₁, hreserved rfl⟩
          dsimp only
          rw [wp_bind]
          refine wp_mono monotone_paces ?_ ((underway_work steady_reserved).ask_aside rfl hstarted)
          intro outcome t k₂ hstarted
          cases outcome with
          | error e => exact ⟨⟨hstarted.1, hstarted.2.1, trivial⟩, by simp⟩
          | ok startedAt =>
              dsimp only
              rw [wp_bind, wp_mutate]
              dsimp only
              rw [wp_bind, wp_object]
              dsimp only
              rw [wp_bind]
              refine wp_mono monotone_paces ?_
                ((underway_work steady_reserved).worked .running "started" .taskStarted _ _ _
                  (by decide) nofun rfl hstarted)
              intro outcome t k₃ hstarted
              cases outcome with
              | error e => exact ⟨⟨hstarted.1, hstarted.2.1, trivial⟩, by simp⟩
              | ok saved =>
                  exact ⟨⟨hstarted.1, hstarted.2.1, trivial⟩,
                    fun _ _ hname => .inl (hstarted.2.2 hname)⟩

/-- The work on an authorised task obeys the rules. -/
theorem executeTask_limited (hclock : env.Clocked) {controls : CapabilityExecutionControls}
    (hcontrols : sup.registry.executionControls capability = .ok controls)
    (hinterval : controls.minIntervalSeconds = some minInterval) {fuel : Nat}
    (hprogress : InProgress env queue capability name (fun _ => True) x k) :
    (executeTask sup fuel name).wp (Paces env capability minInterval)
      (fun _ t k' => InProgress env queue capability name (fun _ => True) t k') x k := by
  unfold executeTask
  rw [wp_bind]
  refine wp_mono monotone_paces ?_ (applyPeerSuggestion_limited hprogress)
  intro outcome t k₁ hprogress
  cases outcome with
  | error e => exact hprogress
  | ok applied =>
      dsimp only
      rw [wp_bind]
      refine wp_mono monotone_paces ?_ (startTask_limited hclock hcontrols hinterval hprogress)
      intro outcome t k₂ hstarted
      cases outcome with
      | error e => exact hstarted.1
      | ok started =>
          obtain ⟨⟨hcapability, hpaced, -⟩, hmayStart⟩ := hstarted
          exact runAttempts_limited fuel ⟨hcapability, hpaced, hmayStart started rfl⟩

/-- The gates start nothing. -/
theorem gateInvariant_limited : GateInvariant (Paces env capability minInterval)
    fun _ t k => InProgress env queue capability name (fun _ => True) t k where
  monotone := monotone_paces
  loaded _ _ _ h := h
  approved _ _ h _ := h
  result _ _ _ _ h := h
  atGate _ _ _ c hc h := by
    cases c with
    | now | validateInput => exact ⟨trivial, h.1, h.2.1.same _ rfl, trivial⟩
    | _ => cases hc
  described _ _ _ _ h :=
    ⟨trivial, ⟨h.1, h.2.1.same _ rfl, trivial⟩, fun _ _ _ => ⟨h.1, h.2.1.same _ rfl, trivial⟩⟩
  evaluated _ _ _ h :=
    ⟨trivial, ⟨h.1, h.2.1.same _ rfl, trivial⟩, fun _ _ _ => ⟨h.1, h.2.1.same _ rfl, trivial⟩⟩
  parked _ _ _ _ h := (underway_kept steady_true).notes.transitionStatus _ _ _ _ _ _ _ h
  denied _ _ _ _ _ h := (underway_kept steady_true).notes.transitionStatus _ _ _ _ _ _ _ h
  noted := (underway_work steady_true).noted

theorem runLoadedTask_limited (hclock : env.Clocked) {controls : CapabilityExecutionControls}
    (hcontrols : sup.registry.executionControls capability = .ok controls)
    (hinterval : controls.minIntervalSeconds = some minInterval) (fuel : Nat) :
    Keeps (Paces env capability minInterval) (fun _ k => Paced env queue capability k)
      (runLoadedTask sup fuel) := by
  intro task k hpaced
  have hloaded : InProgress env queue capability task.capability (fun _ => True) task k :=
    ⟨rfl, hpaced, trivial⟩
  refine wp_mono monotone_paces (fun _ _ _ h => h.2.1)
    (gateInvariant_limited.runLoadedTask (fun _ _ h => ?_) hloaded rfl)
  exact executeTask_limited hclock hcontrols hinterval h

theorem deskInvariant_limited : DeskInvariant (Paces env capability minInterval)
    (fun _ k => Paced env queue capability k) (Paced env queue capability) where
  monotone := monotone_paces
  result _ _ _ h := h
  clock _ _ h := ⟨trivial, h.same _ rfl⟩
  settled _ _ h := h
  atDesk _ c hc h := by
    cases c with
    | entered | left | runTaskEntered | now | uuid4 | validateInput | enqueue | dequeue =>
        exact ⟨trivial, h.same _ rfl⟩
    | _ => cases hc
  found _ _ h := ⟨trivial, h.same _ rfl, fun _ _ => h.same _ rfl⟩
  created _ _ _ _ h _ _ := ⟨trivial, h.same _ rfl⟩
  approving _ _ _ _ h _ :=
    wp_mono monotone_paces (fun _ _ _ h => h.1.2.1)
      ((underway_kept steady_true).notes.transitionStatus _ _ _ _ _ _ _ ⟨rfl, h, trivial⟩)
  cancelling _ _ _ _ _ _ h _ :=
    wp_mono monotone_paces (fun _ _ _ h => h.1.2.1)
      ((underway_kept steady_true).notes.transitionStatus _ _ _ _ _ _ _ ⟨rfl, h, trivial⟩)

/-- While no task of the capability comes to a second attempt, each execution has a
reservation of its own, and the reservations keep their distance. -/
theorem rate_limited_of_first_attempts (env : Env) (sup : Supervisor) (fuel : Nat)
    (ops : List Operation) (queue : TaskQueue) (capability : String)
    (controls : CapabilityExecutionControls) (minInterval : Rat) (hclock : env.Clocked)
    (hcontrols : sup.registry.executionControls capability = .ok controls)
    (hinterval : controls.minIntervalSeconds = some minInterval) :
    ∀ later earlier, (sup.run env fuel ops (.initial queue)).history = later ++ earlier →
      ¬ SecondAttempt capability earlier → RateLimited capability minInterval earlier := by
  intro later earlier hsplit hfirst
  have hstart : Paced env queue capability (.initial queue) := by
    constructor
    · exact ⟨rfl, trivial⟩
    · intro start hstart
      cases hstart
  have hclient := deskInvariant_limited.client
    (runLoadedTask_limited hclock hcontrols hinterval fuel) ops hstart
  have hobeys : Obeys (Limited capability minInterval)
      (sup.run env fuel ops (.initial queue)).history := Prog.exec_obeys hclient trivial
  rw [hsplit] at hobeys
  exact rateLimited_of_obeys hobeys.of_append hfirst

end

/-! ### A clock that counts the sleep -/

/-- The seconds slept so far. -/
def slept : Trace → Rat
  | [] => 0
  | ⟨.sleep seconds, _⟩ :: h => slept h + max seconds 0
  | _ :: h => slept h

/-- The same collaborators, on a clock that only sleep advances. -/
def Env.slumbering (env : Env) : Env :=
  { env with monotonic := slept, sleep := fun _ _ => .ok () }

theorem slept_le (h later : Trace) : slept h ≤ slept (later ++ h) := by
  induction later with
  | nil => exact le_refl _
  | cons e later ih =>
      obtain ⟨c, answer⟩ := e
      cases c with
      | sleep seconds => exact le_trans ih (le_add_of_nonneg_right (le_max_right seconds 0))
      | _ => exact ih

theorem slumbering_clocked (env : Env) : env.slumbering.Clocked where
  monotonic := slept_le
  sleep h later seconds _ := by
    have hslept : slept h + seconds ≤ slept (⟨.sleep seconds, .ok ()⟩ :: h) :=
      add_le_add_right (le_max_left seconds 0) _
    exact le_trans hslept (slept_le _ later)

/-- No decision about a failed task was asked for. -/
def Undecided (h : Trace) : Bool :=
  h.all fun e => match e.call with
    | .decide _ _ => false
    | _ => true

theorem not_retrying_of_undecided {capability : String} {h : Trace} (hundecided : Undecided h) :
    ¬ Retrying capability h := by
  induction h with
  | nil => exact id
  | cons e h ih =>
      obtain ⟨hcall, hundecided⟩ := Bool.and_eq_true_iff.mp hundecided
      obtain ⟨c, answer⟩ := e
      cases c with
      | decide => cases hcall
      | entered | runTaskEntered => exact id
      | _ => exact ih hundecided

theorem not_secondAttempt_of_undecided {capability : String} {h : Trace}
    (hundecided : Undecided h) : ¬ SecondAttempt capability h := by
  intro hsecond
  obtain ⟨later, input, payload, earlier, hsplit, hretrying⟩ := hsecond
  rw [hsplit, Undecided, List.all_append, List.all_cons] at hundecided
  refine not_retrying_of_undecided ?_ hretrying
  exact (Bool.and_eq_true_iff.mp (Bool.and_eq_true_iff.mp hundecided).2).2

/-- A supervisor that executes `echo` every five seconds at most. -/
def Supervisor.limited : Supervisor :=
  { Supervisor.unconfigured ["echo"] with
    registry := ⟨["echo"], [("echo", ⟨none, some 5⟩)]⟩ }

/-- A task that may be retried. -/
def retryable : TaskSubmission := ⟨"say", "echo", [], [], 1, none⟩

/-- Two tasks, one after the other. -/
def limitedRun : State :=
  Supervisor.limited.run Env.returning.slumbering 1 [.runSubmission retryable,
    .runSubmission retryable] (.initial (.inMemory []))

theorem rate_limited_of_first_attempts_limitedRun : RateLimited "echo" 5 limitedRun.history :=
  rate_limited_of_first_attempts Env.returning.slumbering .limited 1
    [.runSubmission retryable, .runSubmission retryable] (.inMemory []) "echo" ⟨none, some 5⟩ 5
    (slumbering_clocked _) rfl rfl [] limitedRun.history rfl
    (not_secondAttempt_of_undecided (by decide +kernel))

/-- How often a capability was executed. -/
def executionCount (capability : String) : Trace → Nat
  | [] => 0
  | ⟨.execute name _ _ _ _, _⟩ :: h =>
      if name = capability then executionCount capability h + 1 else executionCount capability h
  | _ :: h => executionCount capability h

/-- There are no more executions than reservations, and fewer where a place is left. -/
theorem executionCount_le {capability : String} {h : Trace}
    (hown : ∀ later earlier task payload context timeout answer,
      h = later ++ ⟨.execute capability task payload context timeout, answer⟩ :: earlier →
        Reserved capability earlier) :
    executionCount capability h ≤ (reservations capability h).length ∧
      (Reserved capability h →
        executionCount capability h < (reservations capability h).length) := by
  induction h with
  | nil => exact ⟨le_refl _, False.elim⟩
  | cons e h ih =>
      have ih := ih fun later earlier task payload context timeout answer hsplit =>
        hown (e :: later) earlier task payload context timeout answer (by rw [hsplit]; rfl)
      obtain ⟨c, answer⟩ := e
      cases c with
      | execute name task payload context timeout =>
          rw [executionCount, reservations, Reserved]
          · by_cases hname : name = capability
            · subst hname
              have hreserved := ih.2 (hown [] h task payload context timeout answer rfl)
              rw [if_pos rfl]
              exact ⟨hreserved, fun hcontra => absurd rfl hcontra.1⟩
            · rw [if_neg hname]
              exact ⟨ih.1, fun hreserved => ih.2 hreserved.2⟩
          · simp
      | setLastStart name start =>
          rw [executionCount, reservations, Reserved]
          · by_cases hname : name = capability
            · rw [if_pos hname, List.length_cons]
              exact ⟨Nat.le_succ_of_le ih.1, fun _ => Nat.lt_succ_of_le ih.1⟩
            · rw [if_neg hname]
              exact ⟨ih.1, fun hreserved => ih.2 (hreserved.resolve_left hname)⟩
          · simp
      | _ => exact ih

/-- Collaborators of an unconfigured supervisor whose capability fails at first. -/
def Env.faltering : Env :=
  .unconfigured fun h _ _ _ _ =>
    if Undecided h then .error (.exception "RuntimeError" "boom") else .ok ⟨.none, []⟩

/-- A task that is retried. -/
def falteringRun : State :=
  Supervisor.limited.run Env.faltering.slumbering 2 [.runSubmission retryable]
    (.initial (.inMemory []))

/-- The task was executed twice in the place of one. -/
theorem retry_unreserved : Env.faltering.slumbering.Clocked ∧
    ¬ RateLimited "echo" 5 (Supervisor.limited.run Env.faltering.slumbering 2
      [.runSubmission retryable] (.initial (.inMemory []))).history := by
  have hexecuted : executionCount "echo" falteringRun.history = 2 := by decide +kernel
  have hreserved : (reservations "echo" falteringRun.history).length = 1 := by decide +kernel
  refine ⟨slumbering_clocked _, fun hlimited => ?_⟩
  have hle : executionCount "echo" falteringRun.history ≤
      (reservations "echo" falteringRun.history).length := (executionCount_le hlimited.own).1
  omega

end Conductor
