/-
Attempts with a soft timeout.  `_execute_with_timeout` makes the call of the
capability on a thread of its own; the supervisor joins it for at most the
configured time and goes on without it if it is still alive then.
-/
import Conductor.Effects.Workers
import Conductor.Supervisor.Service

namespace Conductor

open Effects

/-- The interpreter counts a timeout in nanoseconds, in a signed word. -/
def joinRefuses (seconds : Rat) : Prop := 2 ^ 63 ≤ (seconds * 10 ^ 9).ceil

instance joinRefusesDecidable (seconds : Rat) : Decidable (joinRefuses seconds) :=
  inferInstanceAs (Decidable (_ ≤ _))

/-- What `Thread.join` raises on a timeout that it cannot count. -/
def joinOverflow : PyExc :=
  .exception "OverflowError" "timestamp too large to convert to C PyTime_t"

def softTimeoutError (seconds : Rat) : PyExc :=
  .exception "TimeoutError" ("Capability execution exceeded " ++ formatFixed 2 seconds ++
    "s soft timeout; work may continue in the background")

example : (softTimeoutError (1 / 100)).text =
    some ("Capability execution exceeded 0.01s soft timeout; " ++
      "work may continue in the background") := by
  decide +kernel

/-- `_execute_with_timeout`: an attempt without a timeout is made by the
supervisor itself. -/
def executionDeadline : (c : Call) → Option (Deadline (Answer c))
  | .execute _ _ _ _ (some seconds) =>
      some ⟨if joinRefuses seconds then some (.error joinOverflow) else none,
        .error (softTimeoutError seconds)⟩
  | _ => none

/-- A supervisor whose client calls operations one after another, with the
workers of its attempts. -/
def Supervisor.supervised (sup : Supervisor) (env : Env) (fuel : Nat) (ops : List Operation)
    (w : World) (turns : List (Turn Call Answer)) : Supervised World Call Answer Unit :=
  (Supervised.start (client sup fuel ops) ⟨[], w⟩).run env.machine executionDeadline turns

/-- The attempts with a timeout, the oldest first. -/
abbrev timedAttempts (h : Trace) : List (Event Call Answer) := deadlined executionDeadline h

/-- An attempt ended in a timeout, or as the call of its own worker did. -/
def EndsAsItsOwn (e : Event Call Answer) (job : Job Call Answer) : Prop :=
  ∃ capability task payload context seconds answer worker,
    e = ⟨.execute capability task payload context (some seconds), answer⟩ ∧
    job = ⟨.execute capability task payload context (some seconds), worker⟩ ∧
    (answer = .error (softTimeoutError seconds) ∨ worker.outcome = some answer)

/-- The same, where the join takes the timeout. -/
def EndsAsItsOwnOrRefused (e : Event Call Answer) (job : Job Call Answer) : Prop :=
  ∃ capability task payload context seconds answer worker,
    e = ⟨.execute capability task payload context (some seconds), answer⟩ ∧
    job = ⟨.execute capability task payload context (some seconds), worker⟩ ∧
    if joinRefuses seconds then answer = .error joinOverflow
    else answer = .error (softTimeoutError seconds) ∨ worker.outcome = some answer

theorem executionDeadline_cases {c : Call} {d : Deadline (Answer c)}
    (hdeadline : executionDeadline c = some d) :
    ∃ capability task payload context seconds,
      c = .execute capability task payload context (some seconds) := by
  cases c with
  | execute capability task payload context timeoutSeconds =>
      cases timeoutSeconds with
      | none => cases hdeadline
      | some seconds => exact ⟨capability, task, payload, context, seconds, rfl⟩
  | _ => cases hdeadline

theorem endsAsItsOwnOrRefused_of_outcome {e : Event Call Answer} {job : Job Call Answer}
    (houtcome : Outcome executionDeadline e job) : EndsAsItsOwnOrRefused e job := by
  obtain ⟨c, d, answer, worker, rfl, rfl, hdeadline, hanswer⟩ := houtcome.answered
  obtain ⟨capability, task, payload, context, seconds, rfl⟩ := executionDeadline_cases hdeadline
  cases hdeadline
  refine ⟨capability, task, payload, context, seconds, answer, worker, rfl, rfl, ?_⟩
  by_cases hrefuses : joinRefuses seconds
  · simp only [if_pos hrefuses] at hanswer ⊢
    rcases hanswer with hrefused | ⟨hrefused, -⟩
    · exact (Option.some.inj hrefused).symm
    · cases hrefused
  · simp only [if_neg hrefuses] at hanswer ⊢
    rcases hanswer with hrefused | ⟨-, hown⟩
    · cases hrefused
    · exact hown

/-- The event that comes next after the calls `h` of a history. -/
def nextEvent (all h : Trace) : Option (Event Call Answer) := all.reverse[h.length]?

theorem nextEvent_of_suffix {all h : Trace} {e : Event Call Answer} (hsuffix : e :: h <:+ all) :
    nextEvent all h = some e := by
  obtain ⟨later, rfl⟩ := hsuffix
  simp [nextEvent]

/-- The collaborators, with the attempts that have a timeout answered as a
history says. -/
def Env.recalling (env : Env) (all : Trace) : Env :=
  { env with
    execute := fun h capability payload context timeoutSeconds =>
      match timeoutSeconds, nextEvent all h with
      | none, _ => env.execute h capability payload context none
      | some _, some ⟨.execute _ _ _ _ _, answer⟩ => answer
      | some seconds, _ => .error (softTimeoutError seconds) }

/-- What the collaborators know about the attempts that have a timeout. -/
def Env.recalled (env : Env) (h : Trace) : (c : Call) → Option (Answer c)
  | .execute capability _ payload context (some seconds) =>
      some (env.execute h capability payload context (some seconds))
  | _ => none

theorem Env.tells_recalled (env : Env) (all : Trace) :
    Tells executionDeadline (env.recalling all).recalled all where
  free h c hdeadline := by
    cases c with
    | execute capability task payload context timeoutSeconds =>
        cases timeoutSeconds with
        | none => rfl
        | some seconds => cases hdeadline
    | _ => rfl
  told e h hsuffix hdeadline := by
    have hnext := nextEvent_of_suffix hsuffix
    obtain ⟨c, answer⟩ := e
    obtain ⟨d, hd⟩ := Option.isSome_iff_exists.mp hdeadline
    obtain ⟨capability, task, payload, context, seconds, rfl⟩ := executionDeadline_cases hd
    simp only [Env.recalled, Env.recalling, hnext]

theorem Env.machine_answering (env : Env) (all : Trace) :
    env.machine.answering (env.recalling all).recalled = (env.recalling all).machine := by
  apply congrArg Machine.mk
  funext h w c
  cases c with
  | execute capability task payload context timeoutSeconds => cases timeoutSeconds <;> rfl
  | _ => rfl

/-- A client that got to its end among its workers made a sequential run, with
collaborators that differ in what the attempts with a timeout came to. -/
theorem Supervisor.supervised_is_run (sup : Supervisor) (env : Env) (fuel : Nat)
    (ops : List Operation) (w : World) (turns : List (Turn Call Answer))
    (hended : (sup.supervised env fuel ops w turns).control = .go (.done ())) :
    (sup.supervised env fuel ops w turns).config =
      sup.run (env.recalling (sup.supervised env fuel ops w turns).config.history) fuel ops
        ⟨[], w⟩ := by
  have hexec := Supervised.run_exec (Supervised.sound_start (client sup fuel ops) w) turns
    (env.tells_recalled (sup.supervised env fuel ops w turns).config.history)
  rw [Env.machine_answering] at hexec
  rw [Supervisor.run]
  refine Eq.trans ?_ (congrArg Prod.snd hexec).symm
  rw [Supervisor.supervised] at hended
  rw [hended]
  rfl

/-- However the supervisor and the workers of its attempts take turns: each
attempt with a timeout ends in that timeout or as the call of its own worker
did, unless the join refuses the timeout; neither the supervisor nor a worker
ever waits for a queue; and what a worker does after its attempt is over is
seen by nobody. -/
theorem late_attempts_never_leak (sup : Supervisor) (env : Env) (fuel : Nat)
    (ops : List Operation) (w : World) (turns : List (Turn Call Answer)) :
    let s := sup.supervised env fuel ops w turns
    List.Forall₂ EndsAsItsOwnOrRefused (timedAttempts s.config.history) s.past ∧
      (∀ c d worker next, s.control = .await c d .getting worker next → worker.queue ≠ []) ∧
      (∀ job ∈ s.past ++ s.control.jobs, ∀ own, job.worker.stage = .sending own →
        job.worker.queue = []) ∧
      ∀ n < s.past.length, ∀ later,
        Supervised.SameBut n (s.run env.machine executionDeadline later)
          (s.run env.machine executionDeadline (later.filter fun turn => !turn.isOf n)) := by
  intro s
  have hsound : s.Sound executionDeadline := Supervised.run_sound (client sup fuel ops) w turns
  refine ⟨?_, ?_, ?_, ?_⟩
  · exact hsound.outcomes.imp fun _ _ => endsAsItsOwnOrRefused_of_outcome
  · intro c d worker next hcontrol
    obtain ⟨own, hqueue, -⟩ := hsound.get_ready hcontrol
    simp [hqueue]
  · intro job hjob own hstage
    exact hsound.put_ready hjob hstage
  · intro n hn later
    exact (Supervised.SameBut.refl hn).run later

/-- A supervisor whose one capability has more time than a join can count. -/
def patientSupervisor : Supervisor :=
  { Supervisor.unconfigured ["echo"] with
    registry := ⟨["echo"], [("echo", ⟨some (10 ^ 10), none⟩)]⟩ }

/-- The call of a capability returns. -/
def returnsNothing : (c : Call) → WorkerMove (Answer c)
  | .execute _ _ _ _ _ => .ends (.ok ⟨.none, []⟩)
  | _ => .exits

/-- The worker of the one attempt is done, and has not been joined yet. -/
def waitingRun : Supervised World Call Answer Unit :=
  patientSupervisor.supervised .returning 1 [.runTask "t"] (worldWith (foundTask .pending))
    (List.replicate 16 .program ++ [.worker 0 returnsNothing])

/-- The supervisor joins it. -/
def refusedRun : Supervised World Call Answer Unit :=
  waitingRun.run Env.returning.machine executionDeadline [.program]

theorem waitingRun_eq : ∃ task payload context next,
    waitingRun.control =
        .await (.execute "echo" task payload context (some (10 ^ 10)))
          ⟨if joinRefuses (10 ^ 10) then some (.error joinOverflow) else none,
            .error (softTimeoutError (10 ^ 10))⟩
          .joining ⟨.sending (.ok ⟨.none, []⟩), []⟩ next ∧
      timedAttempts waitingRun.config.history = [] ∧ waitingRun.past = [] :=
  ⟨_, _, _, _, rfl, rfl, rfl⟩

theorem refusedRun_eq : ∃ task payload context,
    timedAttempts refusedRun.config.history =
        [⟨.execute "echo" task payload context (some (10 ^ 10)), .error joinOverflow⟩] ∧
      refusedRun.past =
        [⟨.execute "echo" task payload context (some (10 ^ 10)),
          ⟨.sending (.ok ⟨.none, []⟩), []⟩⟩] := by
  obtain ⟨task, payload, context, next, hcontrol, hevents, hover⟩ := waitingRun_eq
  have hrefuses : joinRefuses (10 ^ 10) := by decide +kernel
  rw [if_pos hrefuses] at hcontrol
  have hrun : refusedRun =
      Supervised.finish waitingRun.config
        (.execute "echo" task payload context (some (10 ^ 10))) (.error joinOverflow)
        ⟨.sending (.ok ⟨.none, []⟩), []⟩ next := by
    simp only [refusedRun, Supervised.run, List.foldl_cons, List.foldl_nil, Supervised.step,
      hcontrol, hover, Supervised.advance, List.nil_append]
  rw [hrun]
  refine ⟨task, payload, context, ?_, rfl⟩
  exact (deadlined_cons_some rfl).trans (congrArg (· ++ [_]) hevents)

/-- The attempt ends with the exception of the join, though its call returned. -/
theorem refused_timeout_leaks :
    ¬ List.Forall₂ EndsAsItsOwn (timedAttempts refusedRun.config.history) refusedRun.past := by
  obtain ⟨task, payload, context, hevents, hjobs⟩ := refusedRun_eq
  rw [hevents, hjobs]
  rintro (_ | ⟨⟨_, _, _, _, _, _, _, he, hjob, hends⟩, -⟩)
  cases he
  cases hjob
  rcases hends with htimeout | hown
  · exact absurd (congrArg PyExc.typeName (Except.error.inj htimeout)) (by decide)
  · cases hown
end Conductor
