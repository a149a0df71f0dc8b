/-
Where an executed payload comes from.  The input of a task may change after it
was authorised, by the guild's suggestion before the first attempt and by the
retry strategy before each later one.  A monitor follows the input through both
and finds nothing else that changes it.
-/
import Conductor.Supervisor.Sequential
import Conductor.Supervisor.Stages

namespace Conductor

open Effects Block

/-- The inputs that were authorised for a task: the policy engine allowed the
task with this input, or an approval stored it. -/
def authorisedInputs (taskId : TaskId) : Trace → List Dict
  | [] => []
  | ⟨.evaluate task _, .ok decision⟩ :: h =>
      if task.taskId = taskId ∧ decision.decision = .allow then
        task.input :: authorisedInputs taskId h
      else authorisedInputs taskId h
  | ⟨.storeSave task, _⟩ :: h =>
      if task.taskId = taskId ∧ task.status = .approved ∧
          (stored h taskId).any (fun r => r.status = .awaitingApproval) then
        task.input :: authorisedInputs taskId h
      else authorisedInputs taskId h
  | _ :: h => authorisedInputs taskId h

/-- An input that goes back to an authorised one: the guild's best suggestion
for it was merged in, or a retry decision for the task replaced it. -/
inductive Sanctioned (taskId : TaskId) : Trace → Dict → Prop
  | authorised {h : Trace} {input : Dict} (hauthorised : input ∈ authorisedInputs taskId h) :
      Sanctioned taskId h input
  | suggested {h : Trace} {capability : String} {input : Dict} {best : GuildSuggestion}
      {rest : List GuildSuggestion} (hbase : Sanctioned taskId h input) :
      Sanctioned taskId (⟨.suggest capability input, .ok (best :: rest)⟩ :: h)
        (Dict.update input best.approachAdjustment)
  | adjusted {h : Trace} {task : TaskRecord} {failure : FailureContext}
      {decision : RetryDecision} {input : Dict} (hid : task.taskId = taskId)
      (hbase : Sanctioned taskId h task.input) (hinput : decision.adjustedInput = some input) :
      Sanctioned taskId (⟨.decide task failure, .ok decision⟩ :: h) input
  | later {h : Trace} {input : Dict} (e : Event Call Answer)
      (hbefore : Sanctioned taskId h input) : Sanctioned taskId (e :: h) input

/-- The action of the newest audit entry. -/
def TaskRecord.lastAction (task : TaskRecord) : Option String :=
  task.auditTrail.getLast?.map (·.action)

@[simp] theorem TaskRecord.lastAction_noted (task : TaskRecord) (entry : AuditEntry)
    (saved : Time) : (task.noted entry saved).lastAction = some entry.action := by
  simp [lastAction, noted]

@[simp] theorem TaskRecord.lastAction_transitioned (task : TaskRecord) (toStatus : TaskStatus)
    (actor action : String) (metadata : Dict) (ts : Time) :
    (task.transitioned toStatus actor action metadata ts).lastAction = some action := by
  simp [lastAction, transitioned]

/-- The inputs known for each task, and the input last validated. -/
structure Provenance where
  known : TaskId → Dict → Prop
  checked : Option (String × Dict × Value)

namespace Provenance

def learn (p : Provenance) (task : TaskRecord) : Provenance :=
  { p with known := fun taskId input =>
      p.known taskId input ∨ task.taskId = taskId ∧ task.input = input }

def merged (p : Provenance) (base : Dict) (best : GuildSuggestion) : Provenance :=
  { p with known := fun taskId input => p.known taskId input ∨
      p.known taskId base ∧ Dict.update base best.approachAdjustment = input }

def adjusted (p : Provenance) (task : TaskRecord) (decision : RetryDecision) : Provenance :=
  { p with known := fun taskId input => p.known taskId input ∨
      task.taskId = taskId ∧ p.known taskId task.input ∧ decision.adjustedInput = some input }

def after (p : Provenance) : (c : Call) → Answer c → Provenance
  | .evaluate task _, .ok decision => if decision.decision = .allow then p.learn task else p
  | .storeGet _, .ok (some task) => if task.status = .approved then p.learn task else p
  | .suggest _ input, .ok (best :: _) => p.merged input best
  | .decide task _, .ok decision => p.adjusted task decision
  | .validateInput capability input, .ok payload =>
      { p with checked := some (capability, input, payload) }
  | _, _ => p

/-- Only known inputs are executed, as they were validated, and saved with a
suggestion merged in. -/
def Allows (p : Provenance) : Call → Prop
  | .execute capability task payload _ _ =>
      p.known task.taskId task.input ∧ p.checked = some (capability, task.input, payload)
  | .storeSave task =>
      task.lastAction = some "peer_suggestion_applied" → p.known task.taskId task.input
  | _ => True

end Provenance

def provenance : Monitor Provenance Call Answer where
  initial := ⟨fun _ _ => False, none⟩
  next := Provenance.after
  allows := Provenance.Allows
  answers := Sound

theorem provenance_timeless : Timeless provenance := ⟨rfl, fun _ => trivial, fun _ _ => rfl⟩

/-- What is known of the task in hand: its input, once it is authorised. -/
def Known : Stage → TaskRecord → Provenance → Prop
  | .authorised, task, p => p.known task.taskId task.input
  | _, task, p => task.status = .approved → p.known task.taskId task.input

theorem known_loaded {stage : Stage} {task : TaskRecord} {p : Provenance}
    (hknown : Known stage task p) : Known .loaded task p := by
  cases stage with
  | loaded | ungated => exact hknown
  | authorised => exact fun _ => hknown

/-- A transition with an action of its own leaves the knowledge as it is. -/
theorem known_transition {task : TaskRecord} {p : Provenance} {toStatus : TaskStatus}
    {actor action : String} {eventType : EventType} {metadata : Dict} {error : Option String}
    {timestamp : Option Time} (haction : action ≠ "peer_suggestion_applied") :
    (transitionStatus toStatus actor action eventType metadata error timestamp).wp
      provenance.logic (fun _ t p' => t.taskId = task.taskId ∧ t.input = task.input ∧
        t.status = toStatus ∧ p' = p) task p := by
  refine provenance_timeless.wp_transitionStatus ?_ ?_ ?_
  · intro ts hpeer
    rw [TaskRecord.lastAction_transitioned, Option.some.injEq] at hpeer
    exact absurd hpeer haction
  · exact fun _ _ _ _ => trivial
  · rintro ts _ rfl ts' answer outcome -
    refine ⟨rfl, rfl, rfl, ?_⟩
    cases answer <;> rfl

/-- Calls beside the record teach nothing about inputs. -/
theorem Provenance.known_of_beside {c : Call} (hc : c.beside = true) (p : Provenance)
    (answer : Answer c) : (p.after c answer).known = p.known := by
  cases c <;> first | rfl | (cases answer <;> rfl) | cases hc

theorem Known.of_same {stage : Stage} {task t : TaskRecord} {p p' : Provenance}
    (hknown : Known stage task p) (hid : t.taskId = task.taskId) (hinput : t.input = task.input)
    (hstatus : t.status = task.status) (hsame : p'.known = p.known) : Known stage t p' := by
  cases stage <;> simpa only [Known, hid, hinput, hstatus, hsame] using hknown

/-- A transition away from the approved status leaves nothing to know. -/
theorem known_stopped {task : TaskRecord} {p : Provenance} {toStatus : TaskStatus}
    {actor action : String} {eventType : EventType} {metadata : Dict} {error : Option String}
    {timestamp : Option Time} (haction : action ≠ "peer_suggestion_applied")
    (happroved : toStatus ≠ .approved) :
    (transitionStatus toStatus actor action eventType metadata error timestamp).wp
      provenance.logic (fun outcome t p' => Known .loaded t p' ∧
        (outcome = .ok () → t.status = toStatus)) task p := by
  refine wp_mono provenance.logic_monotone ?_ (known_transition haction)
  rintro outcome t _ ⟨-, -, hstatus, rfl⟩
  exact ⟨fun h => absurd (hstatus.symm.trans h) happroved, fun _ => hstatus⟩

/-- Every operation executes only what is known, and saves no other suggestion. -/
theorem known_invariant : OperationInvariant provenance.logic Known fun _ => True where
  monotone := provenance.logic_monotone
  outOfFuel _ _ _ := trivial
  loaded _ _ _ h := known_loaded h
  approved _ _ h happroved := h happroved
  result stage task p result h := h.of_same rfl rfl rfl rfl
  attempt task p attempt h := h
  beside stage task p c hc h := by
    refine ⟨?_, fun answer _ => h.of_same rfl rfl rfl (p.known_of_beside hc answer)⟩
    cases c <;> trivial
  described stage task p hstage h := by
    refine ⟨trivial, ?_⟩
    rintro (e | descriptor) -
    · exact ⟨h, nofun⟩
    · refine ⟨h, fun _ _ _ => ?_⟩
      cases stage with
      | loaded | ungated => exact h
      | authorised => exact absurd rfl hstage
  evaluated task p context h := by
    refine ⟨trivial, ?_⟩
    rintro (e | decision) -
    · exact ⟨h, nofun⟩
    · simp only [provenance, Provenance.after]
      split
      · exact ⟨fun hstatus => .inl (h hstatus), fun _ _ _ => .inr ⟨rfl, rfl⟩⟩
      · rename_i hallow
        refine ⟨h, ?_⟩
        rintro _ ⟨⟩ hallowed
        exact absurd hallowed hallow
  parked task p actor metadata h := known_stopped (by decide) (by decide)
  denied task p metadata error ts h := known_stopped (by decide) (by decide)
  suggested task p h := by
    refine ⟨trivial, ?_⟩
    rintro (e | _ | ⟨best, rest⟩) -
    · exact ⟨h, by simp⟩
    · exact ⟨h, by simp⟩
    · refine ⟨.inl h, ?_⟩
      rintro _ _ ⟨⟩
      exact .inr ⟨h, rfl⟩
  attempted task p capability context timeout h := by
    refine ⟨trivial, ?_⟩
    rintro (e | payload) -
    · exact ⟨h, nofun⟩
    · refine ⟨h, ?_⟩
      rintro _ ⟨⟩
      refine ⟨⟨h, rfl⟩, fun answer _ => ?_⟩
      cases answer <;> exact h
  decided task p failure h := by
    refine ⟨trivial, ?_⟩
    rintro (e | decision) -
    · exact ⟨h, nofun⟩
    · refine ⟨.inl h, ?_⟩
      rintro _ ⟨⟩
      cases hinput : decision.adjustedInput with
      | none => exact .inl h
      | some input => exact .inr ⟨rfl, h, hinput⟩
  noted actor action fromStatus toStatus metadata haction := by
    intro task p h
    refine provenance_timeless.wp_note ?_
    rintro ts saved _ rfl
    exact ⟨fun _ => h, h⟩
  retried metadata error := by
    intro task p h
    refine provenance_timeless.wp_note_emit ?_
    rintro ts saved t rfl
    refine ⟨fun _ => h, fun ts' => ⟨trivial, fun answer _ _ => ?_⟩⟩
    cases answer <;> exact h
  worked toStatus action eventType metadata error ts haction _ _ := by
    intro task p h
    refine wp_mono provenance.logic_monotone ?_ (known_transition ?_)
    · rintro outcome t _ ⟨hid, hinput, -, rfl⟩
      simpa only [Known, hid, hinput] using h
    · rintro rfl
      revert haction
      decide
  settled _ _ _ := trivial
  atDesk p c hc _ := by
    refine ⟨?_, fun _ _ => trivial⟩
    cases c <;> trivial
  found p taskId _ := by
    refine ⟨trivial, ?_⟩
    rintro (e | _ | task) -
    · exact ⟨trivial, by simp⟩
    · exact ⟨trivial, by simp⟩
    · refine ⟨trivial, ?_⟩
      rintro _ ⟨⟩ happroved
      simp only [provenance, Provenance.after, happroved, if_true]
      exact .inr ⟨rfl, rfl⟩
  created p task ts metadata _ _ htrail := by
    refine ⟨?_, fun _ _ => trivial⟩
    intro hpeer
    simp [TaskRecord.lastAction, htrail] at hpeer
  approving task p actor metadata h _ := by
    refine wp_mono provenance.logic_monotone ?_ (known_transition (by decide))
    exact fun _ _ _ _ => trivial
  cancelling task p actor metadata error ts h _ := by
    refine wp_mono provenance.logic_monotone ?_ (known_transition (by decide))
    exact fun _ _ _ _ => trivial

variable {sup : Supervisor} {env : Env} {queue : TaskQueue} {h : Trace}

/-- Approvals and what follows them: the input of an approved record is
sanctioned, if all that was known before is. -/
theorem Sequential.sanctioned_save {t : TaskRecord} {answer : Answer (.storeSave t)}
    (hseq : Sequential sup env queue (⟨.storeSave t, answer⟩ :: h))
    (hallowed : t.lastAction = some "peer_suggestion_applied" →
      Sanctioned t.taskId h t.input) (hstatus : t.status = .approved) :
    Sanctioned t.taskId (⟨.storeSave t, answer⟩ :: h) t.input := by
  rcases hseq.saved with hcreated | ⟨r, hstored, -, hmove⟩
  · obtain ⟨_, _, -, -, -, hpending, -⟩ := hcreated
    rw [hpending] at hstatus
    cases hstatus
  · have hworked (hunderway : Underway (desk h) r) : r.status ≠ .approved := by
      rcases hunderway.2 with hrunning | ⟨hcompleted, -⟩
      · simp [hrunning]
      · simp [hcompleted]
    cases hmove with
    | suggested => exact (hallowed (by simp)).later _
    | allowed _ _ _ hpending => simp [TaskRecord.noted, hpending] at hstatus
    | failureRecorded _ _ _ hunderway => exact absurd hstatus (hworked hunderway)
    | retried _ _ _ _ hunderway => exact absurd hstatus (hworked hunderway)
    | approved _ _ _ _ _ hawaiting =>
        refine .authorised ?_
        have hparked : stored h r.taskId = some r := hstored
        simp [authorisedInputs, TaskRecord.transitioned, hparked, hawaiting]
    | _ => cases hstatus

/-- What the monitor learns from a call is sanctioned, if what it knew before
is and so is the input of every stored record that is approved. -/
theorem Sequential.sanctioned_learned {p : Provenance} {c : Call} {answer : Answer c}
    (hseq : Sequential sup env queue (⟨c, answer⟩ :: h))
    (hknown : ∀ taskId input, p.known taskId input → Sanctioned taskId h input)
    (happroved : ∀ taskId r, stored h taskId = some r → r.status = .approved →
      Sanctioned taskId h r.input) {taskId : TaskId} {input : Dict}
    (hlearned : (p.after c answer).known taskId input) :
    Sanctioned taskId (⟨c, answer⟩ :: h) input := by
  have hkept (hmem : p.known taskId input) : Sanctioned taskId (⟨c, answer⟩ :: h) input :=
    (hknown taskId input hmem).later _
  cases c with
  | storeGet id =>
      have hfound := hseq.answer_storeGet
      rcases answer with e | _ | task
      · exact hkept hlearned
      · exact hkept hlearned
      · have hstored : stored h id = some task := (Except.ok.inj hfound).symm
        simp only [Provenance.after] at hlearned
        split at hlearned
        · rename_i hstatus
          rcases hlearned with hmem | ⟨rfl, rfl⟩
          · exact hkept hmem
          · exact (happroved _ task (stored_keyed hstored ▸ hstored) hstatus).later _
        · exact hkept hlearned
  | evaluate task context =>
      cases answer with
      | error e => exact hkept hlearned
      | ok decision =>
          simp only [Provenance.after] at hlearned
          split at hlearned
          · rename_i hallow
            rcases hlearned with hmem | ⟨rfl, rfl⟩
            · exact hkept hmem
            · exact .authorised (by simp [authorisedInputs, hallow])
          · exact hkept hlearned
  | suggest capability base =>
      rcases answer with e | _ | ⟨best, rest⟩
      · exact hkept hlearned
      · exact hkept hlearned
      · rcases hlearned with hmem | ⟨hbase, rfl⟩
        · exact hkept hmem
        · exact .suggested (hknown taskId base hbase)
  | decide task failure =>
      cases answer with
      | error e => exact hkept hlearned
      | ok decision =>
          rcases hlearned with hmem | ⟨hid, hbase, hinput⟩
          · exact hkept hmem
          · exact .adjusted hid (hknown taskId task.input hbase) hinput
  | _ => cases answer <;> exact hkept hlearned

/-- The approved records that are stored after a call have sanctioned inputs,
if they had before and what was saved is. -/
theorem Sequential.sanctioned_stored {e : Event Call Answer}
    (hseq : Sequential sup env queue (e :: h))
    (hallowed : ∀ t, e.call = .storeSave t → t.lastAction = some "peer_suggestion_applied" →
      Sanctioned t.taskId h t.input)
    (happroved : ∀ taskId r, stored h taskId = some r → r.status = .approved →
      Sanctioned taskId h r.input) {taskId : TaskId} {r : TaskRecord}
    (hstored : stored (e :: h) taskId = some r) (hstatus : r.status = .approved) :
    Sanctioned taskId (e :: h) r.input := by
  by_cases hsave : ∃ t, e.call = .storeSave t
  · obtain ⟨c, answer⟩ := e
    obtain ⟨t, rfl⟩ := hsave
    rw [stored_save] at hstored
    split at hstored
    · rename_i hid
      cases hstored
      subst hid
      exact hseq.sanctioned_save (hallowed _ rfl) hstatus
    · exact (happroved taskId r hstored hstatus).later _
  · push Not at hsave
    rw [stored_cons_of_not_save hsave] at hstored
    exact (happroved taskId r hstored hstatus).later e

/-- What the monitor knows is sanctioned, and so is the input of every stored
record that is approved. -/
theorem Sequential.sanctioned_of_known (hseq : Sequential sup env queue h)
    (hlawful : provenance.Lawful h) :
    (∀ taskId input, (provenance.view h).known taskId input → Sanctioned taskId h input) ∧
      ∀ taskId r, stored h taskId = some r → r.status = .approved →
        Sanctioned taskId h r.input := by
  induction h with
  | nil => exact ⟨fun _ _ => False.elim, fun _ _ hstored => by cases hstored⟩
  | cons e h ih =>
      obtain ⟨c, answer⟩ := e
      obtain ⟨hallowed, -, hbefore⟩ := hlawful
      obtain ⟨hknown, happroved⟩ := ih hseq.tail hbefore
      have hsaved (t : TaskRecord) (hcall : c = .storeSave t)
          (hpeer : t.lastAction = some "peer_suggestion_applied") :
          Sanctioned t.taskId h t.input := by
        subst hcall
        exact hknown _ _ (hallowed hpeer)
      constructor
      · exact fun _ _ hlearned => hseq.sanctioned_learned hknown happroved hlearned
      · exact fun _ _ hstored hstatus =>
          hseq.sanctioned_stored hsaved happroved hstored hstatus

/-- What was validated last was validated at some time before. -/
theorem provenance_checked {capability : String} {input : Dict} {payload : Value}
    (hchecked : (provenance.view h).checked = some (capability, input, payload)) :
    (⟨.validateInput capability input, .ok payload⟩ : Event Call Answer) ∈ h := by
  induction h with
  | nil => cases hchecked
  | cons e h ih =>
      obtain ⟨c, answer⟩ := e
      cases c with
      | validateInput _ _ =>
          cases answer with
          | error e => exact List.mem_cons_of_mem _ (ih hchecked)
          | ok _ =>
              cases hchecked
              exact List.mem_cons_self
      | storeGet id =>
          rcases answer with e | _ | task
          · exact List.mem_cons_of_mem _ (ih hchecked)
          · exact List.mem_cons_of_mem _ (ih hchecked)
          · refine List.mem_cons_of_mem _ (ih ?_)
            simp only [Monitor.view_cons, provenance, Provenance.after] at hchecked
            split at hchecked <;> exact hchecked
      | evaluate task context =>
          cases answer with
          | error e => exact List.mem_cons_of_mem _ (ih hchecked)
          | ok decision =>
              refine List.mem_cons_of_mem _ (ih ?_)
              simp only [Monitor.view_cons, provenance, Provenance.after] at hchecked
              split at hchecked <;> exact hchecked
      | suggest capability base =>
          rcases answer with e | _ | ⟨best, rest⟩ <;>
            exact List.mem_cons_of_mem _ (ih hchecked)
      | _ => cases answer <;> exact List.mem_cons_of_mem _ (ih hchecked)

theorem run_provenance (sup : Supervisor) (env : Env) (fuel : Nat) (ops : List Operation)
    (queue : TaskQueue) :
    provenance.Lawful (sup.run env fuel ops (.initial queue)).history :=
  Prog.exec_lawful (I := fun k => k.state.store.Keyed) (keyed_step env)
    (fun _ c hkeyed => sound_of_keyed env hkeyed c) MemoryTaskStore.keyed_empty
    (known_invariant.client fuel ops trivial) trivial

/-- The executed payload was sanctioned.  In every sequential run from an empty
store, whatever the policy engine, the guild and the retry strategy answer,
every payload that is executed for a task is what `validate_input` made of an
input that goes back to an authorised one, by merging in the best suggestions
found for it and by retry decisions for the task. -/
theorem payload_sanctioned (sup : Supervisor) (env : Env) (queue : TaskQueue) (fuel : Nat)
    (ops : List Operation) :
    ∀ later earlier capability task payload context timeout answer,
      (sup.run env fuel ops (.initial queue)).history =
          later ++ ⟨.execute capability task payload context timeout, answer⟩ :: earlier →
        ∃ input, Sanctioned task.taskId earlier input ∧
          (⟨.validateInput capability input, .ok payload⟩ : Event Call Answer) ∈ earlier := by
  intro later earlier capability task payload context timeout answer hsplit
  have hrun := run_sequential sup env fuel ops queue
  have hlawful := run_provenance sup env fuel ops queue
  rw [hsplit] at hrun hlawful
  obtain ⟨hknown, hchecked⟩ := hlawful.allows_of_split
  have hsanctioned := (hrun.of_append.tail.sanctioned_of_known hlawful.of_append.2.2).1
  exact ⟨task.input, hsanctioned _ _ hknown, provenance_checked hchecked⟩

theorem mem_authorisedInputs_append {taskId : TaskId} {input : Dict} (later : Trace)
    (hmem : input ∈ authorisedInputs taskId h) :
    input ∈ authorisedInputs taskId (later ++ h) := by
  induction later with
  | nil => exact hmem
  | cons e later ih =>
      obtain ⟨c, answer⟩ := e
      cases c with
      | evaluate task context =>
          cases answer with
          | error e => exact ih
          | ok decision =>
              simp only [List.cons_append, authorisedInputs]
              split
              · exact List.mem_cons_of_mem _ ih
              · exact ih
      | storeSave task =>
          simp only [List.cons_append, authorisedInputs]
          split
          · exact List.mem_cons_of_mem _ ih
          · exact ih
      | _ => exact ih

/-- Where `validate_input` hands the input on as it is, the executed input can be
read off the payload. -/
theorem executed_input {fuel : Nat} {ops : List Operation}
    (hvalidate : ∀ h capability input, env.validateInput h capability input = .ok (.dict input))
    {later earlier : Trace} {capability : String} {task : TaskRecord} {payload : Value}
    {context : CapabilityContext} {timeout : Option Rat}
    {answer : Answer (.execute capability task payload context timeout)}
    (hsplit : (sup.run env fuel ops (.initial queue)).history =
      later ++ ⟨.execute capability task payload context timeout, answer⟩ :: earlier)
    {input : Dict}
    (hmem : (⟨.validateInput capability input, .ok payload⟩ : Event Call Answer) ∈ earlier) :
    input = task.input := by
  have hrun := run_sequential sup env fuel ops queue
  have hlawful := run_provenance sup env fuel ops queue
  rw [hsplit] at hrun hlawful
  have hpayload {input : Dict}
      (hmem : (⟨.validateInput capability input, .ok payload⟩ : Event Call Answer) ∈ earlier) :
      payload = .dict input := by
    obtain ⟨before, after, -, hanswer⟩ := hrun.of_append.tail.genuine.of_mem hmem
    have hok : Except.ok payload = env.validateInput after capability input := hanswer
    rw [hvalidate] at hok
    exact Except.ok.inj hok
  have hexecuted := hpayload (provenance_checked hlawful.allows_of_split.2)
  exact Value.dict.inj ((hpayload hmem).symm.trans hexecuted)

/-- A capability that fails once, under a strategy that retries with another
input. -/
def Env.adjusting : Env :=
  (Env.unconfigured fun h _ _ _ _ =>
    if (executions h).isEmpty then .error (.exception "RuntimeError" "failed") else
      .ok ⟨.none, []⟩).withRetryStrategy
    (.inputAdjusting (fun _ _ => .ok (some [("n", .int 1)])) false none)

def adjustedOps : List Operation := [.submit ⟨"say", "echo", [], [], 1, none⟩, .runNext]

def adjustedRun : State :=
  (Supervisor.unconfigured ["echo"]).run .adjusting 2 adjustedOps (.initial (.inMemory []))

/-- An input as it is fingerprinted. -/
def inputText (input : Dict) : Option String := (jsonDumps (.dict input)).toOption

/-- The adjusted input of a retry is executed, and only the input before it was
authorised. -/
theorem payload_not_authorised :
    ¬ ∀ (sup : Supervisor) (env : Env) (queue : TaskQueue) (fuel : Nat) (ops : List Operation),
      UniqueIds env → ∀ later earlier capability task payload context timeout answer,
        (sup.run env fuel ops (.initial queue)).history =
            later ++ ⟨.execute capability task payload context timeout, answer⟩ :: earlier →
          ∃ input ∈ authorisedInputs task.taskId earlier,
            (⟨.validateInput capability input, .ok payload⟩ : Event Call Answer) ∈ earlier := by
  intro hclaim
  have hexecuted : (executions adjustedRun.history).map (fun t => (t.taskId, inputText t.input)) =
      [("x", some "\x7b\"n\": 1\x7d"), ("x", some "\x7b\x7d")] := by decide +kernel
  have hauthorised : (authorisedInputs "x" adjustedRun.history).map inputText =
      [some "\x7b\x7d"] := by decide +kernel
  cases htasks : executions adjustedRun.history with
  | nil => simp [htasks] at hexecuted
  | cons task tasks =>
      rw [htasks, List.map_cons, List.cons.injEq, Prod.mk.injEq] at hexecuted
      obtain ⟨⟨hid, htext⟩, -⟩ := hexecuted
      obtain ⟨later, earlier, capability, payload, context, timeout, answer, hsplit⟩ :=
        exists_split_of_mem_executions (htasks ▸ List.mem_cons_self : task ∈ _)
      obtain ⟨input, hinput, hvalidated⟩ := hclaim (.unconfigured ["echo"]) .adjusting
        (.inMemory []) 2 adjustedOps (uniqueIds_of_freshId rfl) later earlier capability task
        payload context timeout answer hsplit
      have hsame := executed_input (fun _ _ _ => rfl) hsplit hvalidated
      have hmem : inputText input ∈ (authorisedInputs "x" adjustedRun.history).map inputText := by
        refine List.mem_map_of_mem ?_
        rw [hsplit, ← hid]
        exact mem_authorisedInputs_append later (mem_authorisedInputs_append [_] hinput)
      rw [hauthorised, List.mem_singleton, hsame, htext] at hmem
      revert hmem
      decide

theorem payload_sanctioned_adjusting :
    ∃ (earlier : Trace) (capability : String) (task : TaskRecord) (payload : Value)
      (input : Dict), inputText task.input = some "\x7b\"n\": 1\x7d" ∧
        Sanctioned task.taskId earlier input ∧
        (⟨.validateInput capability input, .ok payload⟩ : Event Call Answer) ∈ earlier := by
  have hexecuted : (executions adjustedRun.history).map (inputText ·.input) =
      [some "\x7b\"n\": 1\x7d", some "\x7b\x7d"] := by decide +kernel
  cases htasks : executions adjustedRun.history with
  | nil => simp [htasks] at hexecuted
  | cons task tasks =>
      rw [htasks, List.map_cons, List.cons.injEq] at hexecuted
      obtain ⟨later, earlier, capability, payload, context, timeout, answer, hsplit⟩ :=
        exists_split_of_mem_executions (htasks ▸ List.mem_cons_self : task ∈ _)
      obtain ⟨input, hinput⟩ := payload_sanctioned (.unconfigured ["echo"]) .adjusting
        (.inMemory []) 2 adjustedOps later earlier capability task payload context timeout answer
        hsplit
      exact ⟨earlier, capability, task, payload, input, hexecuted.1, hinput⟩

end Conductor
