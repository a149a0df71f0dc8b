/-
How far the failures of a cycle are kept apart.  A poll that raises becomes an
issue and the cycle goes on; a sink that raises ends the cycle.
-/
import Conductor.Runtime.Store
import Conductor.Runtime.Triggers

namespace Conductor

open Effects Block TriggerSchedulerService TriggerTrace

variable {ι : Type}

/-- What the polls of a cycle are answered, after `n` polls. -/
def pollAnswers (env : TriggerEnv ι) (now : Option Datetime) :
    Nat → List ι → List (Except PyExc (List TriggerDispatch))
  | _, [] => []
  | n, i :: adapters => env.poll n i now :: pollAnswers env now (n + 1) adapters

/-- The dispatches that the polls gave. -/
def offered : List (Except PyExc (List TriggerDispatch)) → List TriggerDispatch
  | [] => []
  | .ok dispatches :: answers => dispatches ++ offered answers
  | .error _ :: answers => offered answers

/-- What the sink answers to the dispatches, after `n` submissions. -/
def submitAnswers (env : TriggerEnv ι) :
    Nat → List TriggerDispatch → List (Except PyExc TaskRecord)
  | _, [] => []
  | n, dispatch :: dispatches =>
      env.submit n (withTriggerMetadata dispatch) :: submitAnswers env (n + 1) dispatches

theorem submitAnswers_append (env : TriggerEnv ι) (n : Nat) (ds ds' : List TriggerDispatch) :
    submitAnswers env n (ds ++ ds') =
      submitAnswers env n ds ++ submitAnswers env (n + ds.length) ds' := by
  induction ds generalizing n with
  | nil => rfl
  | cons dispatch ds ih =>
      rw [List.cons_append, submitAnswers, submitAnswers, ih, List.cons_append, List.length_cons,
        Nat.add_right_comm, Nat.add_assoc n]

/-- The values of the calls that returned. -/
def successes {α : Type} (answers : List (Except PyExc α)) : List α :=
  answers.filterMap Except.toOption

theorem successes_append {α : Type} (answers answers' : List (Except PyExc α)) :
    successes (answers ++ answers') = successes answers ++ successes answers' :=
  List.filterMap_append

/-- The calls that raised. -/
def failureCount {α : Type} (answers : List (Except PyExc α)) : Nat :=
  answers.countP fun answer => !answer.isOk

section Cycle

variable (env : TriggerEnv ι) (adapters : List ι) (now : Option Datetime) (h : TriggerTrace ι)

/-- The answers of the polls and of the sink in a cycle after the history `h`. -/
def cyclePolls : List (Except PyExc (List TriggerDispatch)) :=
  pollAnswers env now (polled h).length adapters

def cycleSubmits : List (Except PyExc TaskRecord) :=
  submitAnswers env (handed h).length (offered (cyclePolls env adapters now h))

/-- A cycle keeps failures apart: it returns the records of the submissions that
succeeded, after it polled every adapter and handed on every dispatch, and the
health check then has an issue for each failure. -/
def FailuresIsolated (x : TriggerObjects ι) : Prop :=
  ∃ x' k', (runOnce ExternalTriggerAdapter.poll adapters now).exec env.machine x ⟨h, ()⟩ =
      (some (.ok (successes (cycleSubmits env adapters now h)), x'), k') ∧
    polled k'.history = polled h ++ adapters.map (·, now) ∧
    handed k'.history =
      handed h ++ (offered (cyclePolls env adapters now h)).map withTriggerMetadata ∧
    failureCount (cyclePolls env adapters now h) + failureCount (cycleSubmits env adapters now h) ≤
      x'.runtimeIssues.length ∧
    ∀ issues x'' k'',
      (healthCheck ExternalTriggerAdapter.healthCheck adapters).exec env.machine x' k' =
        (some (.ok issues, x''), k'') → x'.runtimeIssues <+: issues

end Cycle

variable {env : TriggerEnv ι} {now : Option Datetime} {x : TriggerObjects ι} {h : TriggerTrace ι}

/-- No submission of the dispatches raises. -/
def SinkTakes (env : TriggerEnv ι) (n : Nat) (dispatches : List TriggerDispatch) : Prop :=
  ∀ e, .error e ∉ submitAnswers env n dispatches

/-- The exceptions of the polls have a text. -/
def Printable (env : TriggerEnv ι) (answers : List (Except PyExc (List TriggerDispatch))) : Prop :=
  ∀ e, .error e ∈ answers → ∃ text, env.str e = .ok text

/-- The loop over dispatches hands each of them on, or ends as the sink raises. -/
theorem exec_submitAll (dispatches : List TriggerDispatch) (submitted : List TaskRecord) :
    ∃ outcome h', (submitAll dispatches submitted).exec env.machine x ⟨h, ()⟩ =
        (some (outcome, x), ⟨h', ()⟩) ∧
      ((∃ e, outcome = .error e) ∧ ¬ SinkTakes env (handed h).length dispatches ∨
        SinkTakes env (handed h).length dispatches ∧
          outcome =
            .ok (submitted ++ successes (submitAnswers env (handed h).length dispatches)) ∧
          polled h' = polled h ∧
          handed h' = handed h ++ dispatches.map withTriggerMetadata) := by
  induction dispatches generalizing submitted h with
  | nil => exact ⟨_, h, rfl, .inr ⟨nofun, by simp [successes, submitAnswers], rfl, by simp⟩⟩
  | cons dispatch dispatches ih =>
      rw [submitAll, exec_bind]
      let submission := withTriggerMetadata dispatch
      have hcall : (consult (.submit submission)).exec env.machine x ⟨h, ()⟩ =
          (some (env.submit (handed h).length submission, x),
            ⟨⟨.submit submission, env.submit (handed h).length submission⟩ :: h, ()⟩) := rfl
      rw [hcall]
      cases hanswer : env.submit (handed h).length submission with
      | error e =>
          refine ⟨.error e, _, rfl, .inl ⟨⟨e, rfl⟩, ?_⟩⟩
          intro htakes
          apply htakes e
          rw [submitAnswers, hanswer]
          exact List.mem_cons_self
      | ok record =>
          obtain ⟨outcome, h', hexec, hends⟩ :=
            ih (h := ⟨.submit submission, .ok record⟩ :: h) (submitted ++ [record])
          refine ⟨outcome, h', hexec, ?_⟩
          have hlength : (handed (⟨.submit submission, .ok record⟩ :: h)).length =
              (handed h).length + 1 := by
            rw [handed, List.length_append, List.length_singleton]
          have htakes : SinkTakes env (handed h).length (dispatch :: dispatches) ↔
              SinkTakes env ((handed h).length + 1) dispatches := by
            unfold SinkTakes
            rw [submitAnswers, hanswer]
            simp
          rw [hlength] at hends
          rw [htakes]
          apply hends.imp_right
          rintro ⟨hsink, rfl, hpolled, hhanded⟩
          refine ⟨hsink, ?_, hpolled, ?_⟩
          · rw [submitAnswers, hanswer, List.append_assoc]
            rfl
          · rw [hhanded, handed, List.append_assoc]
            rfl

/-- What makes a cycle go through. -/
def Tolerable (env : TriggerEnv ι) (now : Option Datetime) (adapters : List ι)
    (h : TriggerTrace ι) : Prop :=
  SinkTakes env (handed h).length (offered (cyclePolls env adapters now h)) ∧
    Printable env (cyclePolls env adapters now h)

/-- The loop over the adapters goes through, or raises. -/
def CycleEnds (env : TriggerEnv ι) (now : Option Datetime) (adapters : List ι)
    (submitted : List TaskRecord) (x : TriggerObjects ι) (h : TriggerTrace ι)
    (outcome : Except PyExc (List TaskRecord)) (x' : TriggerObjects ι) (h' : TriggerTrace ι) :
    Prop :=
  (∃ e, outcome = .error e) ∧ ¬ Tolerable env now adapters h ∨
    Tolerable env now adapters h ∧
      outcome = .ok (submitted ++ successes (cycleSubmits env adapters now h)) ∧
      polled h' = polled h ++ adapters.map (·, now) ∧
      handed h' = handed h ++ (offered (cyclePolls env adapters now h)).map withTriggerMetadata ∧
      x'.runtimeIssues.length =
        x.runtimeIssues.length + failureCount (cyclePolls env adapters now h)

/-- What a poll that raises leaves to the rest of the cycle. -/
theorem CycleEnds.of_failed {adapters : List ι} {i : ι} {exc : PyExc} {text : String}
    {submitted : List TaskRecord} {x' : TriggerObjects ι} {h' : TriggerTrace ι}
    {outcome : Except PyExc (List TaskRecord)}
    (hanswer : env.poll (polled h).length i now = .error exc) (htext : env.str exc = .ok text)
    (hends : CycleEnds env now adapters submitted
      (x.appendIssue ("scheduler: adapter poll failed: " ++ text))
      (⟨.str exc, .ok text⟩ :: ⟨.poll i now, .error exc⟩ :: h) outcome x' h') :
    CycleEnds env now (i :: adapters) submitted x h outcome x' h' := by
  have hpolls : cyclePolls env (i :: adapters) now h = .error exc ::
      cyclePolls env adapters now (⟨.str exc, .ok text⟩ :: ⟨.poll i now, .error exc⟩ :: h) := by
    simp only [cyclePolls, pollAnswers, hanswer, polled, List.length_append, List.length_singleton]
  have htolerable : Tolerable env now (i :: adapters) h ↔
      Tolerable env now adapters (⟨.str exc, .ok text⟩ :: ⟨.poll i now, .error exc⟩ :: h) := by
    unfold Tolerable Printable
    rw [hpolls]
    simp [offered, handed, htext]
  unfold CycleEnds at hends ⊢
  rw [htolerable]
  apply hends.imp_right
  rintro ⟨htolerable, houtcome, hpolled, hhanded, hissues⟩
  refine ⟨htolerable, ?_, ?_, ?_, ?_⟩
  · rw [houtcome, cycleSubmits, cycleSubmits, hpolls]
    rfl
  · rw [hpolled, List.map_cons]
    simp [polled]
  · rw [hhanded, hpolls]
    rfl
  · rw [hissues, hpolls]
    simp [failureCount, TriggerObjects.appendIssue, Except.isOk, Except.toBool]
    omega

theorem sinkTakes_append {n : Nat} {ds ds' : List TriggerDispatch} :
    SinkTakes env n (ds ++ ds') ↔ SinkTakes env n ds ∧ SinkTakes env (n + ds.length) ds' := by
  unfold SinkTakes
  rw [submitAnswers_append]
  simp only [List.mem_append, not_or, forall_and]

theorem cyclePolls_of_passed {adapters : List ι} {i : ι} {dispatches : List TriggerDispatch}
    {h' : TriggerTrace ι} (hanswer : env.poll (polled h).length i now = .ok dispatches)
    (hpolled : polled h' = polled h ++ [(i, now)]) :
    cyclePolls env (i :: adapters) now h = .ok dispatches :: cyclePolls env adapters now h' := by
  rw [cyclePolls, pollAnswers, hanswer, cyclePolls, hpolled, List.length_append,
    List.length_singleton]

/-- What a poll whose dispatches were all handed on leaves to the rest of the
cycle. -/
theorem CycleEnds.of_passed {adapters : List ι} {i : ι} {dispatches : List TriggerDispatch}
    {submitted : List TaskRecord} {x' : TriggerObjects ι} {h' h'' : TriggerTrace ι}
    {outcome : Except PyExc (List TaskRecord)}
    (hanswer : env.poll (polled h).length i now = .ok dispatches)
    (htakes : SinkTakes env (handed h).length dispatches)
    (hpolled : polled h'' = polled h ++ [(i, now)])
    (hhanded : handed h'' = handed h ++ dispatches.map withTriggerMetadata)
    (hends : CycleEnds env now adapters
      (submitted ++ successes (submitAnswers env (handed h).length dispatches)) x h'' outcome x'
        h') :
    CycleEnds env now (i :: adapters) submitted x h outcome x' h' := by
  have hpolls : cyclePolls env (i :: adapters) now h =
      .ok dispatches :: cyclePolls env adapters now h'' := cyclePolls_of_passed hanswer hpolled
  have hlength : (handed h'').length = (handed h).length + dispatches.length := by
    rw [hhanded, List.length_append, List.length_map]
  have htolerable : Tolerable env now (i :: adapters) h ↔ Tolerable env now adapters h'' := by
    unfold Tolerable Printable
    rw [hpolls, offered, sinkTakes_append, hlength]
    simp [htakes]
  unfold CycleEnds at hends ⊢
  rw [htolerable]
  apply hends.imp_right
  rintro ⟨htolerable, houtcome, hpolled', hhanded', hissues⟩
  refine ⟨htolerable, ?_, ?_, ?_, ?_⟩
  · rw [houtcome, cycleSubmits, cycleSubmits, hpolls, offered, submitAnswers_append, hlength,
      successes_append, List.append_assoc]
  · rw [hpolled', hpolled, List.append_assoc]
    rfl
  · rw [hhanded', hhanded, hpolls, offered, List.map_append, List.append_assoc]
  · rw [hissues, hpolls]
    simp [failureCount, Except.isOk, Except.toBool]

theorem exec_pollFailed (exc : PyExc) :
    (pollFailed exc).exec env.machine x ⟨h, ()⟩ =
      match env.str exc with
      | .ok text =>
          (some (.ok none, x.appendIssue ("scheduler: adapter poll failed: " ++ text)),
            ⟨⟨.str exc, .ok text⟩ :: h, ()⟩)
      | .error e => (some (.error e, x), ⟨⟨.str exc, .error e⟩ :: h, ()⟩) := by
  rw [pollFailed, exec_bind]
  have hcall : (consult (.str exc)).exec env.machine x ⟨h, ()⟩ =
      (some (env.str exc, x), ⟨⟨.str exc, env.str exc⟩ :: h, ()⟩) := rfl
  rw [hcall]
  cases env.str exc with
  | ok text => rfl
  | error e => rfl

/-- The loop over the adapters, where the polls raise exceptions that can be
caught. -/
theorem exec_cycle (adapters : List ι) (submitted : List TaskRecord)
    (hexceptions : ∀ e, .error e ∈ cyclePolls env adapters now h → e.isException = true) :
    ∃ outcome x' h', (cycle ExternalTriggerAdapter.poll now adapters submitted).exec env.machine x
        ⟨h, ()⟩ = (some (outcome, x'), ⟨h', ()⟩) ∧
      CycleEnds env now adapters submitted x h outcome x' h' := by
  induction adapters generalizing submitted x h with
  | nil =>
      refine ⟨_, x, h, rfl, .inr ⟨⟨nofun, nofun⟩, ?_, ?_, ?_, rfl⟩⟩
      · simp [cycleSubmits, cyclePolls, pollAnswers, offered, submitAnswers, successes]
      · rw [List.map_nil, List.append_nil]
      · simp [cyclePolls, pollAnswers, offered]
  | cons i adapters ih =>
      rw [cycle, exec_bind, exec_tryExcept, exec_bind]
      have hpoll : (ExternalTriggerAdapter.poll i now).exec env.machine x ⟨h, ()⟩ =
          (some (env.poll (polled h).length i now, x),
            ⟨⟨.poll i now, env.poll (polled h).length i now⟩ :: h, ()⟩) := rfl
      rw [hpoll]
      cases hanswer : env.poll (polled h).length i now with
      | ok dispatches =>
          obtain ⟨outcome, h', hexec, hends⟩ := exec_submitAll (x := x)
            (h := ⟨.poll i now, .ok dispatches⟩ :: h) dispatches submitted
          change ∃ outcome x' h', Block.exec env.machine
            (submitAll dispatches submitted >>= fun submitted => _) _ _ = _ ∧ _
          rw [exec_bind, hexec]
          rcases hends with ⟨⟨e, rfl⟩, hraises⟩ | ⟨htakes, rfl, hpolled, hhanded⟩
          · refine ⟨.error e, x, h', rfl, .inl ⟨⟨e, rfl⟩, ?_⟩⟩
            intro htolerable
            apply hraises
            have hsink := htolerable.1
            have hstep : cyclePolls env (i :: adapters) now h = .ok dispatches ::
                cyclePolls env adapters now (⟨.poll i now, .ok dispatches⟩ :: h) :=
              cyclePolls_of_passed hanswer rfl
            rw [hstep, offered, sinkTakes_append] at hsink
            exact hsink.1
          · have hrest : cyclePolls env (i :: adapters) now h =
                .ok dispatches :: cyclePolls env adapters now h' :=
              cyclePolls_of_passed hanswer hpolled
            obtain ⟨outcome, x', h'', hexec', hends⟩ := ih (h := h') (x := x)
              (submitted ++ successes (submitAnswers env (handed h).length dispatches)) (by
                intro e he
                apply hexceptions e
                rw [hrest]
                exact List.mem_cons_of_mem _ he)
            exact ⟨outcome, x', h'', hexec', hends.of_passed hanswer htakes hpolled hhanded⟩
      | error exc =>
          have hmem : .error exc ∈ cyclePolls env (i :: adapters) now h := by
            rw [cyclePolls, pollAnswers, hanswer]
            exact List.mem_cons_self
          simp only [Result.next, hexceptions exc hmem, if_true]
          rw [exec_pollFailed]
          cases htext : env.str exc with
          | error e =>
              refine ⟨.error e, x, _, rfl, .inl ⟨⟨e, rfl⟩, ?_⟩⟩
              intro htolerable
              obtain ⟨text, htext'⟩ := htolerable.2 exc hmem
              rw [htext] at htext'
              cases htext'
          | ok text =>
              obtain ⟨outcome, x', h', hexec, hends⟩ := ih
                (h := ⟨.str exc, .ok text⟩ :: ⟨.poll i now, .error exc⟩ :: h)
                (x := x.appendIssue ("scheduler: adapter poll failed: " ++ text)) submitted (by
                  intro e he
                  apply hexceptions e
                  rw [cyclePolls, pollAnswers]
                  apply List.mem_cons_of_mem
                  rw [cyclePolls] at he
                  simpa [polled] using he)
              exact ⟨outcome, x', h', hexec, hends.of_failed hanswer htext⟩

section HealthCheck

variable {W : Type} {M : Machine W (TriggerCall ι) TriggerAnswer}
  {check : ι → TriggerBlock ι (List String)} {x' : TriggerObjects ι}
  {k k' : Config W (TriggerCall ι) TriggerAnswer} {found : List String}

theorem prefix_of_checkAdapters {adapters : List ι} {issues : List String}
    (hexec : (checkAdapters check adapters issues).exec M x k = (some (.ok found, x'), k')) :
    issues <+: found := by
  induction adapters generalizing issues x k with
  | nil =>
      cases hexec
      exact List.prefix_rfl
  | cons adapter adapters ih =>
      rw [checkAdapters, exec_bind] at hexec
      revert hexec
      generalize Block.exec M (tryExcept _ (check adapter) _) x k = result
      intro hexec
      rcases result with ⟨_ | ⟨e | more, x''⟩, k''⟩
      · cases hexec
      · cases hexec
      · exact (List.prefix_append issues more).trans (ih hexec)

/-- What the health check reports begins with the issues of the last cycle. -/
theorem prefix_of_healthCheck {adapters : List ι}
    (hexec : (healthCheck check adapters).exec M x k = (some (.ok found, x'), k')) :
    x.runtimeIssues <+: found := by
  rw [healthCheck, exec_bind, exec_object] at hexec
  exact prefix_of_checkAdapters hexec

end HealthCheck

theorem failureCount_of_sinkTakes {n : Nat} {dispatches : List TriggerDispatch}
    (htakes : SinkTakes env n dispatches) : failureCount (submitAnswers env n dispatches) = 0 := by
  unfold failureCount
  rw [List.countP_eq_zero]
  intro answer hanswer
  cases answer with
  | ok record => exact nofun
  | error e => exact absurd hanswer (htakes e)

/-- A cycle keeps the failures of its polls apart just if the sink does not
raise and each exception of a poll has a text. -/
theorem trigger_failures_isolated_iff (env : TriggerEnv ι) (adapters : List ι)
    (now : Option Datetime) (h : TriggerTrace ι) (x : TriggerObjects ι)
    (hexceptions : ∀ e, .error e ∈ cyclePolls env adapters now h → e.isException = true) :
    FailuresIsolated env adapters now h x ↔
      (∀ e, .error e ∉ cycleSubmits env adapters now h) ∧
        ∀ e, .error e ∈ cyclePolls env adapters now h → ∃ text, env.str e = .ok text := by
  obtain ⟨outcome, x', h', hexec, hends⟩ :=
    exec_cycle (x := x.setIssues []) adapters [] hexceptions
  have hrun : (runOnce ExternalTriggerAdapter.poll adapters now).exec env.machine x ⟨h, ()⟩ =
      (some (outcome, x'), ⟨h', ()⟩) := hexec
  unfold FailuresIsolated
  rw [hrun]
  constructor
  · rintro ⟨x'', k', hreturned, -⟩
    rcases hends with ⟨⟨e, rfl⟩, -⟩ | ⟨htolerable, -⟩
    · cases hreturned
    · exact htolerable
  · intro htolerable
    rcases hends with ⟨-, hnot⟩ | ⟨hgood, rfl, hpolled, hhanded, hissues⟩
    · exact absurd htolerable hnot
    · refine ⟨x', _, rfl, hpolled, hhanded, ?_, fun issues x'' k'' => prefix_of_healthCheck⟩
      rw [hissues, cycleSubmits, failureCount_of_sinkTakes hgood.1]
      simp

/-- Surroundings where polls and the sink answer so. -/
def answering (poll : Except PyExc (List TriggerDispatch)) (submit : Except PyExc TaskRecord) :
    TriggerEnv Unit where
  uuid4 _ := "dispatch"
  now _ := .firstMoment
  mapper _ _ payload := .ok ⟨"webhook", "echo", payload, [], 0, none⟩
  submit _ _ := submit
  poll _ _ _ := poll
  healthCheck _ _ := .ok []
  str exc := exc.str

def nightly : TriggerDispatch where
  dispatchId := "dispatch"
  source := .cron
  triggerName := "nightly"
  scheduledFor := .firstMoment
  emittedAt := .firstMoment
  submission := ⟨"nightly", "echo", [], [], 0, none⟩

theorem trigger_failures_isolated_iff_failing_poll :
    let env :=
      answering (.error (.exception "RuntimeError" "poll blew up")) (.error (.valueError ""))
    FailuresIsolated env [(), ()] none [] ⟨[], fun _ => []⟩ ↔
      (∀ e, .error e ∉ cycleSubmits env [(), ()] none []) ∧
        ∀ e, .error e ∈ cyclePolls env [(), ()] none [] → ∃ text, env.str e = .ok text :=
  trigger_failures_isolated_iff _ [(), ()] none [] ⟨[], fun _ => []⟩ (by
    intro e he
    simp only [cyclePolls, pollAnswers, answering, List.mem_cons, List.not_mem_nil, or_false,
      Except.error.injEq, or_self] at he
    rw [he]
    rfl)

/-- A full queue ends the cycle of a service. -/
theorem full_queue_ends_cycle :
    ¬ ∀ (env : TriggerEnv Unit) (adapters : List Unit) (now : Option Datetime)
      (h : TriggerTrace Unit) (x : TriggerObjects Unit),
      (∀ e, .error e ∈ cyclePolls env adapters now h → e.isException = true) →
        FailuresIsolated env adapters now h x := by
  intro hclaim
  let env := answering (.ok [nightly]) (.error (TaskQueue.queueFull 1))
  obtain ⟨x', k', hexec, -⟩ := hclaim env [(), ()] none [] ⟨[], fun _ => []⟩ (by
      intro e he
      simp [cyclePolls, pollAnswers, env, answering] at he)
  cases hexec

end Conductor
