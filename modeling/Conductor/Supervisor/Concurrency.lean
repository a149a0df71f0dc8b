/-
Any number of clients on one task store.  Reading a record and saving it are
single steps, and nothing ties them together.  As long as every save replaces
the version its client knows, the clients behave like one; two clients that
read the same version do not.
-/
import Conductor.Effects.Interleave
import Conductor.Supervisor.Sequential

namespace Conductor

open Effects

/-- Clients of one store, each with its own list of operations. -/
abbrev Clients (ι : Type) := Pool ι World Call Answer Unit

/-- Clients that are about to begin, on a store in use. -/
def Supervisor.clients {ι : Type} (sup : Supervisor) (fuel : Nat) (ops : ι → List Operation)
    (start : World) : Clients ι :=
  Pool.start (fun i => client sup fuel (ops i)) start

/-- The version of a task that the operation in progress knows. -/
def Desk.copy (d : Desk) (taskId : TaskId) : Option TaskRecord :=
  d.held.filter fun task => task.taskId = taskId

/-- If the client is about to save a task, the store still holds the version
the client last read or wrote. -/
def UpToDate {ι : Type} (clients : Clients ι) (i : ι) : Prop :=
  ∀ t, clients.nextCall i = some (.storeSave t) →
    clients.shared.state.store.get t.taskId = (desk (clients.own i)).copy t.taskId

/-- The client has called `capability.execute` for the task. -/
def Executes (h : Trace) (taskId : TaskId) : Prop :=
  ∃ task ∈ executions h, task.taskId = taskId

/-- The operations that returned successfully, the last one first. -/
def returns : Trace → List Operation
  | [] => []
  | ⟨.left op (.ok _), _⟩ :: h => op :: returns h
  | _ :: h => returns h

variable {h : Trace}

/-- Everything on the list of saves was saved. -/
theorem saved_of_mem_desk {t : TaskRecord} (hmem : t ∈ (desk h).saved) : Saved h t := by
  induction h with
  | nil => cases hmem
  | cons e h ih =>
      have hlater (hmem : t ∈ (desk h).saved) : Saved (e :: h) t :=
        saved_cons.mpr (.inr (ih hmem))
      obtain ⟨c, answer⟩ := e
      cases c with
      | entered | left => cases hmem
      | storeGet taskId => rcases answer with e | _ | found <;> exact hlater hmem
      | storeSave task =>
          rcases List.mem_cons.mp hmem with rfl | hmem
          · exact saved_cons.mpr (.inl rfl)
          · exact hlater hmem
      | _ => cases answer <;> exact hlater hmem

theorem Saved.append {earlier : Trace} {t : TaskRecord} (hsaved : Saved earlier t)
    (later : Trace) : Saved (later ++ earlier) t := by
  obtain ⟨e, he, hcall⟩ := hsaved
  exact ⟨e, List.mem_append_right _ he, hcall⟩

theorem permitted_of_split {guild : Bool} {later earlier : Trace} {e : Event Call Answer}
    (hlawful : (discipline guild).Lawful (later ++ e :: earlier)) :
    Permitted guild (desk earlier) e.call := by
  have hallows := hlawful.allows_of_split
  rwa [view_discipline] at hallows

/-- Who executes a task has put it into `RUNNING`. -/
theorem saved_of_executes {guild : Bool} (hlawful : (discipline guild).Lawful h)
    {taskId : TaskId} (hexecutes : Executes h taskId) :
    ∃ t, Saved h t ∧ t.taskId = taskId ∧ t.status = .running := by
  obtain ⟨task, htask, rfl⟩ := hexecutes
  obtain ⟨later, earlier, capability, payload, context, timeout, answer, rfl⟩ :=
    exists_split_of_mem_executions htask
  obtain ⟨-, hunderway, -⟩ := permitted_of_split hlawful
  obtain ⟨t, hmem, hid, hrunning⟩ := hunderway.1
  refine ⟨t, ?_, hid, hrunning⟩
  exact (saved_cons.mpr (.inr (saved_of_mem_desk hmem))).append later

/-- What an operation had to do before it could return. -/
theorem settled_of_returned {guild : Bool} (hlawful : (discipline guild).Lawful h)
    {op : Operation} (hreturned : op ∈ returns h) :
    ∃ d task, Settled d task op ∧ ∀ t ∈ d.saved, Saved h t := by
  induction h with
  | nil => cases hreturned
  | cons e h ih =>
      have hlater (hreturned : op ∈ returns h) :
          ∃ d task, Settled d task op ∧ ∀ t ∈ d.saved, Saved (e :: h) t := by
        obtain ⟨d, task, hsettled, hsaved⟩ := ih hlawful.2.2 hreturned
        exact ⟨d, task, hsettled, fun t ht => saved_cons.mpr (.inr (hsaved t ht))⟩
      obtain ⟨c, answer⟩ := e
      cases c with
      | left op' outcome =>
          cases outcome with
          | error exc => exact hlater hreturned
          | ok task =>
              rcases List.mem_cons.mp hreturned with rfl | hreturned
              · have hpermitted := hlawful.1
                rw [view_discipline] at hpermitted
                obtain ⟨-, -, hsettled⟩ := hpermitted
                refine ⟨desk h, task, hsettled, ?_⟩
                exact fun t ht => saved_cons.mpr (.inr (saved_of_mem_desk ht))
              · exact hlater hreturned
      | _ => exact hlater hreturned

theorem saved_of_approved {guild : Bool} (hlawful : (discipline guild).Lawful h)
    {taskId : TaskId} {actor : String} {metadata : Option Dict} {run : Bool}
    (hreturned : .approveTask taskId actor metadata run ∈ returns h) :
    ∃ t, Saved h t ∧ t.taskId = taskId ∧ t.status = .approved := by
  obtain ⟨d, task, ⟨t, ht, hid, happroved⟩, hsaved⟩ := settled_of_returned hlawful hreturned
  exact ⟨t, hsaved t ht, hid, happroved⟩

theorem saved_of_cancelled {guild : Bool} (hlawful : (discipline guild).Lawful h)
    {taskId : TaskId} {actor : String} {reason : Option String} {metadata : Option Dict}
    (hreturned : .cancelTask taskId actor reason metadata ∈ returns h) :
    ∃ t, Saved h t ∧ t.taskId = taskId ∧ t.status = .cancelled := by
  obtain ⟨d, task, ⟨ht, hid, hcancelled⟩, hsaved⟩ := settled_of_returned hlawful hreturned
  exact ⟨task, hsaved task ht, hid, hcancelled⟩

section Coherence

variable {ι : Type} {sup : Supervisor} {env : Env} {clients : Clients ι}
  {faults : Bool}

/-- Each client has kept the discipline; unless `faults` are admitted, no
success report has failed. -/
structure Disciplined (sup : Supervisor) (faults : Bool) (clients : Clients ι) : Prop where
  kept : clients.Kept (discipline sup.guildKnowledge)
  keyed : clients.shared.state.store.Keyed
  faulted : ∀ i, (desk (clients.own i)).faulted = true → faults = true
  known : ∀ i t, Saved (clients.own i) t → Saved clients.shared.history t

/-- The versions of a task follow the state machine in the order they were
saved, and one client only has put it into `RUNNING`. -/
structure Orderly (faults : Bool) (clients : Clients ι) : Prop where
  path : ∀ t, Saved clients.shared.history t →
    ∃ r, clients.shared.state.store.get t.taskId = some r ∧ t.status.reaches faults r.status = true
  ordered : ∀ later t' answer earlier,
    clients.shared.history = later ++ ⟨.storeSave t', answer⟩ :: earlier →
      ∀ t, Saved earlier t → t.taskId = t'.taskId →
        t.status.reaches faults t'.status = true
  single : ∀ i j t t', Saved (clients.own i) t → Saved (clients.own j) t' →
    t.taskId = t'.taskId → t.status = .running → t'.status = .running → i = j

theorem Disciplined.start (sup : Supervisor) (faults : Bool) (fuel : Nat) (ops : ι → List Operation)
    {start : World} (hkeyed : start.store.Keyed) :
    Disciplined sup faults (sup.clients fuel ops start) where
  kept := Pool.Kept.start start fun i => client_disciplined sup fuel (ops i)
  keyed := hkeyed
  faulted _ hfaulted := by cases hfaulted
  known _ _ hsaved := by simp [Supervisor.clients, Pool.start, Saved] at hsaved

theorem Orderly.start (sup : Supervisor) (faults : Bool) (fuel : Nat) (ops : ι → List Operation)
    (start : World) : Orderly faults (sup.clients fuel ops start) where
  path _ hsaved := by simp [Supervisor.clients, Pool.start, Saved] at hsaved
  ordered later _ _ _ hsplit := by simp [Supervisor.clients, Pool.start] at hsplit
  single _ _ _ _ hsaved := by simp [Supervisor.clients, Pool.start, Saved] at hsaved

/-- The save files a task under a free id or moves the stored version on. -/
def Follows (clients : Clients ι) (i : ι) (t : TaskRecord) : Prop :=
  clients.shared.state.store.get t.taskId = none ∨
    ∃ r, clients.shared.state.store.get t.taskId = some r ∧ Move (desk (clients.own i)) r t

theorem UpToDate.follows {i : ι} (hguard : UpToDate clients i) {t : TaskRecord}
    (hnext : clients.nextCall i = some (.storeSave t))
    (hpermitted : Permitted sup.guildKnowledge (desk (clients.own i)) (.storeSave t)) :
    Follows clients i t := by
  have hcopy := hguard t hnext
  rcases hpermitted with ⟨_, _, hheld, -⟩ | ⟨r, hheld, hmove⟩
  · refine .inl ?_
    rw [hcopy, Desk.copy, hheld]
    rfl
  · refine .inr ⟨r, ?_, hmove⟩
    rw [hcopy, Desk.copy, hheld, hmove.taskId_eq]
    simp

/-- A new version of a task is reached from every version saved before. -/
theorem Orderly.reaches_saved (horderly : Orderly faults clients) {i : ι}
    (hfaulted : (desk (clients.own i)).faulted = true → faults = true) {t : TaskRecord}
    (hfollows : Follows clients i t) {t' : TaskRecord}
    (hsaved : Saved clients.shared.history t') (hid : t'.taskId = t.taskId) :
    t'.status.reaches faults t.status = true := by
  obtain ⟨r, hr, hpath⟩ := horderly.path t' hsaved
  rw [hid] at hr
  rcases hfollows with hnone | ⟨r', hr', hmove⟩
  · rw [hnone] at hr
    cases hr
  · rw [hr'] at hr
    cases hr
    rcases hmove.status_cases with hedge | ⟨hfault, hundone⟩
    · exact TaskStatus.reaches_edge hpath hedge
    · cases hfaulted hfault
      exact TaskStatus.reaches_undone hpath hundone

variable [DecidableEq ι]

/-- The saves of a client after a call of client `i`. -/
theorem saved_own_iff {i j : ι} {e : Event Call Answer} {own : ι → Trace} {t : TaskRecord} :
    Saved (Function.update own i (e :: own i) j) t ↔
      j = i ∧ e.call = .storeSave t ∨ Saved (own j) t := by
  by_cases hj : j = i
  · subst hj
    simp [saved_cons]
  · simp [hj]

theorem Disciplined.step (hsafe : faults = false → GuildSafe sup env) {i : ι}
    (hdisciplined : Disciplined sup faults clients) :
    Disciplined sup faults (clients.step env.machine i) := by
  rcases clients.step_cases (M := env.machine) i with hidle | ⟨c, next, hprogram, -, hstep⟩
  · rw [hidle]
    exact hdisciplined
  rw [hstep]
  have hallows := hdisciplined.kept.allows hprogram
  rw [view_discipline] at hallows
  refine ⟨hdisciplined.kept.call hprogram (sound_of_keyed env hdisciplined.keyed c) _,
    keyed_step env clients.shared c hdisciplined.keyed, ?_, ?_⟩
  · intro j
    by_cases hj : j = i
    · subst hj
      simp only [Function.update_self]
      by_contra hcalm
      have hfaults : faults = false := by simpa using fun h => hcalm fun _ => h
      refine hcalm fun hfaulted => absurd hfaulted (Bool.eq_false_iff.mp ?_)
      refine Desk.after_calm (Bool.eq_false_iff.mpr fun h => ?_) ?_
      · simp [hdisciplined.faulted j h] at hfaults
      rintro capability input exc hfault
      cases congrArg Event.call hfault
      have hanswer := eq_of_heq (Event.mk.inj hfault).2
      change env.publishSuccess _ capability input = _ at hanswer
      rw [hsafe hfaults hallows] at hanswer
      cases hanswer
    · simp only [Function.update_of_ne hj]
      exact hdisciplined.faulted j
  · intro j t hsaved
    rcases saved_own_iff.mp hsaved with ⟨-, hcall⟩ | hsaved
    · exact saved_cons.mpr (.inl hcall)
    · exact saved_cons.mpr (.inr (hdisciplined.known j t hsaved))

/-- A call that saves nothing disturbs no order. -/
theorem Orderly.call (horderly : Orderly faults clients) {i : ι} {c : Call}
    (hsave : ∀ t, c ≠ .storeSave t) {answer : Answer c} {next : Prog Call Answer Unit}
    {state : World} (hstore : state.store = clients.shared.state.store) :
    Orderly faults
      { program := Function.update clients.program i next
        own := Function.update clients.own i (⟨c, answer⟩ :: clients.own i)
        shared := ⟨⟨c, answer⟩ :: clients.shared.history, state⟩ } where
  path t hsaved := by
    rw [hstore]
    exact horderly.path t ((saved_cons.mp hsaved).resolve_left (hsave t))
  ordered later t' answer' earlier hsplit := by
    cases later with
    | nil =>
        cases (List.cons.inj hsplit).1
        exact absurd rfl (hsave t')
    | cons e later => exact horderly.ordered later t' answer' earlier (List.cons.inj hsplit).2
  single j k t t' hsaved hsaved' :=
    horderly.single j k t t' ((saved_own_iff.mp hsaved).resolve_left fun h => hsave t h.2)
      ((saved_own_iff.mp hsaved').resolve_left fun h => hsave t' h.2)

/-- A save over the version in hand keeps the order. -/
theorem Orderly.save (horderly : Orderly faults clients) {i : ι}
    (hdisciplined : Disciplined sup faults clients) {t : TaskRecord}
    (hfollows : Follows clients i t)
    {answer : Answer (.storeSave t)} {next : Prog Call Answer Unit} {state : World}
    (hstore : state.store = clients.shared.state.store.save t) :
    Orderly faults
      { program := Function.update clients.program i next
        own := Function.update clients.own i (⟨.storeSave t, answer⟩ :: clients.own i)
        shared := ⟨⟨.storeSave t, answer⟩ :: clients.shared.history, state⟩ } := by
  have hreaches (t' : TaskRecord) (hsaved : Saved clients.shared.history t')
      (hid : t'.taskId = t.taskId) : t'.status.reaches faults t.status = true :=
    horderly.reaches_saved (hdisciplined.faulted i) hfollows hsaved hid
  refine ⟨?_, ?_, ?_⟩
  · intro t' hsaved
    rw [hstore, MemoryTaskStore.get_save]
    rcases saved_cons.mp hsaved with heq | hsaved
    · cases heq
      exact ⟨t, by simp, TaskStatus.reaches_refl _ _⟩
    · by_cases hid : t.taskId = t'.taskId
      · rw [if_pos hid]
        exact ⟨t, rfl, hreaches t' hsaved hid.symm⟩
      · rw [if_neg hid]
        exact horderly.path t' hsaved
  · intro later t' answer' earlier hsplit
    cases later with
    | nil =>
        cases (List.cons.inj hsplit).1
        cases (List.cons.inj hsplit).2
        exact hreaches
    | cons e later => exact horderly.ordered later t' answer' earlier (List.cons.inj hsplit).2
  · -- a version that enters `RUNNING` is preceded by none that has been there
    have hnew : t.status = .running → ∀ j t', Saved (clients.own j) t' →
        t'.taskId = t.taskId → t'.status = .running → j = i := by
      intro hrunning j t' hsaved hid hrunning'
      obtain ⟨r, hr, hpath⟩ := horderly.path t' (hdisciplined.known j t' hsaved)
      rw [hid] at hr
      rcases hfollows with hnone | ⟨r', hr', hmove⟩
      · rw [hnone] at hr
        cases hr
      · rw [hr'] at hr
        cases hr
        rcases hmove.of_running hrunning with hlow | ⟨run, hrun, hrunId, hbefore⟩
        · have hrank := TaskStatus.rank_le_of_reaches hpath
          rw [hrunning'] at hrank
          exact absurd (Nat.lt_of_le_of_lt hrank hlow) (by decide)
        · refine horderly.single j i t' run hsaved (saved_of_mem_desk hrun) ?_ hrunning' hbefore
          rw [hid, hmove.taskId_eq, hrunId]
    intro j k t₁ t₂ hsaved₁ hsaved₂ hid hrunning₁ hrunning₂
    rcases saved_own_iff.mp hsaved₁ with ⟨rfl, hnow₁⟩ | hbefore₁ <;>
      rcases saved_own_iff.mp hsaved₂ with ⟨rfl, hnow₂⟩ | hbefore₂
    · rfl
    · cases hnow₁
      exact (hnew hrunning₁ k t₂ hbefore₂ hid.symm hrunning₂).symm
    · cases hnow₂
      exact hnew hrunning₂ j t₁ hbefore₁ hid hrunning₁
    · exact horderly.single j k t₁ t₂ hbefore₁ hbefore₂ hid hrunning₁ hrunning₂

theorem Orderly.step {i : ι} (horderly : Orderly faults clients)
    (hdisciplined : Disciplined sup faults clients) (hguard : UpToDate clients i) :
    Orderly faults (clients.step env.machine i) := by
  rcases clients.step_cases (M := env.machine) i with hidle | ⟨c, next, hprogram, hnext, hstep⟩
  · rw [hidle]
    exact horderly
  rw [hstep]
  by_cases hsave : ∃ t, c = .storeSave t
  · obtain ⟨t, rfl⟩ := hsave
    have hpermitted : Permitted sup.guildKnowledge (desk (clients.own i)) (.storeSave t) := by
      rw [← view_discipline sup.guildKnowledge]
      exact hdisciplined.kept.allows hprogram
    exact horderly.save hdisciplined (hguard.follows hnext hpermitted) rfl
  · have hother : ∀ t, c ≠ .storeSave t := fun t ht => hsave ⟨t, ht⟩
    exact horderly.call hother (store_step_of_not_save env clients.shared hother)

/-- Clients under a guarded schedule stay disciplined and orderly. -/
theorem run_orderly (hsafe : faults = false → GuildSafe sup env) (fuel : Nat)
    (ops : ι → List Operation) {start : World} (hkeyed : start.store.Keyed) {schedule : List ι}
    (hguarded : (sup.clients fuel ops start).Guarded env.machine UpToDate schedule) :
    Disciplined sup faults ((sup.clients fuel ops start).run env.machine schedule) ∧
      Orderly faults ((sup.clients fuel ops start).run env.machine schedule) :=
  Pool.run_invariant (I := fun clients => Disciplined sup faults clients ∧ Orderly faults clients)
    (fun _ _ hclients hguard => ⟨hclients.1.step hsafe, hclients.2.step hclients.1 hguard⟩)
    ⟨.start sup faults fuel ops hkeyed, .start sup faults fuel ops start⟩ hguarded

end Coherence

section Outcome

variable {ι : Type} {sup : Supervisor} {clients : Clients ι} {faults : Bool}

/-- A task is executed by one client only. -/
def AtMostOneExecutes (clients : Clients ι) : Prop :=
  ∀ i j taskId, Executes (clients.own i) taskId → Executes (clients.own j) taskId → i = j

/-- A saved outcome is never replaced by another status. -/
def OutcomeKept (clients : Clients ι) : Prop :=
  ∀ later t' answer earlier,
    clients.shared.history = later ++ ⟨.storeSave t', answer⟩ :: earlier →
      ∀ t, Saved earlier t → t.taskId = t'.taskId →
        t.status = .completed ∨ t.status = .failed ∨ t.status = .escalated →
          t'.status = t.status

theorem Orderly.atMostOneExecutes (horderly : Orderly faults clients)
    (hdisciplined : Disciplined sup faults clients) : AtMostOneExecutes clients := by
  intro i j taskId hi hj
  obtain ⟨t, ht, hid, hrunning⟩ := saved_of_executes (hdisciplined.kept.lawful i) hi
  obtain ⟨t', ht', hid', hrunning'⟩ := saved_of_executes (hdisciplined.kept.lawful j) hj
  exact horderly.single i j t t' ht ht' (hid.trans hid'.symm) hrunning hrunning'

theorem Orderly.outcomeKept (horderly : Orderly false clients) : OutcomeKept clients := by
  intro later t' answer earlier hsplit t hsaved hid houtcome
  have hterminal : t.status.terminal = true := by
    rcases houtcome with houtcome | houtcome | houtcome <;> rw [houtcome] <;> rfl
  exact TaskStatus.eq_of_reaches_of_terminal hterminal
    (horderly.ordered later t' answer earlier hsplit t hsaved hid)

end Outcome

/-- At most one execution, for clients whose saves replace the version they
know.  For any number of clients with any operations, on any store, and every
schedule in which each save finds in the store the version its client last read
or wrote, one client at most executes a task and a saved outcome stands. -/
theorem one_execution_of_upToDate {ι : Type} [DecidableEq ι] (sup : Supervisor) (env : Env)
    (fuel : Nat) (ops : ι → List Operation) (start : World) (schedule : List ι)
    (hkeyed : start.store.Keyed) (hsafe : GuildSafe sup env)
    (hguarded : (sup.clients fuel ops start).Guarded env.machine UpToDate schedule) :
    AtMostOneExecutes ((sup.clients fuel ops start).run env.machine schedule) ∧
      OutcomeKept ((sup.clients fuel ops start).run env.machine schedule) := by
  obtain ⟨hdisciplined, horderly⟩ := run_orderly (fun _ => hsafe) fuel ops hkeyed hguarded
  exact ⟨horderly.atMostOneExecutes hdisciplined, horderly.outcomeKept⟩

/-- Two clients run one pending task. -/
def runners : Clients Bool :=
  (Supervisor.unconfigured ["echo"]).clients 1 (fun _ => [.runTask "t"])
    (worldWith (foundTask .pending))

/-- One client runs the task to its end, then the other one finds it completed. -/
theorem runners_guarded :
    runners.Guarded Env.returning.machine UpToDate
      (List.replicate 21 true ++ List.replicate 4 false) := by
  repeat' apply And.intro
  all_goals
    first
    | trivial
    | intro t hnext
      cases hnext
      try rfl

theorem one_execution_of_runners :
    AtMostOneExecutes (runners.run Env.returning.machine
        (List.replicate 21 true ++ List.replicate 4 false)) ∧
      OutcomeKept (runners.run Env.returning.machine
        (List.replicate 21 true ++ List.replicate 4 false)) :=
  one_execution_of_upToDate _ _ 1 _ _ _ (worldWith_keyed _) (fun h => by cases h)
    runners_guarded

/-- Both read the task before either saves it. -/
def racing : Clients Bool :=
  runners.run Env.returning.machine
    ([true, true, true, false, false, false] ++ List.replicate 18 true ++ List.replicate 18 false)

/-- Both clients of the race execute the task. -/
theorem race_executes_twice : ¬ (AtMostOneExecutes racing ∧ OutcomeKept racing) := by
  rintro ⟨hone, -⟩
  have hexecutes (i : Bool) : Executes (racing.own i) "t" := by
    have hids : (executions (racing.own i)).map (·.taskId) = ["t"] := by
      cases i <;> decide +kernel
    have hmem : "t" ∈ (executions (racing.own i)).map (·.taskId) := by simp [hids]
    exact List.mem_map.mp hmem
  cases hone true false "t" (hexecutes true) (hexecutes false)

section Decision

variable {ι : Type} {sup : Supervisor} {clients : Clients ι} {faults : Bool}

/-- Once `cancel_task` has returned, no `approve_task` has, nobody executes the
task, and it is stored as cancelled. -/
def CancelExcludesApprove (clients : Clients ι) : Prop :=
  ∀ j taskId actor reason metadata,
    .cancelTask taskId actor reason metadata ∈ returns (clients.own j) →
      (∀ i actor note run, .approveTask taskId actor note run ∉ returns (clients.own i)) ∧
        (∀ i, ¬ Executes (clients.own i) taskId) ∧
        ∃ r, clients.shared.state.store.get taskId = some r ∧ r.status = .cancelled

theorem Orderly.cancelExcludesApprove (horderly : Orderly faults clients)
    (hdisciplined : Disciplined sup faults clients) : CancelExcludesApprove clients := by
  intro j taskId actor reason metadata hcancel
  obtain ⟨c, hc, hcid, hcancelled⟩ := saved_of_cancelled (hdisciplined.kept.lawful j) hcancel
  obtain ⟨r, hr, hpath⟩ := horderly.path c (hdisciplined.known j c hc)
  rw [hcid] at hr
  have hstored : r.status = .cancelled := by
    rw [hcancelled] at hpath
    exact (eq_of_beq hpath).symm
  -- nobody ever saved a version that does not lead to `CANCELLED`
  have hleads (i : ι) (t : TaskRecord) (hsaved : Saved (clients.own i) t)
      (hid : t.taskId = taskId) : t.status.reaches faults .cancelled = true := by
    obtain ⟨r', hr', hpath'⟩ := horderly.path t (hdisciplined.known i t hsaved)
    rw [hid, hr] at hr'
    cases hr'
    rwa [hstored] at hpath'
  refine ⟨?_, ?_, r, hr, hstored⟩
  · intro i actor note run happrove
    obtain ⟨t, ht, hid, hstatus⟩ := saved_of_approved (hdisciplined.kept.lawful i) happrove
    have hreaches := hleads i t ht hid
    rw [hstatus] at hreaches
    cases hreaches
  · intro i hexecutes
    obtain ⟨t, ht, hid, hstatus⟩ := saved_of_executes (hdisciplined.kept.lawful i) hexecutes
    have hreaches := hleads i t ht hid
    rw [hstatus] at hreaches
    cases hreaches

end Decision

/-- Approval and cancellation exclude each other, for clients whose saves
replace the version they know. -/
theorem cancel_excludes_approve_of_upToDate {ι : Type} [DecidableEq ι] (sup : Supervisor)
    (env : Env) (fuel : Nat) (ops : ι → List Operation) (start : World) (schedule : List ι)
    (hkeyed : start.store.Keyed)
    (hguarded : (sup.clients fuel ops start).Guarded env.machine UpToDate schedule) :
    CancelExcludesApprove ((sup.clients fuel ops start).run env.machine schedule) := by
  have hfaults : true = false → GuildSafe sup env := fun h => by cases h
  obtain ⟨hdisciplined, horderly⟩ := run_orderly hfaults fuel ops hkeyed hguarded
  exact horderly.cancelExcludesApprove hdisciplined

/-- One client approves a parked task, another cancels it. -/
def deciders : Clients Bool :=
  (Supervisor.unconfigured ["echo"]).clients 1
    (fun
      | true => [.approveTask "t" "user" none true]
      | false => [.cancelTask "t" "user" none none])
    (worldWith (foundTask .awaitingApproval))

/-- The cancellation is over when the approval begins. -/
theorem deciders_guarded :
    deciders.Guarded Env.returning.machine UpToDate
      (List.replicate 7 false ++ List.replicate 3 true) := by
  repeat' apply And.intro
  all_goals
    first
    | trivial
    | intro t hnext
      cases hnext
      try rfl

theorem cancel_excludes_approve_of_deciders :
    CancelExcludesApprove (deciders.run Env.returning.machine
      (List.replicate 7 false ++ List.replicate 3 true)) :=
  cancel_excludes_approve_of_upToDate _ _ 1 _ _ _ (worldWith_keyed _) deciders_guarded

/-- Both find the task awaiting approval; the cancellation is saved first. -/
def crossing : Clients Bool :=
  deciders.run Env.returning.machine
    ([true, true, false, false] ++ List.replicate 5 false ++ List.replicate 18 true)

/-- A cancelled task is approved and executed. -/
theorem crossing_executes_cancelled : ¬ CancelExcludesApprove crossing := by
  intro hexcludes
  have hcancel : .cancelTask "t" "user" none none ∈ returns (crossing.own false) := by
    have hreturns : returns (crossing.own false) = [.cancelTask "t" "user" none none] := by rfl
    simp [hreturns]
  have hids : (executions (crossing.own true)).map (·.taskId) = ["t"] := by decide +kernel
  have hmem : "t" ∈ (executions (crossing.own true)).map (·.taskId) := by simp [hids]
  exact (hexcludes false "t" "user" none none hcancel).2.1 true (List.mem_map.mp hmem)

end Conductor
