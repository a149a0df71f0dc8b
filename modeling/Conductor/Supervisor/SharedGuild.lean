/-
A recorded failure is found again.  The knowledge base and the peer suggestions
of a supervisor share a guild store; what a run reports when its task has
failed is suggested whenever the capability is asked about the input that its
first attempt had.
-/
import Mathlib.Algebra.Order.BigOperators.Group.List
import Conductor.Guild.FoundAgain
import Conductor.Supervisor.ToldFailures

namespace Conductor

open Effects Block

namespace SharedGuild

variable {S : Type} (guild : SharedGuild S)

/-- What the engine suggests after a history. -/
def suggest (h : Trace) (capability : String) (input : Dict) :
    Except PyExc (List GuildSuggestion) :=
  guild.engine.suggest guild.store capability input none (guild.after (guildReports h)).state

/-- How a report ends after a history. -/
def answer (h : Trace) (report : KnowledgeCall) : Except PyExc Unit :=
  match (((guild.knowledge.block report).run ()).exec (guild.store.machine guild.clock)
      (guild.after (guildReports h))).1 with
  | some ended => ended.1
  | none => .ok ()

/-- The input with which a task is attempted first: its own, with the adjustment
of the best suggestion for it. -/
def adjusted (h : Trace) (capability : String) (input : Dict) : Dict :=
  match guild.suggest h capability input with
  | .ok (best :: _) => Dict.update input best.approachAdjustment
  | _ => input

end SharedGuild

/-- The collaborators with the guild for knowledge base and peer suggestions. -/
def Env.sharing {S : Type} (env : Env) (guild : SharedGuild S) : Env :=
  { env with
    suggest := guild.suggest
    publish := fun h capability failures hint =>
      guild.answer h (.publish ⟨capability, failures, none, some hint, none, none⟩)
    publishSuccess := fun h capability input =>
      guild.answer h (.publishSuccess ⟨capability, input, none, none⟩) }

section Sharing

variable {S : Type} {guild : SharedGuild S} {env : Env} {sup : Supervisor} {earlier : Trace}
variable {name : String} {x : TaskRecord} {k : State}

theorem guildReports_of_untold {h : Trace} (hsince : Since earlier Untold h) :
    guildReports h = guildReports earlier := by
  obtain ⟨new, rfl, huntold⟩ := hsince
  rw [guildReports_append, huntold.2, List.append_nil]

theorem suggest_of_untold {h : Trace} (hsince : Since earlier Untold h) (capability : String)
    (input : Dict) : guild.suggest h capability input = guild.suggest earlier capability input := by
  rw [SharedGuild.suggest, SharedGuild.suggest, guildReports_of_untold hsince]

theorem applyPeerSuggestion_ready (hpeer : sup.peerSuggestions = true)
    (hname : x.capability = name) (h : Since earlier Untold k.history) :
    (applyPeerSuggestion sup).wp (env.sharing guild).logic
      (onReturn fun _ =>
        Unattempted earlier name (guild.adjusted earlier x.capability x.input)) x k := by
  have hsince (answer : Answer (.suggest x.capability x.input)) :
      Since earlier Untold (⟨.suggest x.capability x.input, answer⟩ :: k.history) :=
    lasting_untold.since earlier answer rfl h
  have hanswer : ((env.sharing guild).machine.step k (.suggest x.capability x.input)).1 =
      guild.suggest earlier x.capability x.input := suggest_of_untold h _ _
  unfold applyPeerSuggestion
  rw [if_pos hpeer, wp_object_bind, wp_bind, wp_ask]
  rcases hsuggest : guild.suggest earlier x.capability x.input with e | _ | ⟨best, rest⟩
  · rw [hsuggest] at hanswer
    exact Machine.call_of_step (Prod.ext hanswer rfl) trivial
  · rw [hsuggest] at hanswer
    have hinput : guild.adjusted earlier x.capability x.input = x.input := by
      rw [SharedGuild.adjusted, hsuggest]
    rw [hinput]
    exact Machine.call_of_step (Prod.ext hanswer rfl) ⟨⟨hname, rfl⟩, hsince _⟩
  · rw [hsuggest] at hanswer
    have hinput : guild.adjusted earlier x.capability x.input =
        Dict.update x.input best.approachAdjustment := by
      rw [SharedGuild.adjusted, hsuggest]
    rw [hinput]
    refine Machine.call_of_step (Prod.ext hanswer rfl) ?_
    dsimp only
    rw [wp_mutate_bind]
    apply Keeps.returns ((ready_notes _ earlier name _).noted _ _ _ _ _)
    exact ⟨⟨hname, rfl⟩, hsince _⟩

theorem executeTask_tells (hguild : sup.guildKnowledge = true) (hpeer : sup.peerSuggestions = true)
    {fuel : Nat} {capability : String} (hname : x.capability = name)
    (h : Since earlier Untold k.history) :
    (executeTask sup fuel capability).wp (env.sharing guild).logic
      (onReturn fun _ => Ends sup earlier name (guild.adjusted earlier x.capability x.input))
        x k := by
  unfold executeTask
  apply wp_seq (Env.logic_monotone _) (applyPeerSuggestion_ready hpeer hname h)
  intro _ t k' h
  apply wp_seq (Env.logic_monotone _) (startTask_ready h)
  intro started t k' h
  exact runAttempts_tells hguild h

theorem validate_untold {env : Env} (h : Since earlier Untold k.history) :
    (validateTaskSubmission sup (buildSubmission x)).wp env.logic
      (onReturn fun _ t k' => t = x ∧ isBlank x.capability = false ∧
        Since earlier Untold k'.history) x k := by
  apply wp_validateTaskSubmission
  · intro _ e
    trivial
  · intro hadmits
    have hcall : env.logic.call k (.validateInput x.capability x.input) fun _ k' =>
        Since earlier Untold k'.history := lasting_untold.since earlier _ rfl h
    apply env.logic_monotone _ hcall
    intro answer k' h
    cases answer with
    | error e => trivial
    | ok payload => exact ⟨rfl, hadmits.2.1, h⟩

/-- What holds when `run_task` is done with a loaded task that it may execute: if the
task has failed, its failed attempts were reported. -/
def RunConcluded (sup : Supervisor) (guild : SharedGuild S) (earlier : Trace) (task t : TaskRecord)
    (k : State) : Prop :=
  Unfailed t ∨ isBlank task.capability = false ∧
    Ends sup earlier task.capability (guild.adjusted earlier task.capability task.input) t k

theorem execute_concludes (hguild : sup.guildKnowledge = true)
    (hpeer : sup.peerSuggestions = true) {task : TaskRecord}
    (hblank : isBlank task.capability = false) {fuel : Nat} {capability : String}
    (h : Unattempted earlier task.capability task.input x k) :
    (executeTask sup fuel capability).wp (env.sharing guild).logic
      (onReturn fun _ => RunConcluded sup guild earlier task) x k := by
  have hruns : (executeTask sup fuel capability).wp (env.sharing guild).logic
      (onReturn fun _ => Ends sup earlier task.capability
        (guild.adjusted earlier x.capability x.input)) x k :=
    executeTask_tells hguild hpeer h.1.1 h.2
  rw [h.1.1, h.1.2] at hruns
  apply wp_onReturn_mono (Env.logic_monotone _) _ hruns
  intro _ t k' hends
  exact .inr ⟨hblank, hends⟩

theorem runLoadedTask_concludes (hguild : sup.guildKnowledge = true)
    (hpeer : sup.peerSuggestions = true) {fuel : Nat} (hexecutable : Executable x)
    (h : Since earlier Untold k.history) :
    (runLoadedTask sup fuel).wp (env.sharing guild).logic
      (onReturn fun _ => RunConcluded sup guild earlier x) x k := by
  unfold runLoadedTask
  rw [wp_object_bind]
  by_cases hpending : x.status = .pending
  · rw [if_pos hpending]
    apply wp_seq (Env.logic_monotone _) (validate_untold h)
    intro capability t k' hvalid
    obtain ⟨rfl, hblank, h⟩ := hvalid
    have hopen : Unfailed t := by
      rw [Unfailed, hpending]
      decide
    apply wp_seq (Env.logic_monotone _) (gatePending_unfailed hopen ⟨⟨rfl, rfl⟩, h⟩)
    intro _ t' k' hgated
    rw [wp_object_bind]
    by_cases hstill : t'.status = .pending
    · rw [if_pos hstill]
      exact execute_concludes hguild hpeer hblank hgated.1
    · rw [if_neg hstill]
      exact .inl hgated.2
  · rw [if_neg hpending, if_pos (hexecutable.resolve_left hpending)]
    apply wp_seq (Env.logic_monotone _) (validate_untold h)
    intro capability t k' hvalid
    obtain ⟨rfl, hblank, h⟩ := hvalid
    exact execute_concludes hguild hpeer hblank ⟨⟨rfl, rfl⟩, h⟩

/-- How a run of a stored task that may be executed concludes. -/
theorem runTask_concludes (hguild : sup.guildKnowledge = true)
    (hpeer : sup.peerSuggestions = true) {fuel : Nat} {taskId : TaskId} {task : TaskRecord}
    (hstored : k.state.store.get taskId = some task) (hexecutable : Executable task)
    {r : TaskRecord} {k' : State}
    (hrun : sup.runTaskOn (env.sharing guild) fuel taskId k = (some (.ok r), k')) :
    RunConcluded sup guild k.history task r k' := by
  have hruns : (runTask sup fuel taskId).wp (env.sharing guild).logic
      (onReturn fun r _ => RunConcluded sup guild k.history task r) () k := by
    let k₁ := ((env.sharing guild).machine.step k (.runTaskEntered taskId)).2
    let k₂ := ((env.sharing guild).machine.step k₁ (.storeGet taskId)).2
    have hentered : (env.sharing guild).machine.step k (.runTaskEntered taskId) = (.ok (), k₁) :=
      rfl
    have hfound : (env.sharing guild).machine.step k₁ (.storeGet taskId) =
        (.ok (some task), k₂) := by
      rw [← hstored]
      rfl
    have huntold : Since k.history Untold k₂.history :=
      lasting_untold.since k.history _ rfl
        (lasting_untold.since k.history _ rfl ⟨[], rfl, rfl, rfl⟩)
    simp only [runTask, getTask, wp_bind, wp_ask, wp_on]
    apply Machine.call_of_step hentered
    apply Machine.call_of_step hfound
    dsimp only
    rw [wp_pure]
    apply wp_mono (Env.logic_monotone _) _
      (runLoadedTask_concludes hguild hpeer hexecutable huntold)
    intro outcome t k' hconcluded
    cases outcome with
    | error e => trivial
    | ok done => exact hconcluded
  have hexec := ((Machine.wp_iff_exec _ _ _ _ _).mp hruns).1
  unfold Supervisor.runTaskOn at hrun
  obtain ⟨hended, hk'⟩ := Prod.mk.inj hrun
  obtain ⟨ended, hvalue, hok⟩ := Option.map_eq_some_iff.mp hended
  have hconcluded := hexec ended k' (Prod.ext hvalue hk')
  rw [hok] at hconcluded
  exact hconcluded

end Sharing

/-- Sixty-four hexadecimal digits, as `hashlib.sha256(text).hexdigest()` has them. -/
def HexDigest (text : String) : Prop :=
  text.toList.length = 64 ∧ ∀ c ∈ text.toList, c ∈ "0123456789abcdef".toList

namespace SharedGuild

variable {S : Type}

/-- The supervisor reports to the guild and asks it for suggestions, and both are
enabled; the digest function is the one of the standard library. -/
structure Serves (guild : SharedGuild S) (sup : Supervisor) : Prop where
  knowledge : sup.guildKnowledge = true
  suggestions : sup.peerSuggestions = true
  knowledgeEnabled : guild.knowledge.config.enabled = true
  engineEnabled : guild.engine.config.enabled = true
  digest : guild.engine.sha256Hex = sup.sha256Hex
  hex : ∀ text, HexDigest (sup.sha256Hex text)

/-- The keys of everything that was reported. -/
def touched (guild : SharedGuild S) (h : Trace) : List String :=
  (guildReports h).flatMap guild.knowledge.touchedKeys

/-- Whenever a run of a stored task returns it failed or escalated, the first failed
attempt of the run is recalled ever after for the input it had, as long as the
store has room for the keys. -/
def FindsAgain (guild : SharedGuild S) (sup : Supervisor) (env : Env)
    (hasRoom : List String → Prop) : Prop :=
  ∀ (k : State) (fuel : Nat) (taskId : TaskId) (task r : TaskRecord) (k' : State),
    k.state.store.get taskId = some task → Executable task →
      sup.runTaskOn (env.sharing guild) fuel taskId k = (some (.ok r), k') →
        r.status = .failed ∨ r.status = .escalated →
          ∃ failure rest,
            failedAttempts k'.history = failedAttempts k.history ++ failure :: rest ∧
              (':' ∉ task.capability.toList → ':' ∉ failure.errorType.toList →
                ∃ inputFp, ∀ later, hasRoom (guild.touched (later ++ k'.history)) →
                  guild.engine.Recalls guild.store
                    (guild.after (guildReports (later ++ k'.history))).state
                    ⟨task.capability, failure.errorType, inputFp⟩
                    (guild.adjusted k.history task.capability task.input))

variable {guild : SharedGuild S} {sup : Supervisor} {env : Env}

/-- A fingerprint of an input is sixteen hexadecimal digits. -/
theorem fingerprint_of_hex (hhex : ∀ text, HexDigest (sup.sha256Hex text)) {input : Dict}
    {inputFp : String} (hinput : inputFingerprint sup.sha256Hex input = .ok inputFp) :
    inputFp.isEmpty = false ∧ ':' ∉ inputFp.toList := by
  unfold inputFingerprint at hinput
  cases hdumps : jsonDumps (.dict input) with
  | error e =>
      rw [hdumps] at hinput
      cases hinput
  | ok text =>
      rw [hdumps] at hinput
      obtain ⟨hlength, hdigits⟩ := hhex text
      have hinputFp : String.ofList ((sup.sha256Hex text).toList.take 16) = inputFp :=
        Except.ok.inj hinput
      rw [← hinputFp]
      constructor
      · rw [Bool.eq_false_iff, ne_eq, String.isEmpty_iff]
        intro hempty
        have hnone : (String.ofList ((sup.sha256Hex text).toList.take 16)).toList = [] := by
          rw [hempty]
          rfl
        have hsixteen := congrArg List.length hnone
        rw [String.toList_ofList, List.length_take, hlength] at hsixteen
        cases hsixteen
      · rw [String.toList_ofList]
        intro hcolon
        have hdigit := hdigits ':' (List.mem_of_mem_take hcolon)
        revert hdigit
        decide

/-- What a supervisor reports passes on no dicts of its own. -/
theorem reports_pass {D : Dict → Prop} (hnil : D []) (h : Trace) :
    ∀ call ∈ guildReports h, call.Passes D := by
  intro call hcall
  obtain ⟨e, -, hreport⟩ := List.mem_filterMap.mp (List.mem_reverse.mp hcall)
  cases hcalled : e.call with
  | publish capability failures hint =>
      rw [hcalled] at hreport
      cases hreport
      exact ⟨hnil, hnil⟩
  | publishSuccess capability input =>
      rw [hcalled] at hreport
      cases hreport
      exact hnil
  | _ =>
      rw [hcalled] at hreport
      cases hreport

/-- Whatever is reported later, a reported failure is recalled, where the store
keeps its terms. -/
theorem findsAgain_of_terms (hserves : guild.Serves sup) {admits : GuildRecord → Prop}
    {f : Dict → Dict} {Holds : S → List (String × GuildRecord) → Prop} {D : Dict → Prop}
    {n : Nat} {records : List (String × GuildRecord)} (hcontent : guild.Content Holds D n records)
    {hasRoom : List String → Prop}
    (hterms : ∀ keys, hasRoom keys →
      GuildTerms guild.store admits f Holds D (n + keys.length) ∧
        guild.knowledge.RoomFor (Assoc.keys records ++ keys)) :
    guild.FindsAgain sup env hasRoom := by
  intro k fuel taskId task r k' hstored hexecutable hrun hstatus
  have hconcluded : RunConcluded sup guild k.history task r k' :=
    runTask_concludes hserves.knowledge hserves.suggestions hstored hexecutable hrun
  rcases hconcluded with hopen | ⟨hblank, hcompleted | hreported⟩
  · rcases hstatus with hfailed | hescalated
    · exact absurd hfailed hopen.1
    · exact absurd hescalated hopen.2
  · rw [hcompleted] at hstatus
    rcases hstatus with hfailed | hescalated
    · cases hfailed
    · cases hescalated
  · obtain ⟨failures, hbegins, -, new, hnew, hfailures, hint, hreport⟩ := hreported
    obtain ⟨failure, rest, inputFp, rfl, -, hinput, hfailure⟩ := hbegins
    refine ⟨failure, rest, by rw [hnew, failedAttempts_append, hfailures], ?_⟩
    intro hcapability herror
    refine ⟨inputFp, fun later hroom => ?_⟩
    obtain ⟨hlawful, hfits⟩ := hterms _ hroom
    obtain ⟨hsome, hplain⟩ := fingerprint_of_hex hserves.hex hinput
    have hnamed : task.capability.isEmpty = false := by
      rw [Bool.eq_false_iff, ne_eq, String.isEmpty_iff]
      intro hempty
      rw [hempty] at hblank
      cases hblank
    have hkey : guild.knowledge.fingerprintOf task.capability failure =
        ⟨task.capability, failure.errorType, inputFp⟩ := by
      rw [FailureKnowledgeBase.fingerprintOf, hfailure, orText, orText, hnamed, hsome]
      rfl
    have hreported : KnowledgeCall.publish
        ⟨task.capability, failure :: rest, none, some hint, none, none⟩ ∈
          guildReports (later ++ k'.history) := by
      rw [hnew, guildReports_append, guildReports_append]
      exact List.mem_append_left _ (List.mem_append_right _ hreport)
    apply recalls_reported hlawful hcontent hserves.knowledgeEnabled hserves.engineEnabled
      (reports_pass hlawful.dicts.nil _) le_rfl hfits ⟨hcapability, herror, hplain⟩
    · apply List.mem_flatMap.mpr
      refine ⟨_, hreported, List.mem_append_left _ ?_⟩
      rw [← hkey]
      exact List.mem_cons_self
    · rw [hserves.digest]
      exact hinput

/-- Every content of a store in memory has counts within some bound. -/
theorem content_memory {guild : SharedGuild MemoryGuildStore} (hfiled : Filed guild.start.records) :
    ∃ n, guild.Content MemoryGuildStore.Holds (fun _ => True) n guild.start.records := by
  refine ⟨(guild.start.records.map fun item =>
    item.2.failureCount.natAbs + item.2.successCount.natAbs).sum, ⟨rfl, hfiled⟩, ?_⟩
  intro item hitem
  exact ⟨trivial, trivial, List.le_sum_of_mem (List.mem_map_of_mem hitem)⟩

end SharedGuild

/-- No suggestion was applied to the task. -/
def Unsuggested (task : TaskRecord) : Prop :=
  ∀ entry ∈ task.auditTrail, entry.action ≠ "peer_suggestion_applied"

/-- The task was submitted with the capability and the input that it has. -/
def AsSubmitted (h : Trace) (task : TaskRecord) : Prop :=
  ∃ t, Saved h t ∧ t.taskId = task.taskId ∧ t.auditTrail.map (·.action) = ["submitted"] ∧
    t.capability = task.capability ∧ t.input = task.input

theorem AsSubmitted.cons {e : Event Call Answer} {h : Trace} {task : TaskRecord}
    (hsubmitted : AsSubmitted h task) : AsSubmitted (e :: h) task := by
  obtain ⟨t, hsaved, hrest⟩ := hsubmitted
  exact ⟨t, saved_cons.mpr (.inr hsaved), hrest⟩

/-- A task that waits for its first run has the input that it was submitted with. -/
theorem Sequential.as_submitted {sup : Supervisor} {env : Env} {queue : TaskQueue} {h : Trace}
    (hseq : Sequential sup env queue h) {taskId : TaskId} {task : TaskRecord}
    (hstored : stored h taskId = some task) (hexecutable : Executable task)
    (hunsuggested : Unsuggested task) : AsSubmitted h task := by
  have hkept := stored_induction (P := fun h r => r.status.attempted = false → Unsuggested r →
    AsSubmitted h r) ?_ ?_ (fun _ _ _ _ _ _ ih hstatus hclear => (ih hstatus hclear).cons) hseq
    hstored
  · exact hkept hexecutable.not_attempted hunsuggested
  · intro h t answer _ hcreated _ _
    obtain ⟨ts, metadata, -, -, -, -, -, haudit⟩ := hcreated
    exact ⟨t, saved_cons.mpr (.inl rfl), rfl, by rw [haudit]; rfl, rfl, rfl⟩
  · intro h r t answer _ _ ih _ hmove hstatus hclear
    have hbusy (hunderway : Underway (desk h) r) : r.status.attempted = true := by
      rcases hunderway.2 with hrunning | ⟨hcompleted, -⟩
      · rw [hrunning]
        rfl
      · rw [hcompleted]
        rfl
    have hmoved (hwaiting : r.status.attempted = false) (hid : t.taskId = r.taskId)
        (hcapability : t.capability = r.capability) (hinput : t.input = r.input)
        (haudit : ∃ new, t.auditTrail = r.auditTrail ++ new) :
        AsSubmitted (⟨.storeSave t, answer⟩ :: h) t := by
      obtain ⟨new, hnew⟩ := haudit
      have hearlier : Unsuggested r := by
        intro entry hentry
        apply hclear
        rw [hnew]
        exact List.mem_append_left _ hentry
      obtain ⟨first, hsaved, hfirst, hsubmitted, hsame, hfirstInput⟩ := ih hwaiting hearlier
      exact ⟨first, saved_cons.mpr (.inr hsaved), hfirst.trans hid.symm, hsubmitted,
        hsame.trans hcapability.symm, hfirstInput.trans hinput.symm⟩
    cases hmove with
    | allowed _ _ _ hbefore | denied _ _ _ hbefore | parked _ _ _ hbefore
    | approved _ _ _ _ _ hbefore | cancelled _ _ _ _ hbefore =>
        exact hmoved (by rw [hbefore]; rfl) rfl rfl rfl ⟨_, rfl⟩
    | suggested input metadata ts saved _ hbefore =>
        exact absurd rfl (hclear _ (List.mem_append_right _ (List.mem_singleton_self _)))
    | failureRecorded _ _ _ hunderway | retried _ _ _ _ hunderway =>
        change r.status.attempted = false at hstatus
        rw [hbusy hunderway] at hstatus
        cases hstatus
    | started | completed | failed | escalated => cases hstatus

/-- A recorded failure is found again.  With either store, whatever the guild holds
and as long as there is room, what was reported of a failed run is recalled for the
input of its first attempt: the stored input, with the adjustment of the best
suggestion there was.  The stored input is the submitted one up to the first
suggestion that is applied. -/
theorem failure_found_again (sup : Supervisor) (env : Env) :
    (∀ guild : SharedGuild MemoryGuildStore, guild.Serves sup →
      guild.store = MemoryGuildStore.operations → Filed guild.start.records →
        guild.FindsAgain sup env fun keys =>
          guild.knowledge.RoomFor (Assoc.keys guild.start.records ++ keys)) ∧
      (∀ (guild : SharedGuild GuildFile) (p : Pydantic) (n : Nat)
        (records : List (String × GuildRecord)), p.Lawful → guild.Serves sup →
          guild.store = LocalGuildStore.operations p →
            guild.Content (LocalGuildStore.Holds p) LocalGuildStore.Carried n records →
              guild.FindsAgain sup env fun keys =>
                guild.knowledge.RoomFor (Assoc.keys records ++ keys) ∧
                  n + keys.length < Json.digitLimit) ∧
      ∀ (fuel : Nat) (ops : List Operation) (queue : TaskQueue) (taskId : TaskId)
        (task : TaskRecord),
        (sup.run env fuel ops (.initial queue)).state.store.get taskId = some task →
          Executable task → Unsuggested task →
            AsSubmitted (sup.run env fuel ops (.initial queue)).history task := by
  refine ⟨?_, ?_, ?_⟩
  · intro guild hserves hstore hfiled
    obtain ⟨n, hcontent⟩ := SharedGuild.content_memory hfiled
    apply SharedGuild.findsAgain_of_terms hserves hcontent
    intro keys hroom
    rw [hstore]
    exact ⟨MemoryGuildStore.terms _, hroom⟩
  · intro guild p n records hp hserves hstore hcontent
    apply SharedGuild.findsAgain_of_terms hserves hcontent
    intro keys hroom
    rw [hstore]
    exact ⟨LocalGuildStore.terms hp hroom.2, hroom.1⟩
  · intro fuel ops queue taskId task hstored hexecutable hunsuggested
    rw [run_store] at hstored
    exact (run_sequential sup env fuel ops queue).as_submitted hstored hexecutable hunsuggested

/-- A supervisor that reports to a guild and takes its suggestions. -/
def Supervisor.sharing : Supervisor :=
  { Supervisor.reporting with
    peerSuggestions := true
    sha256Hex := FailureKnowledgeBase.demo.sha256Hex }

theorem hexDigest_of_all {text : String} (hlength : text.toList.length = 64)
    (hall : (text.toList.all "0123456789abcdef".toList.contains) = true) : HexDigest text := by
  constructor
  · exact hlength
  · intro c hc
    exact List.contains_iff_mem.mp (List.all_eq_true.mp hall c hc)

theorem demo_hex (text : String) : HexDigest (Supervisor.sharing.sha256Hex text) := by
  change HexDigest (FailureKnowledgeBase.demo.sha256Hex text)
  unfold FailureKnowledgeBase.demo
  dsimp only
  by_cases hempty : text = "\x7b\x7d"
  · rw [if_pos hempty]
    apply hexDigest_of_all <;> decide +kernel
  · rw [if_neg hempty]
    apply hexDigest_of_all <;> decide +kernel

/-- A guild in memory for the demo. -/
def SharedGuild.demo (start : MemoryGuildStore) : SharedGuild MemoryGuildStore where
  knowledge := .demo
  engine := .demo
  store := MemoryGuildStore.operations
  clock h := h.length
  start := start

theorem SharedGuild.demo_serves (start : MemoryGuildStore) :
    (SharedGuild.demo start).Serves .sharing where
  knowledge := rfl
  suggestions := rfl
  knowledgeEnabled := rfl
  engineEnabled := rfl
  digest := rfl
  hex := demo_hex

/-- A pending echo without input, which fails. -/
def pendingEcho : State := ⟨[], worldWith (foundTask .pending)⟩

/-- The run of the echo beside a guild that held these records. -/
def sharedRun (start : MemoryGuildStore) : Ended :=
  Supervisor.sharing.runTaskOn ((Env.failingUntil 1).sharing (.demo start)) 1 "t" pendingEcho

theorem returned_of_status {ended : Option (Except PyExc TaskRecord)} {status : TaskStatus}
    (hstatus : (ended.bind (·.toOption)).map (·.status) = some status) :
    ∃ r, ended = some (.ok r) ∧ r.status = status := by
  rcases ended with _ | e | r
  · cases hstatus
  · cases hstatus
  · exact ⟨r, rfl, Option.some.inj hstatus⟩

theorem echo_found_again :
    ∃ inputFp, (SharedGuild.demo .empty).engine.Recalls MemoryGuildStore.operations
      ((SharedGuild.demo .empty).after (guildReports (sharedRun .empty).2.history)).state
      ⟨"echo", "RuntimeError", inputFp⟩ [] := by
  have hstatus : ((sharedRun .empty).1.bind (·.toOption)).map (·.status) = some .failed := by
    decide +kernel
  have herror : (failedAttempts (sharedRun .empty).2.history).map (·.errorType) =
      ["RuntimeError"] := by decide +kernel
  obtain ⟨r, hreturned, hfailed⟩ := returned_of_status hstatus
  obtain ⟨failure, rest, hfailures, hfound⟩ := (failure_found_again .sharing
    (Env.failingUntil 1)).1 (.demo .empty) (SharedGuild.demo_serves .empty) rfl .nil pendingEcho 1
      "t" (foundTask .pending) r (sharedRun .empty).2 rfl (.inl rfl) (Prod.ext hreturned rfl)
      (.inl hfailed)
  rw [hfailures] at herror
  have hnamed : failure.errorType = "RuntimeError" := (List.cons.inj herror).1
  rw [hnamed] at hfound
  obtain ⟨inputFp, hrecalls⟩ := hfound (by decide) (by decide)
  exact ⟨inputFp, hrecalls [] (by decide +kernel)⟩

/-- What the guild knows of another failure of the echo. -/
def adjustingRecord : GuildRecord where
  fingerprint := ⟨"echo", "KeyError", "0000000000000000"⟩
  resolutionHint := some "send a message"
  approachAdjustment := [("message", .str "hello")]
  role := none
  project := none
  successCount := 0
  failureCount := 1
  createdAt := 0
  updatedAt := 0
  metadata := []

def adjustingStore : MemoryGuildStore := MemoryGuildStore.empty.save adjustingRecord

/-- An echo without input, submitted and run, with the guild that knows of the other
failure. -/
def adjustedEcho : State :=
  Supervisor.sharing.run ((Env.failingUntil 1).sharing (.demo adjustingStore)) 1
    [.submit ⟨"say", "echo", [], [], 0, none⟩, .runNext] (.initial (.inMemory []))

/-- The suggestion is applied before the first attempt, and the failure is then
recorded for the adjusted input: nothing matches the input that was submitted. -/
theorem adjusted_not_found :
    (∃ task, adjustedEcho.state.store.get "x" = some task ∧ task.status = .failed) ∧
      (failedAttempts adjustedEcho.history).map (·.errorType) = ["RuntimeError"] ∧
        ∀ suggestions, (SharedGuild.demo adjustingStore).suggest adjustedEcho.history "echo" [] =
            .ok suggestions →
          ¬ ∃ suggestion ∈ suggestions, suggestion.fingerprint.errorType = "RuntimeError" ∧
            inputFingerprint FailureKnowledgeBase.demo.sha256Hex [] =
              .ok suggestion.fingerprint.inputFingerprint := by
  have hstored : (adjustedEcho.state.store.get "x").map (·.status) = some .failed := by
    decide +kernel
  have herror : (failedAttempts adjustedEcho.history).map (·.errorType) = ["RuntimeError"] := by
    decide +kernel
  have hsuggested : ((SharedGuild.demo adjustingStore).suggest adjustedEcho.history "echo"
      []).toOption.map (fun suggestions =>
        suggestions.map (·.fingerprint.inputFingerprint)) =
          some ["0000000000000000", "cf8f644b80ee8100"] := by decide +kernel
  have hinput : inputFingerprint FailureKnowledgeBase.demo.sha256Hex [] =
      .ok "44136fa355b3678a" := by rfl
  refine ⟨Option.map_eq_some_iff.mp hstored, herror, ?_⟩
  intro suggestions hsuggestions hmatch
  obtain ⟨suggestion, hmem, -, hmatch⟩ := hmatch
  rw [hsuggestions] at hsuggested
  have hfound : suggestion.fingerprint.inputFingerprint ∈
      ["0000000000000000", "cf8f644b80ee8100"] := by
    rw [← Option.some.inj hsuggested]
    exact List.mem_map_of_mem hmem
  rw [hinput] at hmatch
  rw [← Except.ok.inj hmatch] at hfound
  revert hfound
  decide

end Conductor
