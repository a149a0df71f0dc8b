/-
The approval flag of a capability file.  A task can leave `PENDING` past the
approval gate only after `run_task` was answered with a descriptor that does not
ask for approval, so the flag is effective as far as the loaded object keeps it.
-/
import Conductor.Loader
import Conductor.Supervisor.Authorisation
import Conductor.Supervisor.Stages

namespace Conductor

open Effects Block

/-- The capabilities whose descriptor was seen without the approval flag. -/
abbrev Unflagged := List String

/-- A pending task is denied or started only if its capability was seen without
the approval flag. -/
def approvalGate : Monitor Unflagged Call Answer where
  initial := []
  next
    | unflagged, .descriptor capability, .ok descriptor =>
        if descriptor.requireApproval then unflagged else capability :: unflagged
    | unflagged, _, _ => unflagged
  allows
    | unflagged, .storeSave task =>
        ∀ entry, task.auditTrail.getLast? = some entry →
          entry.action = "denied" ∨ entry.action = "started" →
            entry.fromStatus = some .pending → task.capability ∈ unflagged
    | _, _ => True
  answers := Sound

theorem approvalGate_timeless : Timeless approvalGate :=
  ⟨rfl, fun _ => trivial, fun _ _ => rfl⟩

/-- The task in hand has passed the gate if it is pending and goes on. -/
def Passed : Stage → TaskRecord → Unflagged → Prop
  | .loaded, _, _ => True
  | .ungated, task, unflagged => task.capability ∈ unflagged
  | .authorised, task, unflagged => task.status = .pending → task.capability ∈ unflagged

theorem approvalGate_allows {unflagged : Unflagged} {task : TaskRecord}
    {trail : List AuditEntry} {entry : AuditEntry} (htrail : task.auditTrail = trail ++ [entry])
    (hentry : entry.action = "denied" ∨ entry.action = "started" →
      entry.fromStatus = some .pending → task.capability ∈ unflagged) :
    approvalGate.allows unflagged (.storeSave task) := by
  intro newest hnewest
  rw [htrail, List.getLast?_concat, Option.some.injEq] at hnewest
  exact hnewest ▸ hentry

theorem gated_transition {task : TaskRecord} {unflagged : Unflagged} {toStatus : TaskStatus}
    {actor action : String} {eventType : EventType} {metadata : Dict} {error : Option String}
    {timestamp : Option Time}
    (haction : action = "denied" ∨ action = "started" → task.status = .pending →
      task.capability ∈ unflagged) :
    (transitionStatus toStatus actor action eventType metadata error timestamp).wp
      approvalGate.logic (fun _ t _ => t.status = toStatus) task unflagged := by
  refine approvalGate_timeless.wp_transitionStatus ?_ (fun _ _ _ _ => trivial) ?_
  · intro ts
    refine approvalGate_allows rfl fun hgated hfrom => ?_
    exact haction hgated (Option.some.inj hfrom)
  · rintro ts _ rfl ts' answer outcome -
    rfl

/-- Every operation keeps to the gate. -/
theorem passed_invariant : OperationInvariant approvalGate.logic Passed fun _ => True where
  monotone := approvalGate.logic_monotone
  outOfFuel _ _ _ := trivial
  loaded _ _ _ _ := trivial
  approved task _ _ happroved hpending := by simp [happroved] at hpending
  result stage task unflagged result h := by cases stage <;> exact h
  attempt _ _ _ h := h
  beside stage task unflagged c hc h := by
    refine ⟨by cases c <;> trivial, fun answer _ => ?_⟩
    cases c <;> first | exact h | cases hc
  described stage task unflagged hstage h := by
    refine ⟨trivial, ?_⟩
    rintro (e | descriptor) -
    · exact ⟨h, by simp⟩
    · simp only [approvalGate]
      split
      · rename_i hflag
        refine ⟨h, ?_⟩
        rintro _ ⟨⟩ hnone
        simp [hflag] at hnone
      · refine ⟨?_, fun _ _ _ => List.mem_cons_self⟩
        cases stage with
        | loaded => trivial
        | ungated => exact List.mem_cons_of_mem _ h
        | authorised => exact absurd rfl hstage
  evaluated task unflagged context h :=
    ⟨trivial, fun _ _ => ⟨h, fun _ _ _ _ => h⟩⟩
  parked task unflagged actor metadata h :=
    wp_mono approvalGate.logic_monotone (fun _ _ _ hstatus => ⟨trivial, fun _ => hstatus⟩)
      (gated_transition (by simp))
  denied task unflagged metadata error ts h :=
    wp_mono approvalGate.logic_monotone (fun _ _ _ hstatus => ⟨trivial, fun _ => hstatus⟩)
      (gated_transition fun _ _ => h)
  suggested task unflagged h := ⟨trivial, fun _ _ => ⟨h, fun _ _ _ => h⟩⟩
  attempted task unflagged capability context timeout h :=
    ⟨trivial, fun _ _ => ⟨h, fun _ _ => ⟨trivial, fun _ _ => h⟩⟩⟩
  decided task unflagged failure h := ⟨trivial, fun _ _ => ⟨h, fun _ _ => h⟩⟩
  noted actor action fromStatus toStatus metadata haction := by
    intro task unflagged h
    refine approvalGate_timeless.wp_note ?_
    rintro ts saved _ rfl
    refine ⟨approvalGate_allows rfl fun hgated _ => ?_, h⟩
    rcases hgated with rfl | rfl <;> cases haction
  retried metadata error := by
    intro task unflagged h
    refine approvalGate_timeless.wp_note_emit ?_
    rintro ts saved t rfl
    exact ⟨approvalGate_allows rfl (by simp), fun ts' => ⟨trivial, fun _ _ _ => h⟩⟩
  worked toStatus action eventType metadata error ts _ hstatus _ := by
    intro task unflagged h
    refine wp_mono approvalGate.logic_monotone ?_ (gated_transition fun _ => h)
    intro _ t _ ht hpending
    exact absurd (ht.symm.trans hpending) hstatus
  settled _ _ _ := trivial
  atDesk unflagged c hc _ := ⟨by cases c <;> trivial, fun _ _ => trivial⟩
  found _ _ _ := ⟨trivial, fun _ _ => ⟨trivial, fun _ _ => trivial⟩⟩
  created unflagged task ts metadata _ _ htrail := by
    refine ⟨?_, fun _ _ => trivial⟩
    rw [← List.nil_append [_]] at htrail
    exact approvalGate_allows htrail (by simp)
  approving task unflagged actor metadata _ _ :=
    wp_mono approvalGate.logic_monotone (fun _ _ _ _ => trivial) (gated_transition (by simp))
  cancelling task unflagged actor metadata error ts _ _ :=
    wp_mono approvalGate.logic_monotone (fun _ _ _ _ => trivial) (gated_transition (by simp))

/-- The approval flag is in force for a capability: its tasks leave `PENDING`
only to wait for approval, and none is executed before it was approved. -/
structure FlagEffective (name : String) (h : Trace) : Prop where
  leaves : ∀ later earlier t answer r, h = later ++ ⟨.storeSave t, answer⟩ :: earlier →
    stored earlier t.taskId = some r → r.capability = name → r.status = .pending →
      t.status = .pending ∨ t.status = .awaitingApproval
  executes : ∀ later earlier capability task payload context timeout answer,
    h = later ++ ⟨.execute capability task payload context timeout, answer⟩ :: earlier →
      task.capability = name → ApprovalRecorded earlier task.taskId

/-- Every descriptor of the capability asks for approval. -/
def AsksApproval (env : Env) (name : String) : Prop :=
  ∀ h descriptor, env.descriptor h name = .ok descriptor → descriptor.requireApproval = true

theorem run_approvalGate (sup : Supervisor) (env : Env) (fuel : Nat) (ops : List Operation)
    (queue : TaskQueue) :
    approvalGate.Lawful (sup.run env fuel ops (.initial queue)).history :=
  Prog.exec_lawful (I := fun k => k.state.store.Keyed) (keyed_step env)
    (fun _ c hkeyed => sound_of_keyed env hkeyed c) MemoryTaskStore.keyed_empty
    (passed_invariant.client fuel ops trivial) trivial

variable {sup : Supervisor} {env : Env} {queue : TaskQueue} {h : Trace} {name : String}

namespace Sequential

theorem not_unflagged (hasks : AsksApproval env name) (hseq : Sequential sup env queue h) :
    name ∉ approvalGate.view h := by
  induction h with
  | nil => exact List.not_mem_nil
  | cons e h ih =>
      have ih := ih hseq.tail
      obtain ⟨c, answer⟩ := e
      cases c with
      | descriptor capability =>
          have hanswer : answer = env.descriptor h capability := hseq.genuine.1
          cases answer with
          | error e => exact ih
          | ok descriptor =>
              rw [Monitor.view_cons]
              simp only [approvalGate]
              split
              · exact ih
              · rename_i hflag
                rw [List.mem_cons]
                rintro (rfl | hmem)
                · exact hflag (hasks h descriptor hanswer.symm)
                · exact ih hmem
      | _ => exact ih

/-- A pending task whose capability asks for approval is parked or left. -/
theorem pending_parked (hasks : AsksApproval env name) {t r : TaskRecord}
    {answer : Answer (.storeSave t)}
    (hseq : Sequential sup env queue (⟨.storeSave t, answer⟩ :: h))
    (hallowed : approvalGate.allows (approvalGate.view h) (.storeSave t))
    (hstored : stored h t.taskId = some r) (hcapability : r.capability = name)
    (hpending : r.status = .pending) :
    t.status = .pending ∨ t.status = .awaitingApproval := by
  have hgate := hseq.tail.not_unflagged hasks
  rcases hseq.saved with hcreated | ⟨r', hstored', -, hmove⟩
  · obtain ⟨_, _, -, -, -, hstatus, -⟩ := hcreated
    exact .inl hstatus
  · obtain rfl : r = r' := Option.some.inj (hstored.symm.trans hstored')
    have hclosed {trail : List AuditEntry} {entry : AuditEntry}
        (htrail : t.auditTrail = trail ++ [entry])
        (haction : entry.action = "denied" ∨ entry.action = "started")
        (hfrom : entry.fromStatus = some r.status) : False := by
      have hmem := hallowed entry (by rw [htrail, List.getLast?_concat]) haction
        (hfrom.trans (congrArg some hpending))
      rw [hmove.capability_eq, hcapability] at hmem
      exact hgate hmem
    have hidle (hunderway : Underway (desk h) r) : False := by
      rcases hunderway.2 with hrunning | ⟨hcompleted, -⟩
      · simp [hpending] at hrunning
      · simp [hpending] at hcompleted
    cases hmove with
    | allowed | suggested => exact .inl hpending
    | parked => exact .inr rfl
    | denied => exact (hclosed rfl (.inl rfl) rfl).elim
    | started => exact (hclosed rfl (.inr rfl) rfl).elim
    | failureRecorded _ _ _ hunderway => exact (hidle hunderway).elim
    | retried _ _ _ _ hunderway => exact (hidle hunderway).elim
    | completed _ _ _ hunderway => exact (hidle hunderway).elim
    | failed _ _ _ hunderway => exact (hidle hunderway).elim
    | escalated _ _ _ _ _ hunderway => exact (hidle hunderway).elim
    | approved _ _ _ _ _ hawaiting => simp [hpending] at hawaiting
    | cancelled _ _ _ _ hawaiting => simp [hpending] at hawaiting

/-- An execution of a capability that asks for approval was approved. -/
theorem executed_approved (hasks : AsksApproval env name) {task : TaskRecord}
    (hseq : Sequential sup env queue h) (hadmitted : Admitted (desk h) task)
    (hcapability : task.capability = name) : ApprovalRecorded h task.taskId := by
  obtain ⟨hrunning, entry, hentry, hid, -, hgates⟩ := hadmitted
  obtain ⟨during, before, hin, hseen⟩ := hseq.run_task_call hrunning
  rcases hgates with happroved | ⟨-, ⟨descriptor, hmem, hflag⟩, -⟩
  · obtain ⟨⟨answer, rfl⟩, -⟩ := hin
    have hbefore : Sequential sup env queue before := hseq.of_append.tail
    have hstored := hseen.entry entry hentry
    rw [hid] at hstored
    exact ((hbefore.approval_recorded hstored happroved).cons _).append _
  · obtain ⟨_, earlier, -, hanswer⟩ := hseq.genuine.of_mem (hin.mem (hseen.descriptors _ hmem))
    have hbuilt : env.descriptor earlier task.capability = .ok descriptor := hanswer.symm
    rw [hcapability] at hbuilt
    rw [hasks earlier descriptor hbuilt] at hflag
    cases hflag

end Sequential

/-- A capability whose every descriptor asks for approval has its flag in force
in every sequential run from an empty store. -/
theorem flagEffective_of_asks (sup : Supervisor) (env : Env) (queue : TaskQueue) (fuel : Nat)
    (ops : List Operation) (hasks : AsksApproval env name) :
    FlagEffective name (sup.run env fuel ops (.initial queue)).history := by
  have hrun := run_sequential sup env fuel ops queue
  have hlawful := run_approvalGate sup env fuel ops queue
  refine ⟨?_, ?_⟩
  · intro later earlier t answer r hsplit hstored hcapability hpending
    rw [hsplit] at hrun hlawful
    exact hrun.of_append.pending_parked hasks hlawful.allows_of_split hstored hcapability
      hpending
  · intro later earlier capability task payload context timeout answer hsplit hcapability
    rw [hsplit] at hrun
    exact hrun.of_append.tail.executed_approved hasks hrun.of_append.permitted.2.2.1 hcapability

/-- The object keeps a flag that is set on its descriptor, or needs no setting:
the descriptor is a stored attribute, or all that the property builds ask for
approval already. -/
def DescriptorAttribute.KeepsFlag (capability : DescriptorAttribute) : Prop :=
  (∃ descriptor, capability = .stored descriptor) ∨
    ∀ h descriptor, capability.get h = .ok descriptor → descriptor.requireApproval = true

/-- Setting the flag succeeds on an object that keeps it, and changes no name. -/
theorem DescriptorAttribute.KeepsFlag.set {capability registered : DescriptorAttribute}
    (hkeeps : capability.KeepsFlag) (hset : capability.setRequireApproval = .ok registered)
    {h : Trace} {descriptor : CapabilityDescriptor}
    (hdescriptor : registered.get h = .ok descriptor) : descriptor.requireApproval = true := by
  cases capability with
  | stored before =>
      cases hset
      cases hdescriptor
      rfl
  | built build =>
      rcases hkeeps with ⟨_, ⟨⟩⟩ | hflags
      cases hbuild : build [] with
      | error e =>
          rw [setRequireApproval, hbuild] at hset
          cases hset
      | ok first =>
          rw [setRequireApproval, hbuild] at hset
          cases hset
          exact hflags h descriptor hdescriptor

theorem DescriptorAttribute.name_of_set {capability registered : DescriptorAttribute}
    (hset : capability.setRequireApproval = .ok registered) {before after : CapabilityDescriptor}
    (hbefore : capability.get [] = .ok before) (hafter : registered.get [] = .ok after) :
    after.name = before.name := by
  cases capability with
  | stored descriptor =>
      cases hset
      cases hbefore
      cases hafter
      rfl
  | built build =>
      have hbuild : build [] = .ok before := hbefore
      rw [setRequireApproval, hbuild] at hset
      cases hset
      exact congrArg (·.name) (Except.ok.inj (hafter.symm.trans hbefore))

/-- The approval flag in the capability file is effective as far as the loaded
object keeps it.  For every file that loads and every entry in it with the flag
whose object stores its descriptor, or builds flagged ones, the flag is in force
for the capability in every sequential run over the loaded registry. -/
theorem approval_flag_effective (py : LoaderEnv) (file : CapabilitiesFile)
    {registry : LoadedRegistry} (hload : loadCapabilitiesFromFile py file = .ok registry)
    {entry : CapabilityEntry} (hentry : entry ∈ file.capabilities)
    (hflag : entry.requireApproval = true) {capability : DescriptorAttribute}
    {controls : Option CapabilityExecutionControls}
    (hinstance : instantiate py entry = .ok (capability, controls))
    (hkeeps : capability.KeepsFlag) {descriptor : CapabilityDescriptor}
    (hdescriptor : capability.get [] = .ok descriptor) (sup : Supervisor) (env : Env)
    (queue : TaskQueue) (fuel : Nat) (ops : List Operation) :
    FlagEffective descriptor.name
      ({ sup with registry := registry.toRegistry }.run (env.withCapabilities registry) fuel ops
        (.initial queue)).history := by
  obtain ⟨_, _, registered, after, hmade, hflagged, hafter, hlookup⟩ :=
    loadCapabilitiesFromFile_ok hload hentry
  obtain ⟨rfl, rfl⟩ := Prod.mk.inj (Except.ok.inj (hinstance.symm.trans hmade))
  rw [flagged, if_pos hflag] at hflagged
  rw [← DescriptorAttribute.name_of_set hflagged hdescriptor hafter]
  refine flagEffective_of_asks _ _ queue fuel ops ?_
  intro h found hfound
  simp only [Env.withCapabilities, hlookup] at hfound
  exact hkeeps.set hflagged hfound

/-- The file system capability, which builds its descriptor on each access. -/
def filesystemCapability : DescriptorAttribute := .built fun _ => .ok filesystemDescriptor

/-- A plugin that keeps its descriptor. -/
def shellCapability : DescriptorAttribute := .stored ⟨"shell", "", .low, [], false⟩

/-- One class can be imported; its instances are this object. -/
def loaderOf (capability : DescriptorAttribute) : LoaderEnv where
  importAttribute _ _ := .ok (some fun _ => .ok capability)
  resolveBasePath _ := .ok "/"
  validateControls _ := .ok ⟨none, none⟩

/-- An entry that asks for approval. -/
def approvalEntry (importPath : String) : CapabilityEntry := ⟨importPath, [], none, true⟩

def approvalFile (importPath : String) : CapabilitiesFile :=
  ⟨false, [approvalEntry importPath], []⟩

/-- The file loads exactly the object of its entry, flagged. -/
theorem approvalFile_loads {py : LoaderEnv} {importPath : String}
    {capability registered : DescriptorAttribute} {descriptor : CapabilityDescriptor}
    (hinstance : instantiate py (approvalEntry importPath) = .ok (capability, none))
    (hset : capability.setRequireApproval = .ok registered)
    (hdescriptor : registered.get [] = .ok descriptor) :
    loadCapabilitiesFromFile py (approvalFile importPath) =
      .ok ⟨[(descriptor.name, registered)], []⟩ := by
  have hregister : LoadedRegistry.empty.register registered none =
      .ok ⟨[(descriptor.name, registered)], []⟩ := by
    rw [LoadedRegistry.register, hdescriptor]
    rfl
  have hentry : loadEntry py .empty (approvalEntry importPath) =
      .ok ⟨[(descriptor.name, registered)], []⟩ := by
    rw [loadEntry, bind_of_ok hinstance]
    exact (bind_of_ok hset _).trans hregister
  have hinitial : initialRegistry (approvalFile importPath) = .ok .empty := rfl
  have hloaded : (approvalFile importPath).capabilities.foldlM (loadEntry py) .empty =
      .ok ⟨[(descriptor.name, registered)], []⟩ := by
    rw [approvalFile, List.foldlM_cons, hentry]
    rfl
  rw [loadCapabilitiesFromFile, bind_of_ok hinitial, bind_of_ok hloaded]
  rfl

theorem loaderOf_instantiates {capability : DescriptorAttribute} {importPath : String}
    (hmodule : (partitionColon importPath).1.isEmpty = false)
    (hclass : (partitionColon importPath).2.isEmpty = false) :
    instantiate (loaderOf capability) (approvalEntry importPath) = .ok (capability, none) :=
  instantiate_ok rfl (importObject_ok rfl hmodule hclass rfl) rfl rfl

def filesystemPath : String := "engine.capabilities.filesystem:FilesystemCapability"

theorem filesystem_instantiates :
    instantiate (loaderOf filesystemCapability) (approvalEntry filesystemPath) =
      .ok (filesystemCapability, none) :=
  loaderOf_instantiates (by decide +kernel) (by decide +kernel)

/-- What the file with the file system capability loads. -/
def filesystemRegistry : LoadedRegistry := ⟨[("filesystem", filesystemCapability)], []⟩

/-- One task submitted to a loaded capability and taken from the queue. -/
def loadedRun (registry : LoadedRegistry) (name : String) : State :=
  { Supervisor.unconfigured [] with registry := registry.toRegistry }.run
    (Env.returning.withCapabilities registry) 1
    [.submit ⟨"list", name, [], [], 0, none⟩, .runNext] (.initial (.inMemory []))

/-- The call saves an approved task. -/
def Call.savesApproved : Call → Bool
  | .storeSave task => task.status == .approved
  | _ => false

/-- The flag of the file is lost on the built-in capability: the task is
executed without an approval. -/
theorem filesystem_flag_lost :
    ¬ ∀ (py : LoaderEnv) (file : CapabilitiesFile) (registry : LoadedRegistry)
      (entry : CapabilityEntry) (capability : DescriptorAttribute)
      (controls : Option CapabilityExecutionControls) (descriptor : CapabilityDescriptor),
      loadCapabilitiesFromFile py file = .ok registry → entry ∈ file.capabilities →
        entry.requireApproval = true → instantiate py entry = .ok (capability, controls) →
          capability.get [] = .ok descriptor →
            ∀ (sup : Supervisor) (env : Env) (queue : TaskQueue) (fuel : Nat)
              (ops : List Operation), UniqueIds env → FlagEffective descriptor.name
                ({ sup with registry := registry.toRegistry }.run
                  (env.withCapabilities registry) fuel ops (.initial queue)).history := by
  intro hclaim
  have hexecuted : (executions (loadedRun filesystemRegistry "filesystem").history).map
      (·.capability) = ["filesystem"] := by decide +kernel
  have hunapproved : (loadedRun filesystemRegistry "filesystem").history.any
      (fun e => e.call.savesApproved) = false := by decide +kernel
  have heffective := hclaim (loaderOf filesystemCapability) (approvalFile filesystemPath)
    filesystemRegistry (approvalEntry filesystemPath) filesystemCapability
    none filesystemDescriptor (approvalFile_loads filesystem_instantiates rfl rfl)
    List.mem_cons_self rfl filesystem_instantiates rfl (.unconfigured [])
    .returning (.inMemory []) 1 [.submit ⟨"list", "filesystem", [], [], 0, none⟩, .runNext]
    (uniqueIds_of_freshId rfl)
  cases htasks : executions (loadedRun filesystemRegistry "filesystem").history with
  | nil => simp [htasks] at hexecuted
  | cons task tasks =>
      rw [htasks, List.map_cons, List.cons.injEq] at hexecuted
      obtain ⟨later, earlier, _, _, _, _, answer, hsplit⟩ :=
        exists_split_of_mem_executions (htasks ▸ List.mem_cons_self : task ∈ _)
      obtain ⟨between, before, t, saved, rfl, -, happroved, -⟩ :=
        heffective.executes later earlier _ task _ _ _ answer hsplit hexecuted.1
      rw [List.any_eq_false] at hunapproved
      exact hunapproved ⟨.storeSave t, saved⟩ (by rw [hsplit]; simp) (decide_eq_true happroved)

/-- A plugin that stores its descriptor waits for approval. -/
theorem approval_flag_effective_shell :
    FlagEffective "shell"
      (loadedRun ⟨[("shell", .stored ⟨"shell", "", .low, [], true⟩)], []⟩ "shell").history :=
  have hinstance : instantiate (loaderOf shellCapability) (approvalEntry "plugins:Shell") =
      .ok (shellCapability, none) :=
    loaderOf_instantiates (by decide +kernel) (by decide +kernel)
  approval_flag_effective (loaderOf shellCapability) (approvalFile "plugins:Shell")
    (approvalFile_loads hinstance rfl rfl) List.mem_cons_self rfl hinstance (.inl ⟨_, rfl⟩) rfl
    _ _ _ _ _

end Conductor
