/-
The sandbox does not change what a capability does.  The runner and the worker
are two ends of one protocol: what the capability would have returned or raised
in this process is what the runner returns, or tells in its error.
-/
import Conductor.Runtime.SandboxOutcomes

namespace Conductor

open Json

namespace Printed

variable {α β : Type}

theorem silent_ok_bind (value : α) (f : α → Printed β) : silent (.ok value) >>= f = f value := by
  change (⟨"" ++ (f value).text, (f value).outcome⟩ : Printed β) = f value
  rw [String.empty_append]

/-- Steps that print nothing come to their outcomes, one after the other. -/
theorem bind_eq_silent {m : Printed α} {f : α → Printed β} {g : α → Except PyExc β}
    (htext : m.text = "") (hf : ∀ value, f value = silent (g value)) :
    m >>= f = silent (m.outcome >>= g) := by
  obtain ⟨text, outcome⟩ := m
  obtain rfl : text = "" := htext
  cases outcome with
  | error e => rfl
  | ok value => exact (silent_ok_bind value f).trans (hf value)

end Printed

/-- Where a capability raises: its class cannot be loaded, or it is running. -/
inductive WorkerStage where
  | loading
  | running

namespace WorkerEnv

variable (env : WorkerEnv)

/-- The result of a capability as JSON. -/
def resultData (result : CapabilityResult) : Value :=
  .dict [("output", result.output), ("metadata", .dict result.metadata)]

/-- The capability on a payload; its result has to be one that JSON can carry. -/
def performed (capability : WorkerCapability) (payload : Value) (context : CapabilityContext) :
    Except PyExc CapabilityResult := do
  let validated ← (capability.validateInput payload).outcome
  let result ← (capability.execute validated context).outcome
  let output ← result.output
  let metadata ← result.metadata
  match refusal (resultData ⟨output, metadata⟩) with
  | some e => .error e
  | none => .ok ⟨output, metadata⟩

/-- The capability of the import path, loaded and run in this process. -/
def direct (importPath : String) (payload : Value) (context : CapabilityContext) :
    Except (WorkerStage × PyExc) CapabilityResult :=
  match (env.loadCapability (.str importPath)).outcome with
  | .error e => .error (.loading, e)
  | .ok capability => (performed capability payload context).mapError (.running, ·)

/-- What the worker says of an exception. -/
def stageError (stage : WorkerStage) (e : PyExc) : String → Dict :=
  match stage with
  | .loading => loadError
  | .running => env.executionError e

/-- The message in it. -/
def stageMessage (stage : WorkerStage) (e : PyExc) (text : String) : String :=
  match stage with
  | .loading => "capability load error: " ++ text
  | .running => e.typeName ++ ": " ++ text

def exitCode (status : Int) : String := "exit code " ++ toString status

/-- What the runner says of an exception in the worker.  One that is no
`Exception` ends the worker with a status of its own. -/
def complaint (stage : WorkerStage) (e : PyExc) : String :=
  if e.isException then
    "' failed: " ++ (e.text.map (stageMessage stage e)).getD (exitCode 1)
  else if env.exitStatus e = 0 then "' returned invalid JSON"
  else "' failed: " ++ exitCode (env.exitStatus e)

/-- Neither the class nor the capability prints anything. -/
structure Quiet (env : WorkerEnv) : Prop where
  load : ∀ moduleName className, (env.load moduleName className).text = ""
  validateInput : ∀ moduleName className capability payload,
    (env.load moduleName className).outcome = .ok capability →
      (capability.validateInput payload).text = ""
  execute : ∀ moduleName className capability validated context,
    (env.load moduleName className).outcome = .ok capability →
      (capability.execute validated context).text = ""

/-- The worker reads a context as it was written. -/
def ReadsContext (env : WorkerEnv) : Prop :=
  ∀ context : CapabilityContext, env.validateContext context.modelDump = .ok context

variable {env} {importPath : String} {payload : Value} {context : CapabilityContext}

theorem Quiet.loadCapability (hquiet : env.Quiet) (importPath : String) :
    (env.loadCapability (.str importPath)).text = "" := by
  unfold WorkerEnv.loadCapability
  dsimp only
  split
  · rfl
  · exact hquiet.load _ _

/-- A capability that was loaded came from a class. -/
theorem load_of_loadCapability {capability : WorkerCapability}
    (hload : (env.loadCapability (.str importPath)).outcome = .ok capability) :
    ∃ moduleName className, (env.load moduleName className).outcome = .ok capability := by
  unfold WorkerEnv.loadCapability at hload
  dsimp only at hload
  split at hload
  · cases hload
  · exact ⟨_, _, hload⟩

/-- The worker runs the capability as it would run here, and then writes its
result. -/
theorem execution_eq (hquiet : env.Quiet) (hcontext : env.ReadsContext)
    {capability : WorkerCapability} (payload : Value) (context : CapabilityContext)
    (hload : (env.loadCapability (.str importPath)).outcome = .ok capability) :
    env.execution capability payload context.modelDump =
      .silent (performed capability payload context >>= fun result =>
        .ok (String.ofList (render .oneLine 0 (resultData result)))) := by
  obtain ⟨moduleName, className, hclass⟩ := load_of_loadCapability hload
  unfold WorkerEnv.execution performed
  rw [hcontext context, Printed.silent_ok_bind]
  simp only [bind_assoc]
  apply Printed.bind_eq_silent (hquiet.validateInput _ _ _ payload hclass)
  intro validated
  apply Printed.bind_eq_silent (hquiet.execute _ _ _ validated context hclass)
  intro result
  apply Printed.bind_eq_silent rfl
  intro output
  apply Printed.bind_eq_silent rfl
  intro metadata
  rw [dumps]
  unfold resultData
  dsimp only
  cases refusal (.dict [("output", output), ("metadata", .dict metadata)]) <;> rfl

/-- What the worker reads from the runner. -/
def stdinItems (importPath : String) (payload : Value) (context : CapabilityContext) : Dict :=
  [("import_path", .str importPath), ("payload", payload), ("context", context.modelDump)]

/-- The worker writes the result, or tells the exception. -/
def written : Except (WorkerStage × PyExc) CapabilityResult → Child
  | .ok result =>
      .exited 0 (String.ofList (render .oneLine 0 (resultData result))) env.stderr
  | .error (stage, e) => env.raised "" e (env.stageError stage e)

theorem main_eq (hquiet : env.Quiet) (hcontext : env.ReadsContext) {stdin : String}
    (hstdin : loads stdin = .ok (.dict (stdinItems importPath payload context))) :
    env.main stdin = env.written (env.direct importPath payload context) := by
  have hpath : ((stdinItems importPath payload context).lookup "import_path").getD (.str "") =
      .str importPath := rfl
  have hpayload : ((stdinItems importPath payload context).lookup "payload").getD (.dict []) =
      payload := rfl
  have hdata : ((stdinItems importPath payload context).lookup "context").getD (.dict []) =
      context.modelDump := rfl
  have htext := hquiet.loadCapability importPath
  unfold WorkerEnv.main direct
  rw [hstdin]
  dsimp only
  rw [hpath, hpayload, hdata, htext]
  cases hload : (env.loadCapability (.str importPath)).outcome with
  | error e => rfl
  | ok capability =>
      dsimp only
      rw [execution_eq hquiet hcontext payload context hload]
      cases performed capability payload context with
      | error e => rfl
      | ok result =>
          change env.exits 0 ("" ++ "" ++ _) = _
          rw [String.empty_append, String.empty_append]
          rfl

theorem stageError_faithful (stage : WorkerStage) (e : PyExc) (text : String) :
    Faithful (.dict (env.stageError stage e text)) := by
  cases stage <;> simp [stageError, loadError, executionError, Faithful, FaithfulItems]

theorem stageError_lookup (stage : WorkerStage) (e : PyExc) (text : String) :
    (env.stageError stage e text).lookup "error" = some (.str (stageMessage stage e text)) := by
  cases stage <;> rfl

end WorkerEnv

namespace SubprocessCapabilityRunner

open WorkerEnv

variable {p : Pydantic} {env : WorkerEnv} {importPath : String}
variable (runner : SubprocessCapabilityRunner)

theorem errorMessage_item {stdout message : String} {items : Dict} (returncode : Int)
    (hloads : loads stdout = .ok (.dict items))
    (hitem : items.lookup "error" = some (.str message)) :
    errorMessage returncode stdout = .ok message := by
  unfold errorMessage
  rw [bind_of_ok hloads]
  simp only [Value.getItem, hitem]
  rfl

theorem errorMessage_empty (returncode : Int) :
    errorMessage returncode "" = .ok (exitCode returncode) := by
  rfl

/-- The error of the runner tells what the worker has raised. -/
theorem readOutcome_raised (p : Pydantic) (importPath : String) (stage : WorkerStage)
    (e : PyExc) :
    ∃ returncode stdout, env.raised "" e (env.stageError stage e) =
        .exited returncode stdout env.stderr ∧
      runner.readOutcome p importPath returncode stdout env.stderr =
        .error (capabilityError ("Sandboxed capability '" ++ importPath ++
          env.complaint stage e ++ runner.stderrDetail env.stderr)) := by
  have hfailed {returncode : Int} {stdout message : String} (hcode : returncode ≠ 0)
      (hmessage : errorMessage returncode stdout = .ok message) :
      runner.readOutcome p importPath returncode stdout env.stderr =
        .error (capabilityError ("Sandboxed capability '" ++ importPath ++
          ("' failed: " ++ message) ++ runner.stderrDetail env.stderr)) := by
    rw [readOutcome, if_pos hcode, bind_of_ok hmessage, ← String.append_assoc]
  unfold raised complaint
  cases e.isException with
  | true =>
      rw [if_pos rfl, if_pos rfl]
      cases htext : e.text with
      | none => exact ⟨1, "", rfl, hfailed (by decide) (errorMessage_empty 1)⟩
      | some text =>
          obtain ⟨json, hjson, hread⟩ := loads_dumps .oneLine false
            (@stageError_faithful env stage e text)
          have hloads := hread "" (by simp)
          rw [String.append_empty] at hloads
          refine ⟨1, json, ?_, hfailed (by decide) ?_⟩
          · rw [Option.map_some, hjson]
            simp [exits]
          · exact errorMessage_item 1 hloads (stageError_lookup stage e text)
  | false =>
      rw [if_neg Bool.false_ne_true, if_neg Bool.false_ne_true]
      by_cases hstatus : env.exitStatus e = 0
      · rw [if_pos hstatus, hstatus]
        exact ⟨0, "", rfl, rfl⟩
      · rw [if_neg hstatus]
        exact ⟨_, "", rfl, hfailed hstatus (errorMessage_empty _)⟩

/-- A result that the worker has written is read as it was. -/
theorem readOutcome_result {p : Pydantic} (hp : p.DictOnly) (importPath stderr : String)
    {result : CapabilityResult} (hfaithful : Faithful (resultData result)) :
    runner.readOutcome p importPath 0 (String.ofList (render .oneLine 0 (resultData result)))
      stderr = .ok result := by
  obtain ⟨text, hdumps, hread⟩ := loads_dumps .oneLine false hfaithful
  obtain rfl : String.ofList (render .oneLine 0 (resultData result)) = text := by
    rw [dumps, refusal_eq_none hfaithful] at hdumps
    exact Except.ok.inj hdumps
  have hloads := hread "" (by simp)
  rw [String.append_empty] at hloads
  rw [readOutcome_of_loads p importPath runner stderr hloads]
  change readResult p importPath _ (resultData result) = _
  unfold resultData
  rw [readResult_dict]
  change (p.dict (.dict result.metadata)).map _ = _
  rw [hp.takes]
  rfl

/-- A capability in the sandbox returns what it would return here, and where it
would raise the runner raises its error that tells the exception. -/
theorem sandbox_transparent (runner : SubprocessCapabilityRunner) {p : Pydantic} (hp : p.DictOnly)
    {env : WorkerEnv} (hquiet : env.Quiet) (hcontext : env.ReadsContext) (importPath : String)
    {payload : SandboxPayload} {data : Value} (hdata : payload.data = .ok data)
    (hfaithful : Faithful data) (context : CapabilityContext) :
    (∀ result, env.direct importPath data context = .ok result → Faithful (resultData result) →
      runner.run p importPath payload context env.main = .ok result) ∧
    ∀ stage e, env.direct importPath data context = .error (stage, e) →
      runner.run p importPath payload context env.main =
        .error (capabilityError ("Sandboxed capability '" ++ importPath ++
          env.complaint stage e ++ runner.stderrDetail env.stderr)) := by
  have hwritten : Faithful (.dict (stdinItems importPath data context)) := by
    simp [stdinItems, Faithful, FaithfulItems, CapabilityContext.modelDump, hfaithful]
  obtain ⟨stdin, hdumps, hread⟩ := loads_dumps .oneLine false hwritten
  have hstdin : stdinData importPath payload context = .ok stdin := by
    rw [stdinData, bind_of_ok hdata]
    exact hdumps
  have hloads := hread "" (by simp)
  rw [String.append_empty] at hloads
  rw [run_eq hstdin, main_eq hquiet hcontext hloads]
  constructor
  · intro result hdirect hresult
    rw [hdirect]
    exact runner.readOutcome_result hp importPath env.stderr hresult
  · intro stage e hdirect
    obtain ⟨returncode, stdout, hraised, houtcome⟩ :=
      @readOutcome_raised env runner p importPath stage e
    rw [hdirect, written, hraised]
    exact houtcome

/-- `EchoCapability`, which returns the message that it is given. -/
def echoWorker : WorkerCapability where
  validateInput
    | .dict items =>
        match items.lookup "message" with
        | some (.str message) => .silent (.ok (.dict [("message", .str message)]))
        | _ => .silent (.error (.exception "ValidationError" "Field required"))
    | _ => .silent (.error (.exception "ValidationError" "Input should be a valid dictionary"))
  execute data context :=
    .silent (.ok ⟨.ok data, .ok [("task_id", .str context.taskId)]⟩)

/-- A child in which the built-in capability can be found. -/
def echoEnv : WorkerEnv where
  load moduleName className :=
    if moduleName = "engine.capabilities.echo" ∧ className = "EchoCapability" then
      .silent (.ok echoWorker)
    else .silent (.error (.exception "ModuleNotFoundError" ("No module named " ++ moduleName)))
  formatExc _ := "Traceback"
  exitStatus _ := 1
  validateContext
    | .dict [(_, .str taskId), (_, .str taskName), (_, .str workdir)] =>
        .ok ⟨taskId, taskName, workdir⟩
    | _ => .error (.exception "ValidationError" "Field required")
  stderr := ""

theorem echoEnv_load {moduleName className : String} {capability : WorkerCapability}
    (hload : (echoEnv.load moduleName className).outcome = .ok capability) :
    capability = echoWorker := by
  unfold echoEnv at hload
  dsimp only at hload
  split at hload
  · exact (Except.ok.inj hload).symm
  · cases hload

theorem echoEnv_quiet : echoEnv.Quiet where
  load moduleName className := by
    unfold echoEnv
    dsimp only
    split <;> rfl
  validateInput moduleName className capability payload hload := by
    rw [echoEnv_load hload]
    unfold echoWorker
    dsimp only
    split
    · split <;> rfl
    · rfl
  execute moduleName className capability validated context hload := by
    rw [echoEnv_load hload]
    rfl

/-- A message that is echoed, and one that is missing. -/
theorem echo_transparent :
    run {} plainPydantic "engine.capabilities.echo:EchoCapability"
        (.dict [("message", .str "hello")]) echoContext echoEnv.main =
      .ok ⟨.dict [("message", .str "hello")], [("task_id", .str "t1")]⟩ ∧
    run {} plainPydantic "engine.capabilities.echo:EchoCapability" (.dict []) echoContext
        echoEnv.main =
      .error (capabilityError ("Sandboxed capability '" ++
        "engine.capabilities.echo:EchoCapability" ++
        echoEnv.complaint .running (.exception "ValidationError" "Field required") ++
        stderrDetail {} "")) := by
  constructor
  · refine (sandbox_transparent {} plainPydantic_dictOnly echoEnv_quiet (fun _ => rfl) _ rfl ?_
      echoContext).1 _ rfl ?_
    · simp [Faithful, FaithfulItems]
    · simp [resultData, Faithful, FaithfulItems]
  · refine (sandbox_transparent {} plainPydantic_dictOnly echoEnv_quiet (fun _ => rfl) _ rfl ?_
      echoContext).2 _ _ rfl
    simp [Faithful, FaithfulItems]

end SubprocessCapabilityRunner

end Conductor
