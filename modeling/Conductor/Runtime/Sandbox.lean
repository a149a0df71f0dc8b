/-
Capabilities that run in a child process: the runner, which may be answered by
anything at all, and the worker, which is what the child is meant to run.
-/
import Conductor.Interfaces
import Conductor.Python.Access
import Conductor.Python.JsonRoundTrip
import Conductor.Python.Pydantic
import Conductor.Python.Text

namespace Conductor

/-- What became of the child process. -/
inductive Child where
  | timedOut
  | exited (returncode : Int) (stdout stderr : String)

/-- A dict, or a model by what it dumps to in JSON mode. -/
inductive SandboxPayload where
  | dict (items : Dict)
  | model (modelDump : Except PyExc Value)

def SandboxPayload.data : SandboxPayload → Except PyExc Value
  | dict items => .ok (.dict items)
  | model modelDump => modelDump

def CapabilityContext.modelDump (context : CapabilityContext) : Value :=
  .dict [("task_id", .str context.taskId), ("task_name", .str context.taskName),
    ("workdir", .str context.workdir)]

structure SubprocessCapabilityRunner where
  timeoutSeconds : Value := .float "30.0"
  captureStderr : Bool := false

namespace SubprocessCapabilityRunner

def errorName : String := "SubprocessCapabilityError"

def capabilityError (text : String) : PyExc := .exception errorName text

variable (runner : SubprocessCapabilityRunner)

/-- What is written to the child. -/
def stdinData (importPath : String) (payload : SandboxPayload) (context : CapabilityContext) :
    Except PyExc String := do
  let payloadData ← payload.data
  Json.dumps .oneLine false (.dict [("import_path", .str importPath), ("payload", payloadData),
    ("context", context.modelDump)])

def stderrDetail (stderr : String) : String :=
  let text := String.ofList (stripped stderr.toList)
  if runner.captureStderr && text != "" then "\nstderr: " ++ text else ""

/-- The message of a child that failed, which need not have written one. -/
def errorMessage (returncode : Int) (stdout : String) : Except PyExc String :=
  let exitCode := "exit code " ++ toString returncode
  match Json.loads stdout >>= fun errorPayload => errorPayload.getItem "error" with
  | .ok (some message) => .ok message.text
  | .ok none => .ok exitCode
  | .error e =>
      if e.typeName = "JSONDecodeError" ∨ e.typeName = "AttributeError" then .ok exitCode
      else .error e

/-- The result that a child has written, which should be an object. -/
def readResult (p : Pydantic) (importPath detail : String) (resultData : Value) :
    Except PyExc CapabilityResult := do
  let failed ← resultData.hasItem "error"
  if failed then
    let error ← resultData.subscript "error"
    .error (capabilityError
      ("Sandboxed capability '" ++ importPath ++ "' raised: " ++ error.text ++ detail))
  else
    let output ← resultData.getItem "output"
    let metadata ← resultData.getItem "metadata"
    let metadata ← p.dict (metadata.getD (.dict []))
    .ok ⟨output.getD .none, metadata⟩

/-- What the runner makes of a child that has exited. -/
def readOutcome (p : Pydantic) (importPath : String) (returncode : Int) (stdout stderr : String) :
    Except PyExc CapabilityResult :=
  let detail := runner.stderrDetail stderr
  if returncode ≠ 0 then do
    let message ← errorMessage returncode stdout
    .error (capabilityError
      ("Sandboxed capability '" ++ importPath ++ "' failed: " ++ message ++ detail))
  else
    match Json.loads stdout with
    | .error e =>
        if e.typeName = "JSONDecodeError" then
          .error (capabilityError
            ("Sandboxed capability '" ++ importPath ++ "' returned invalid JSON" ++ detail))
        else .error e
    | .ok resultData => readResult p importPath detail resultData

/-- Run the capability in a child, which is known by what becomes of it on what
is written to it. -/
def run (p : Pydantic) (importPath : String) (payload : SandboxPayload)
    (context : CapabilityContext) (child : String → Child) : Except PyExc CapabilityResult := do
  let stdin ← stdinData importPath payload context
  match child stdin with
  | .timedOut =>
      .error (capabilityError ("Capability '" ++ importPath ++ "' exceeded " ++
        runner.timeoutSeconds.text ++ "s sandbox timeout"))
  | .exited returncode stdout stderr => runner.readOutcome p importPath returncode stdout stderr

end SubprocessCapabilityRunner

/-- What a piece of foreign code writes to stdout, and how it ends. -/
structure Printed (α : Type) where
  text : String
  outcome : Except PyExc α

namespace Printed

instance : Monad Printed where
  pure value := ⟨"", .ok value⟩
  bind m f :=
    match m.outcome with
    | .error e => ⟨m.text, .error e⟩
    | .ok value => ⟨m.text ++ (f value).text, (f value).outcome⟩

/-- A step that prints nothing. -/
def silent {α : Type} (outcome : Except PyExc α) : Printed α := ⟨"", outcome⟩

end Printed

/-- What `execute` returned, by what its output dumps to and by the dict that is
made of its metadata. -/
structure WorkerResult where
  output : Except PyExc Value
  metadata : Except PyExc Dict

structure WorkerCapability where
  validateInput : Value → Printed Value
  execute : Value → CapabilityContext → Printed WorkerResult

/-- The foreign code in the child: the import of a class and its instance, the
traceback of an exception, and the status of a process that an exception ends. -/
structure WorkerEnv where
  load : String → String → Printed WorkerCapability
  formatExc : PyExc → String
  exitStatus : PyExc → Int
  validateContext : Value → Except PyExc CapabilityContext
  stderr : String

namespace WorkerEnv

variable (env : WorkerEnv)

/-- `import_path.partition(":")`, without the colon. -/
def partition (importPath : String) : String × String :=
  let cs := importPath.toList
  (String.ofList (cs.takeWhile (· ≠ ':')), String.ofList ((cs.dropWhile (· ≠ ':')).drop 1))

/-- The capability of an import path. -/
def loadCapability (importPath : Value) : Printed WorkerCapability :=
  match importPath with
  | .str importPath =>
      let (moduleName, className) := partition importPath
      if moduleName = "" ∨ className = "" then
        .silent (.error (.valueError ("Invalid import_path: " ++ pyRepr importPath)))
      else env.load moduleName className
  | value => .silent (.error (.exception "AttributeError"
      (pyRepr value.typeName ++ " object has no attribute 'partition'")))

/-- Run the capability; the text of its result is what is written last. -/
def execution (capability : WorkerCapability) (payload contextData : Value) : Printed String := do
  let context ← .silent (env.validateContext contextData)
  let validated ← capability.validateInput payload
  let result ← capability.execute validated context
  let output ← .silent result.output
  let metadata ← .silent result.metadata
  .silent (Json.dumps .oneLine false (.dict [("output", output), ("metadata", .dict metadata)]))

/-- Exit with this status after what was printed. -/
def exits (status : Int) (printed : String) : Child := .exited status printed env.stderr

/-- The end of a process whose code raised: the handler for `Exception` writes
the items made of the text of the exception, unless there is no such text. -/
def raised (printed : String) (e : PyExc) (items : String → Dict) : Child :=
  if e.isException then
    match e.text.map fun text => Json.dumps .oneLine false (.dict (items text)) with
    | some (.ok text) => env.exits 1 (printed ++ text)
    | _ => env.exits 1 printed
  else env.exits (env.exitStatus e) printed

def loadError (text : String) : Dict := [("error", .str ("capability load error: " ++ text))]

def executionError (e : PyExc) (text : String) : Dict :=
  [("error", .str (e.typeName ++ ": " ++ text)), ("traceback", .str (env.formatExc e))]

/-- The worker on what it reads from stdin. -/
def main (stdin : String) : Child :=
  match Json.loads stdin with
  | .error e => env.raised "" e fun text => [("error", .str ("stdin parse error: " ++ text))]
  | .ok (.dict data) =>
      let loaded := env.loadCapability ((data.lookup "import_path").getD (.str ""))
      match loaded.outcome with
      | .error e => env.raised loaded.text e loadError
      | .ok capability =>
          let ran := env.execution capability ((data.lookup "payload").getD (.dict []))
            ((data.lookup "context").getD (.dict []))
          match ran.outcome with
          | .error e => env.raised (loaded.text ++ ran.text) e (env.executionError e)
          | .ok text => env.exits 0 (loaded.text ++ ran.text ++ text)
  | .ok _ => env.exits 1 ""

end WorkerEnv

end Conductor
