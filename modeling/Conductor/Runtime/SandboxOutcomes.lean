/-
The outcomes of a run in a child process: which texts of the child make the
runner raise anything but its own error, and that a capability which raised
never gives a result.
-/
import Conductor.Python.JsonErrors
import Conductor.Runtime.Sandbox

namespace Conductor

/-- A field of type `dict[str, Any]` takes dicts only. -/
structure Pydantic.DictOnly (p : Pydantic) : Prop where
  takes : ∀ items, p.dict (.dict items) = .ok items
  refuses : ∀ value, (∀ items, value ≠ .dict items) →
    ∃ text, p.dict value = .error (.exception "ValidationError" text)

namespace SubprocessCapabilityRunner

/-- A result, or the error of the runner. -/
def Closed (outcome : Except PyExc CapabilityResult) : Prop :=
  ∀ e, outcome = .error e → e.typeName = errorName

theorem closed_ok (result : CapabilityResult) : Closed (.ok result) := by
  intro e he
  cases he

theorem closed_error {e : PyExc} : Closed (.error e) ↔ e.typeName = errorName := by
  constructor
  · exact fun hclosed => hclosed e rfl
  · intro hname e' he'
    cases he'
    exact hname

@[simp] theorem closed_capabilityError (text : String) : Closed (.error (capabilityError text)) :=
  closed_error.mpr rfl

/-- The metadata, if there are any, are a dict. -/
def MetadataFits (items : Dict) : Prop :=
  ∀ value, items.lookup "metadata" = some value → ∃ metadata, value = .dict metadata

/-- The child whose output the runner is made to read: it was too slow, or wrote
no JSON, or failed with any JSON, or wrote an object with an error or with
metadata as they should be. -/
inductive Decodes : Child → Prop
  | timedOut : Decodes .timedOut
  | garbled {returncode : Int} {stdout stderr : String} {e : PyExc}
      (hloads : Json.loads stdout = .error e) (hname : e.typeName = "JSONDecodeError") :
      Decodes (.exited returncode stdout stderr)
  | failed {returncode : Int} {stdout stderr : String} {value : Value}
      (hloads : Json.loads stdout = .ok value) (hcode : returncode ≠ 0) :
      Decodes (.exited returncode stdout stderr)
  | refused {returncode : Int} {stdout stderr : String} {items : Dict}
      (hloads : Json.loads stdout = .ok (.dict items)) (herror : "error" ∈ Assoc.keys items) :
      Decodes (.exited returncode stdout stderr)
  | answered {returncode : Int} {stdout stderr : String} {items : Dict}
      (hloads : Json.loads stdout = .ok (.dict items)) (hmetadata : MetadataFits items) :
      Decodes (.exited returncode stdout stderr)

/-- An object without an error, on stdout of a process that succeeded. -/
structure Answered (child : Child) (items : Dict) : Prop where
  exited : ∃ stdout stderr, child = .exited 0 stdout stderr ∧
    Json.loads stdout = .ok (.dict items)
  noError : "error" ∉ Assoc.keys items

variable {p : Pydantic} {importPath detail : String}

theorem readResult_dict (items : Dict) :
    readResult p importPath detail (.dict items) =
      match items.lookup "error" with
      | some error => .error (capabilityError
          ("Sandboxed capability '" ++ importPath ++ "' raised: " ++ error.text ++ detail))
      | none =>
          (p.dict ((items.lookup "metadata").getD (.dict []))).map
            (⟨(items.lookup "output").getD .none, ·⟩) := by
  unfold readResult
  simp only [Value.hasItem, Value.subscript, Value.getItem, Assoc.any_key]
  cases items.lookup "error" with
  | some error => rfl
  | none =>
      have hmap : ∀ (outcome : Except PyExc Dict) (output : Value),
          (outcome >>= fun metadata => Except.ok (⟨output, metadata⟩ : CapabilityResult)) =
            outcome.map (⟨output, ·⟩) := by
        intro outcome output
        cases outcome <;> rfl
      exact hmap _ _

theorem foreign_name {typeName text : String} (hname : typeName ≠ errorName) :
    (PyExc.exception typeName text).typeName ≠ errorName := hname

/-- JSON that is no object makes the runner raise an exception of Python. -/
theorem readResult_other (p : Pydantic) (importPath detail : String) {value : Value}
    (hvalue : ∀ items, value ≠ .dict items) :
    ∃ e, readResult p importPath detail value = .error e ∧ e.typeName ≠ errorName := by
  cases value with
  | dict items => exact absurd rfl (hvalue items)
  | list items =>
      cases hfound : items.any fun item => item.isStr "error" with
      | true =>
          refine ⟨.typeError "list indices must be integers or slices, not str", ?_, by decide⟩
          simp only [readResult, Value.hasItem, hfound]
          rfl
      | false =>
          refine ⟨.exception "AttributeError" (pyRepr "list" ++ " object has no attribute 'get'"),
            ?_, foreign_name (by decide)⟩
          simp only [readResult, Value.hasItem, hfound]
          rfl
  | str text =>
      cases hfound : occursIn "error".toList text.toList with
      | true =>
          refine ⟨.typeError "string indices must be integers, not 'str'", ?_, by decide⟩
          simp only [readResult, Value.hasItem, hfound]
          rfl
      | false =>
          refine ⟨.exception "AttributeError" (pyRepr "str" ++ " object has no attribute 'get'"),
            ?_, foreign_name (by decide)⟩
          simp only [readResult, Value.hasItem, hfound]
          rfl
  | _ => exact ⟨_, rfl, foreign_name (by decide)⟩

theorem readResult_closed (hp : p.DictOnly) (value : Value) :
    Closed (readResult p importPath detail value) ↔
      ∃ items, value = .dict items ∧ ("error" ∈ Assoc.keys items ∨ MetadataFits items) := by
  by_cases hdict : ∃ items, value = .dict items
  · obtain ⟨items, rfl⟩ := hdict
    have hsame : (∃ items', Value.dict items = .dict items' ∧
        ("error" ∈ Assoc.keys items' ∨ MetadataFits items')) ↔
        ("error" ∈ Assoc.keys items ∨ MetadataFits items) := by
      simp
    rw [hsame, readResult_dict]
    cases herror : items.lookup "error" with
    | some error =>
        have hmem := Assoc.mem_keys_of_mem (Assoc.mem_of_lookup herror)
        simp [hmem]
    | none =>
        have hkey := Assoc.lookup_eq_none_iff.mp herror
        rw [or_iff_right hkey]
        unfold MetadataFits
        cases hmetadata : items.lookup "metadata" with
        | none =>
            simp only [Option.getD_none, hp.takes]
            simp [Except.map, closed_ok]
        | some metadata =>
            by_cases hfits : ∃ d, metadata = .dict d
            · obtain ⟨d, rfl⟩ := hfits
              simp only [Option.getD_some, hp.takes]
              simp [Except.map, closed_ok]
            · obtain ⟨text, hrefused⟩ := hp.refuses metadata fun d hd => hfits ⟨d, hd⟩
              simp only [Option.getD_some, hrefused, Except.map, closed_error]
              constructor
              · exact fun hname => absurd hname (foreign_name (by decide))
              · exact fun hall => absurd (hall metadata rfl) hfits
  · obtain ⟨e, hresult, hname⟩ := readResult_other p importPath detail
      fun items hitems => hdict ⟨items, hitems⟩
    rw [hresult, closed_error]
    constructor
    · exact fun heq => absurd heq hname
    · intro ⟨items, hitems, _⟩
      exact absurd ⟨items, hitems⟩ hdict

theorem errorMessage_ok (returncode : Int) {stdout : String} {value : Value}
    (hloads : Json.loads stdout = .ok value) :
    ∃ message, errorMessage returncode stdout = .ok message := by
  unfold errorMessage
  rw [bind_of_ok hloads]
  cases value with
  | dict items => cases hitem : items.lookup "error" <;> simp [Value.getItem, hitem]
  | _ => simp [Value.getItem, PyExc.exception]

theorem errorMessage_error (returncode : Int) {stdout : String} {e : PyExc}
    (hloads : Json.loads stdout = .error e) :
    (e.typeName = "JSONDecodeError" ∧ ∃ message, errorMessage returncode stdout = .ok message) ∨
      e.typeName = "ValueError" ∧ errorMessage returncode stdout = .error e := by
  have hmessage : errorMessage returncode stdout =
      if e.typeName = "JSONDecodeError" ∨ e.typeName = "AttributeError" then
        .ok ("exit code " ++ toString returncode)
      else .error e := by
    unfold errorMessage
    rw [hloads]
    rfl
  rw [hmessage]
  rcases Json.loads_error hloads with hname | hname
  · exact .inl ⟨hname, _, if_pos (.inl hname)⟩
  · refine .inr ⟨hname, if_neg ?_⟩
    rw [hname]
    decide

section

variable (p : Pydantic) (importPath : String) (runner : SubprocessCapabilityRunner)
variable (returncode : Int) (stderr : String) {stdout : String}

theorem readOutcome_of_loads {value : Value} (hloads : Json.loads stdout = .ok value) :
    runner.readOutcome p importPath 0 stdout stderr =
      readResult p importPath (runner.stderrDetail stderr) value := by
  rw [readOutcome, if_neg (not_not_intro rfl), hloads]

/-- A child that failed ends in the error of the runner. -/
theorem readOutcome_failed {returncode : Int} (hcode : returncode ≠ 0) {value : Value}
    (hloads : Json.loads stdout = .ok value) :
    ∃ text, runner.readOutcome p importPath returncode stdout stderr =
      .error (capabilityError text) := by
  obtain ⟨message, hmessage⟩ := errorMessage_ok returncode hloads
  rw [readOutcome, if_pos hcode, bind_of_ok hmessage]
  exact ⟨_, rfl⟩

/-- What is no JSON ends in the error of the runner, unless the reader of JSON
raises an exception that is not about JSON. -/
theorem readOutcome_garbled {e : PyExc} (hloads : Json.loads stdout = .error e) :
    (e.typeName = "JSONDecodeError" ∧
      ∃ text, runner.readOutcome p importPath returncode stdout stderr =
        .error (capabilityError text)) ∨
    e.typeName = "ValueError" ∧
      runner.readOutcome p importPath returncode stdout stderr = .error e := by
  by_cases hcode : returncode = 0
  · subst hcode
    have houtcome : runner.readOutcome p importPath 0 stdout stderr =
        if e.typeName = "JSONDecodeError" then
          .error (capabilityError ("Sandboxed capability '" ++ importPath ++
            "' returned invalid JSON" ++ runner.stderrDetail stderr))
        else .error e := by
      rw [readOutcome, if_neg (not_not_intro rfl), hloads]
    rcases Json.loads_error hloads with hname | hname
    · exact .inl ⟨hname, _, houtcome.trans (if_pos hname)⟩
    · refine .inr ⟨hname, houtcome.trans (if_neg ?_)⟩
      rw [hname]
      decide
  · rw [readOutcome, if_pos hcode]
    rcases errorMessage_error returncode hloads with ⟨hname, message, hmessage⟩ |
      ⟨hname, hmessage⟩
    · exact .inl ⟨hname, _, bind_of_ok hmessage _⟩
    · refine .inr ⟨hname, ?_⟩
      rw [hmessage]
      rfl

end

variable {runner : SubprocessCapabilityRunner} {returncode : Int} {stdout stderr : String}

theorem readOutcome_closed (hp : p.DictOnly) :
    Closed (runner.readOutcome p importPath returncode stdout stderr) ↔
      Decodes (.exited returncode stdout stderr) := by
  cases hloads : Json.loads stdout with
  | error e =>
      have hdecodes : Decodes (.exited returncode stdout stderr) ↔
          e.typeName = "JSONDecodeError" := by
        constructor
        · intro hdecodes
          cases hdecodes with
          | garbled hloads' hname =>
              rw [hloads] at hloads'
              exact Except.error.inj hloads' ▸ hname
          | failed hloads' | refused hloads' | answered hloads' =>
              rw [hloads] at hloads'
              cases hloads'
        · exact fun hname => .garbled hloads hname
      rw [hdecodes]
      rcases readOutcome_garbled p importPath runner returncode stderr hloads with
        ⟨hname, text, hraised⟩ |
          ⟨hname, hraised⟩
      · simp [hraised, hname]
      · rw [hraised, closed_error, hname]
        decide
  | ok value =>
      by_cases hcode : returncode = 0
      · subst hcode
        rw [readOutcome_of_loads p importPath runner stderr hloads, readResult_closed hp]
        constructor
        · intro ⟨items, hitems, hfits⟩
          subst hitems
          rcases hfits with herror | hmetadata
          · exact .refused hloads herror
          · exact .answered hloads hmetadata
        · intro hdecodes
          cases hdecodes with
          | garbled hloads' _ =>
              rw [hloads] at hloads'
              cases hloads'
          | failed _ hcode => exact absurd rfl hcode
          | refused hloads' herror =>
              rw [hloads] at hloads'
              exact ⟨_, Except.ok.inj hloads', .inl herror⟩
          | answered hloads' hmetadata =>
              rw [hloads] at hloads'
              exact ⟨_, Except.ok.inj hloads', .inr hmetadata⟩
      · obtain ⟨text, hraised⟩ := readOutcome_failed p importPath runner stderr hcode hloads
        rw [hraised]
        exact iff_of_true (closed_capabilityError text) (.failed hloads hcode)

/-- Where a result comes from. -/
theorem readOutcome_ok (hp : p.DictOnly) {result : CapabilityResult}
    (hok : runner.readOutcome p importPath returncode stdout stderr = .ok result) :
    ∃ items, Answered (.exited returncode stdout stderr) items ∧
      result.output = (items.lookup "output").getD .none ∧
      (items.lookup "metadata").getD (.dict []) = .dict result.metadata := by
  have hnotRaised : ∀ {e}, runner.readOutcome p importPath returncode stdout stderr ≠ .error e := by
    intro e herror
    rw [hok] at herror
    cases herror
  cases hloads : Json.loads stdout with
  | error e =>
      rcases readOutcome_garbled p importPath runner returncode stderr hloads with
        ⟨-, text, hraised⟩ |
          ⟨-, hraised⟩ <;> exact absurd hraised hnotRaised
  | ok value =>
      by_cases hcode : returncode = 0
      · subst hcode
        rw [readOutcome_of_loads p importPath runner stderr hloads] at hok
        by_cases hdict : ∃ items, value = .dict items
        · obtain ⟨items, rfl⟩ := hdict
          rw [readResult_dict] at hok
          cases herror : items.lookup "error" with
          | some error =>
              simp only [herror] at hok
              cases hok
          | none =>
              simp only [herror] at hok
              by_cases hmetadata : ∃ d, (items.lookup "metadata").getD (.dict []) = .dict d
              · obtain ⟨d, hd⟩ := hmetadata
                rw [hd, hp.takes] at hok
                cases hok
                exact ⟨items, ⟨⟨_, _, rfl, hloads⟩, Assoc.lookup_eq_none_iff.mp herror⟩, rfl, hd⟩
              · obtain ⟨text, hrefused⟩ := hp.refuses _ fun d hd => hmetadata ⟨d, hd⟩
                rw [hrefused] at hok
                cases hok
        · obtain ⟨e, hraised, -⟩ := readResult_other p importPath (runner.stderrDetail stderr)
            fun items hitems => hdict ⟨items, hitems⟩
          rw [hraised] at hok
          cases hok
      · obtain ⟨text, hraised⟩ := readOutcome_failed p importPath runner stderr hcode hloads
        exact absurd hraised hnotRaised

theorem readOutcome_answered (importPath : String) (runner : SubprocessCapabilityRunner)
    (hp : p.DictOnly) {items : Dict}
    (hanswered : Answered (.exited returncode stdout stderr) items)
    (hmetadata : MetadataFits items) :
    ∃ result, runner.readOutcome p importPath returncode stdout stderr = .ok result := by
  obtain ⟨⟨stdout', stderr', hchild, hloads⟩, hkey⟩ := hanswered
  cases hchild
  rw [readOutcome_of_loads p importPath runner stderr hloads, readResult_dict,
    Assoc.lookup_eq_none_iff.mpr hkey]
  cases hitem : items.lookup "metadata" with
  | none =>
      simp only [Option.getD_none, hp.takes]
      exact ⟨_, rfl⟩
  | some value =>
      obtain ⟨metadata, rfl⟩ := hmetadata value hitem
      simp only [Option.getD_some, hp.takes]
      exact ⟨_, rfl⟩

theorem Decodes.metadataFits {items : Dict}
    (hanswered : Answered (.exited returncode stdout stderr) items)
    (hdecodes : Decodes (.exited returncode stdout stderr)) : MetadataFits items := by
  obtain ⟨⟨stdout', stderr', hchild, hloads⟩, hkey⟩ := hanswered
  cases hchild
  cases hdecodes with
  | garbled hloads' _ =>
      rw [hloads] at hloads'
      cases hloads'
  | failed _ hcode => exact absurd rfl hcode
  | refused hloads' herror =>
      rw [hloads] at hloads'
      cases hloads'
      exact absurd herror hkey
  | answered hloads' hmetadata =>
      rw [hloads] at hloads'
      cases hloads'
      exact hmetadata

/-- The outcome is the error of the runner. -/
def Failed (outcome : Except PyExc CapabilityResult) : Prop :=
  ∃ e, outcome = .error e ∧ e.typeName = errorName

theorem failed_iff {outcome : Except PyExc CapabilityResult} :
    Failed outcome ↔ Closed outcome ∧ ∀ result, outcome ≠ .ok result := by
  cases outcome with
  | ok result => simp [Failed]
  | error e => simp [Failed, closed_error]

end SubprocessCapabilityRunner

/-- The payload can be written as JSON. -/
def SandboxPayload.Serialisable (payload : SandboxPayload) : Prop :=
  ∃ value, payload.data = .ok value ∧ Json.refusal value = none

namespace SubprocessCapabilityRunner

variable {p : Pydantic} {importPath : String} {runner : SubprocessCapabilityRunner}
variable {payload : SandboxPayload} {context : CapabilityContext}

theorem stdinData_ok (importPath : String) (context : CapabilityContext)
    (hpayload : payload.Serialisable) :
    ∃ stdin, stdinData importPath payload context = .ok stdin := by
  obtain ⟨value, hdata, hvalue⟩ := hpayload
  rw [stdinData, bind_of_ok hdata, Json.dumps]
  have hnone : Json.refusal (.dict [("import_path", .str importPath), ("payload", value),
      ("context", context.modelDump)]) = none := by
    simp [Json.refusal, Json.refusalItems, hvalue, CapabilityContext.modelDump]
  rw [hnone]
  exact ⟨_, rfl⟩

variable {stdin : String} {child : String → Child}

theorem run_eq (hstdin : stdinData importPath payload context = .ok stdin) :
    runner.run p importPath payload context child =
      match child stdin with
      | .timedOut => .error (capabilityError ("Capability '" ++ importPath ++ "' exceeded " ++
          runner.timeoutSeconds.text ++ "s sandbox timeout"))
      | .exited returncode stdout stderr =>
          runner.readOutcome p importPath returncode stdout stderr := by
  unfold run
  apply (bind_of_ok hstdin _).trans
  cases child stdin <;> rfl

theorem run_closed (hp : p.DictOnly) (hstdin : stdinData importPath payload context = .ok stdin) :
    Closed (runner.run p importPath payload context child) ↔ Decodes (child stdin) := by
  rw [run_eq hstdin]
  cases child stdin with
  | timedOut => exact iff_of_true (closed_capabilityError _) .timedOut
  | exited returncode stdout stderr => exact readOutcome_closed hp

theorem run_ok (hp : p.DictOnly) (hstdin : stdinData importPath payload context = .ok stdin)
    {result : CapabilityResult} (hok : runner.run p importPath payload context child = .ok result) :
    ∃ items, Answered (child stdin) items ∧ result.output = (items.lookup "output").getD .none ∧
      (items.lookup "metadata").getD (.dict []) = .dict result.metadata := by
  rw [run_eq hstdin] at hok
  cases hchild : child stdin with
  | timedOut =>
      rw [hchild] at hok
      cases hok
  | exited returncode stdout stderr =>
      rw [hchild] at hok
      exact readOutcome_ok hp hok

/-- The error of the runner is the outcome of a child that is read and that has
not answered. -/
theorem run_failed (hp : p.DictOnly) (hstdin : stdinData importPath payload context = .ok stdin) :
    Failed (runner.run p importPath payload context child) ↔
      Decodes (child stdin) ∧ ¬ ∃ items, Answered (child stdin) items := by
  rw [failed_iff, run_closed hp hstdin]
  apply and_congr_right
  intro hdecodes
  constructor
  · intro hnot ⟨items, hanswered⟩
    rw [run_eq hstdin] at hnot
    cases hchild : child stdin with
    | timedOut =>
        rw [hchild] at hanswered
        obtain ⟨⟨_, _, heq, _⟩, _⟩ := hanswered
        cases heq
    | exited returncode stdout stderr =>
        rw [hchild] at hanswered hdecodes hnot
        obtain ⟨result, hresult⟩ :=
          readOutcome_answered importPath runner hp hanswered (hdecodes.metadataFits hanswered)
        exact hnot result hresult
  · intro hnot result hok
    obtain ⟨items, hanswered, -⟩ := run_ok hp hstdin hok
    exact hnot ⟨items, hanswered⟩

end SubprocessCapabilityRunner

namespace WorkerEnv

open SubprocessCapabilityRunner

/-- The capability raised this exception, after it had printed this text: when
its class was loaded, or from the validation of its input on. -/
inductive Raises (env : WorkerEnv) (stdin : String) : String → PyExc → Prop
  | load {data : Dict} {e : PyExc} (hdata : Json.loads stdin = .ok (.dict data))
      (hload : (env.loadCapability ((data.lookup "import_path").getD (.str ""))).outcome =
        .error e) :
      Raises env stdin (env.loadCapability ((data.lookup "import_path").getD (.str ""))).text e
  | execution {data : Dict} {capability : WorkerCapability} {e : PyExc}
      (hdata : Json.loads stdin = .ok (.dict data))
      (hload : (env.loadCapability ((data.lookup "import_path").getD (.str ""))).outcome =
        .ok capability)
      (hran : (env.execution capability ((data.lookup "payload").getD (.dict []))
        ((data.lookup "context").getD (.dict []))).outcome = .error e) :
      Raises env stdin
        ((env.loadCapability ((data.lookup "import_path").getD (.str ""))).text ++
          (env.execution capability ((data.lookup "payload").getD (.dict []))
            ((data.lookup "context").getD (.dict []))).text) e

variable {env : WorkerEnv} {stdin printed : String} {e : PyExc}

theorem Raises.main (hraises : env.Raises stdin printed e) :
    ∃ items, env.main stdin = env.raised printed e items ∧
      ∀ text, Json.Faithful (.dict (items text)) := by
  cases hraises with
  | load hdata hload =>
      refine ⟨loadError, ?_, fun text => ?_⟩
      · simp only [WorkerEnv.main, hdata, hload]
      · simp [loadError, Json.Faithful, Json.FaithfulItems]
  | execution hdata hload hran =>
      refine ⟨env.executionError e, ?_, fun text => ?_⟩
      · simp only [WorkerEnv.main, hdata, hload, hran]
      · simp [executionError, Json.Faithful, Json.FaithfulItems]

/-- A process whose code raised an `Exception` exits with status 1. -/
theorem raised_exception (env : WorkerEnv) (printed : String) (hexception : e.isException = true)
    (items : String → Dict) :
    ∃ stdout, env.raised printed e items = .exited 1 stdout env.stderr := by
  unfold raised
  rw [if_pos hexception]
  split <;> exact ⟨_, rfl⟩

theorem raised_silent (hexception : e.isException = true) {items : String → Dict}
    (hitems : ∀ text, Json.Faithful (.dict (items text))) :
    Decodes (env.raised "" e items) := by
  have hempty : Decodes (env.exits 1 "") := by
    have hloads : Json.loads "" = .error Json.decodeError := by rfl
    exact .garbled hloads rfl
  unfold raised
  rw [if_pos hexception]
  cases e.text with
  | none => exact hempty
  | some text =>
      obtain ⟨json, hjson, hread⟩ := Json.loads_dumps .oneLine false (hitems text)
      have hloads := hread "" (by simp)
      rw [String.append_empty] at hloads
      rw [Option.map_some, hjson]
      simp only [String.empty_append]
      exact .failed hloads (by decide)

/-- An exception that is no `Exception` may end the process with status 0. -/
theorem raised_answered {items : String → Dict} {answer : Dict} :
    Answered (env.raised printed e items) answer ↔
      e.isException = false ∧ env.exitStatus e = 0 ∧ Answered (env.exits 0 printed) answer := by
  cases hexception : e.isException with
  | true =>
      obtain ⟨stdout, hraised⟩ := raised_exception env printed hexception items
      have hnot : ¬ Answered (env.raised printed e items) answer := by
        rw [hraised]
        intro ⟨⟨stdout', stderr', hchild, _⟩, _⟩
        cases hchild
      simp [hnot]
  | false =>
      have hraised : env.raised printed e items = env.exits (env.exitStatus e) printed := by
        simp [raised, hexception]
      rw [hraised]
      constructor
      · intro hanswered
        obtain ⟨stdout, stderr, hchild, -⟩ := hanswered.exited
        have hstatus : env.exitStatus e = 0 := (Child.exited.inj hchild).1
        exact ⟨rfl, hstatus, hstatus ▸ hanswered⟩
      · intro ⟨_, hstatus, hanswered⟩
        rw [hstatus]
        exact hanswered

end WorkerEnv

namespace SubprocessCapabilityRunner

/-- A run returns a result or raises the error of the runner if and only if the
child can be read, and a result is always that of a child that answered.  A
worker whose capability raised makes it raise if and only if the worker can be
read and the exception has not ended it like a success; a capability that prints
nothing and raises an `Exception` always does. -/
theorem run_outcomes_iff (runner : SubprocessCapabilityRunner) {p : Pydantic} (hp : p.DictOnly)
    (importPath : String) {payload : SandboxPayload} (hpayload : payload.Serialisable)
    (context : CapabilityContext) :
    ∃ stdin, stdinData importPath payload context = .ok stdin ∧
      (∀ child, (Closed (runner.run p importPath payload context child) ↔ Decodes (child stdin)) ∧
        ∀ result, runner.run p importPath payload context child = .ok result →
          ∃ items, Answered (child stdin) items ∧
            result.output = (items.lookup "output").getD .none ∧
            (items.lookup "metadata").getD (.dict []) = .dict result.metadata) ∧
      ∀ (env : WorkerEnv) printed e, env.Raises stdin printed e →
        (Failed (runner.run p importPath payload context env.main) ↔
          Decodes (env.main stdin) ∧
            ¬ (e.isException = false ∧ env.exitStatus e = 0 ∧
              ∃ items, Answered (env.exits 0 printed) items)) ∧
        (printed = "" → e.isException = true →
          Failed (runner.run p importPath payload context env.main)) := by
  obtain ⟨stdin, hstdin⟩ := stdinData_ok importPath context hpayload
  refine ⟨stdin, hstdin, ?_, ?_⟩
  · intro child
    exact ⟨run_closed hp hstdin, fun result hok => run_ok hp hstdin hok⟩
  · intro env printed e hraises
    obtain ⟨items, hmain, hitems⟩ := hraises.main
    have hfailed : Failed (runner.run p importPath payload context env.main) ↔
        Decodes (env.main stdin) ∧
          ¬ (e.isException = false ∧ env.exitStatus e = 0 ∧
            ∃ items, Answered (env.exits 0 printed) items) := by
      rw [run_failed hp hstdin, hmain]
      simp only [WorkerEnv.raised_answered, exists_and_left]
    refine ⟨hfailed, fun hprinted hexception => hfailed.mpr ⟨?_, ?_⟩⟩
    · subst hprinted
      rw [hmain]
      exact WorkerEnv.raised_silent hexception hitems
    · intro ⟨hnot, _⟩
      rw [hexception] at hnot
      cases hnot

/-- A pydantic whose dict fields take dicts only. -/
def plainPydantic : Pydantic :=
  { Pydantic.strict with
    dict := fun
      | .dict items => .ok items
      | _ => .error (.exception "ValidationError" "Input should be a valid dictionary") }

theorem plainPydantic_dictOnly : plainPydantic.DictOnly where
  takes items := rfl
  refuses value hvalue := by
    cases value with
    | dict items => exact absurd rfl (hvalue items)
    | _ => exact ⟨_, rfl⟩

def echoContext : CapabilityContext := ⟨"t1", "echo", "/tmp"⟩

theorem dict_serialisable : (SandboxPayload.dict []).Serialisable := ⟨_, rfl, rfl⟩

theorem run_outcomes_iff_timedOut :
    ∃ stdin, stdinData "engine.capabilities.echo:EchoCapability" (.dict []) echoContext =
        .ok stdin ∧
      Closed (run {} plainPydantic "engine.capabilities.echo:EchoCapability" (.dict []) echoContext
        fun _ => .timedOut) := by
  obtain ⟨stdin, hstdin, hchild, -⟩ := run_outcomes_iff {} plainPydantic_dictOnly
    "engine.capabilities.echo:EchoCapability" dict_serialisable echoContext
  exact ⟨stdin, hstdin, (hchild fun _ => .timedOut).1.mpr .timedOut⟩

/-- A child that exits well after it has written an empty list. -/
theorem run_raises_attributeError :
    run {} plainPydantic "engine.capabilities.echo:EchoCapability" (.dict []) echoContext
      (fun _ => .exited 0 "[]" "") =
        .error (.exception "AttributeError" "'list' object has no attribute 'get'") := by
  rfl

end SubprocessCapabilityRunner

end Conductor
