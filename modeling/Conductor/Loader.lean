/-
Loading capabilities from a YAML definition file.  The file is given as parsed;
modules, constructors and the validation of execution controls lie outside and
answer as they like.
-/
import Conductor.Supervisor.Service

namespace Conductor

/-- How an object answers `capability.descriptor`: with one stored descriptor,
or with a descriptor that a property builds on each access, perhaps depending
on the calls made before. -/
inductive DescriptorAttribute where
  | stored (descriptor : CapabilityDescriptor)
  | built (build : Trace → Except PyExc CapabilityDescriptor)

namespace DescriptorAttribute

/-- `capability.descriptor`, after these calls. -/
def get (h : Trace) : DescriptorAttribute → Except PyExc CapabilityDescriptor
  | stored descriptor => .ok descriptor
  | built build => build h

/-- `capability.descriptor.require_approval = True`.  Of a descriptor built for
this access only the building is left. -/
def setRequireApproval : DescriptorAttribute → Except PyExc DescriptorAttribute
  | stored descriptor => .ok (stored { descriptor with requireApproval := true })
  | built build => (build []).map fun _ => built build

end DescriptorAttribute

def echoDescriptor : CapabilityDescriptor :=
  ⟨"echo", "Return the provided message unchanged.", .low, ["testing", "utility"], false⟩

def filesystemDescriptor : CapabilityDescriptor :=
  ⟨"filesystem", "Read, write, and list files under a configured root path.", .medium,
    ["io", "local"], false⟩

def httpDescriptor : CapabilityDescriptor :=
  ⟨"http", "Perform simple HTTP GET or POST requests.", .medium, ["network", "api"], false⟩

/-- The registered capability objects and the controls configured for them. -/
structure LoadedRegistry where
  capabilities : List (String × DescriptorAttribute)
  executionControls : List (String × CapabilityExecutionControls)

namespace LoadedRegistry

def empty : LoadedRegistry := ⟨[], []⟩

def names (registry : LoadedRegistry) : List String := registry.capabilities.map (·.1)

/-- Register a capability object under the name its descriptor gives. -/
def register (registry : LoadedRegistry) (capability : DescriptorAttribute)
    (controls : Option CapabilityExecutionControls) : Except PyExc LoadedRegistry := do
  let descriptor ← capability.get []
  if descriptor.name ∈ registry.names then
    .error (.valueError ("Capability '" ++ descriptor.name ++ "' is already registered"))
  else
    pure ⟨registry.capabilities ++ [(descriptor.name, capability)],
      match controls with
      | some controls => (descriptor.name, controls) :: registry.executionControls
      | none => registry.executionControls⟩

def setExecutionControls (registry : LoadedRegistry) (name : String)
    (controls : CapabilityExecutionControls) : Except PyExc LoadedRegistry :=
  if name ∈ registry.names then
    .ok { registry with executionControls := (name, controls) :: registry.executionControls }
  else .error (.valueError (CapabilityRegistry.notRegistered name))

/-- The registry as the supervisor sees it. -/
def toRegistry (registry : LoadedRegistry) : CapabilityRegistry :=
  ⟨registry.names, registry.executionControls⟩

end LoadedRegistry

/-- The collaborators, with the descriptors of the registered capabilities. -/
def Env.withCapabilities (env : Env) (registry : LoadedRegistry) : Env :=
  { env with
    descriptor := fun h name =>
      match registry.capabilities.lookup name with
      | some capability => capability.get h
      | none => env.descriptor h name }

/-- One entry of `capabilities`; `requireApproval` is the truth value of what
stands under that key. -/
structure CapabilityEntry where
  importPath : String
  config : Dict
  execution : Option Value
  requireApproval : Bool

structure CapabilitiesFile where
  includeBuiltins : Bool
  capabilities : List CapabilityEntry
  executionControls : List (String × Value)

/-- A capability class: what its constructor makes of a configuration. -/
abbrev CapabilityClass := Dict → Except PyExc DescriptorAttribute

/-- What the loader finds outside.  `importAttribute` imports a module and reads
an attribute of it, which may be no capability class; `resolveBasePath` resolves
a base path against the folder of the file. -/
structure LoaderEnv where
  importAttribute : String → String → Except PyExc (Option CapabilityClass)
  resolveBasePath : Value → Except PyExc String
  validateControls : Value → Except PyExc CapabilityExecutionControls

/-- `import_path.partition(":")`, without the separator. -/
def partitionColon (importPath : String) : String × String :=
  let parts := importPath.toList.span (· ≠ ':')
  (String.ofList parts.1, String.ofList (parts.2.drop 1))

def importObject (py : LoaderEnv) (importPath : String) : Except PyExc CapabilityClass :=
  let parts := partitionColon importPath
  if parts.1.isEmpty || parts.2.isEmpty then
    .error (.valueError ("Invalid import path '" ++ importPath ++
      "'. Expected format 'package.module:ClassName'"))
  else
    match py.importAttribute parts.1 parts.2 with
    | .error e => .error e
    | .ok none => .error (.valueError ("Imported object '" ++ importPath ++
        "' is not a Capability subclass"))
    | .ok (some capabilityClass) => .ok capabilityClass

/-- The configuration with its base path resolved. -/
def resolvedConfig (py : LoaderEnv) (config : Dict) : Except PyExc Dict :=
  match config.lookup "base_path" with
  | none => .ok config
  | some basePath =>
      (py.resolveBasePath basePath).map fun path => Dict.insert "base_path" (.str path) config

def loadBuiltinCapabilities : Except PyExc LoadedRegistry := do
  let registry ← LoadedRegistry.empty.register (.built fun _ => .ok echoDescriptor) none
  let registry ← registry.register (.built fun _ => .ok filesystemDescriptor) none
  registry.register (.built fun _ => .ok httpDescriptor) none

/-- The capability object of an entry, before its flags are applied. -/
def instantiate (py : LoaderEnv) (entry : CapabilityEntry) :
    Except PyExc (DescriptorAttribute × Option CapabilityExecutionControls) := do
  let config ← resolvedConfig py entry.config
  let capabilityClass ← importObject py entry.importPath
  let controls ← match entry.execution with
    | none => pure none
    | some execution => (py.validateControls execution).map some
  let capability ← capabilityClass config
  pure (capability, controls)

/-- Allow YAML to set require_approval on the descriptor at load time. -/
def flagged (entry : CapabilityEntry) (capability : DescriptorAttribute) :
    Except PyExc DescriptorAttribute :=
  if entry.requireApproval then capability.setRequireApproval else .ok capability

/-- One round of the loop over the entries. -/
def loadEntry (py : LoaderEnv) (registry : LoadedRegistry) (entry : CapabilityEntry) :
    Except PyExc LoadedRegistry := do
  let made ← instantiate py entry
  let capability ← flagged entry made.1
  registry.register capability made.2

/-- The registry that the entries are added to. -/
def initialRegistry (file : CapabilitiesFile) : Except PyExc LoadedRegistry :=
  if file.includeBuiltins then loadBuiltinCapabilities else .ok .empty

def loadCapabilitiesFromFile (py : LoaderEnv) (file : CapabilitiesFile) :
    Except PyExc LoadedRegistry := do
  let registry ← initialRegistry file
  let registry ← file.capabilities.foldlM (loadEntry py) registry
  file.executionControls.foldlM (fun registry item => do
    let controls ← py.validateControls item.2
    registry.setExecutionControls item.1 controls) registry

/-- What every step of a loop preserves, and what one of them establishes, holds
after the loop. -/
theorem Except.foldlM_ok {ε α β : Type} {step : β → α → Except ε β} {R : β → β → Prop}
    (hrefl : ∀ b, R b b) (htrans : ∀ b b' b'', R b b' → R b' b'' → R b b'')
    (hstep : ∀ b a b', step b a = .ok b' → R b b') {items : List α} {b b' : β}
    (h : items.foldlM step b = .ok b') :
    R b b' ∧ ∀ a ∈ items, ∃ before after, step before a = .ok after ∧ R after b' := by
  induction items generalizing b with
  | nil =>
      cases h
      exact ⟨hrefl _, nofun⟩
  | cons item items ih =>
      rw [List.foldlM_cons] at h
      obtain ⟨middle, hfirst, hrest⟩ := ok_of_bind h
      obtain ⟨hlater, hall⟩ := ih hrest
      refine ⟨htrans _ _ _ (hstep b item middle hfirst) hlater, ?_⟩
      intro a ha
      rcases List.mem_cons.mp ha with rfl | ha
      · exact ⟨b, middle, hfirst, hlater⟩
      · exact hall a ha

namespace LoadedRegistry

/-- A later registry of the same loading. -/
def Grows (registry later : LoadedRegistry) : Prop :=
  ∀ name capability, registry.capabilities.lookup name = some capability →
    later.capabilities.lookup name = some capability

theorem Grows.refl (registry : LoadedRegistry) : registry.Grows registry := fun _ _ h => h

theorem Grows.trans {first second third : LoadedRegistry} (hfirst : first.Grows second)
    (hsecond : second.Grows third) : first.Grows third :=
  fun name capability h => hsecond name capability (hfirst name capability h)

theorem lookup_eq_none {registry : LoadedRegistry} {name : String}
    (hname : name ∉ registry.names) : registry.capabilities.lookup name = none := by
  rw [List.lookup_eq_none_iff]
  intro item hitem
  rw [bne_iff_ne]
  rintro rfl
  exact hname (List.mem_map_of_mem hitem)

/-- A registration files the object under its name and hides no other. -/
theorem register_ok {registry later : LoadedRegistry} {capability : DescriptorAttribute}
    {controls : Option CapabilityExecutionControls}
    (h : registry.register capability controls = .ok later) :
    ∃ descriptor, capability.get [] = .ok descriptor ∧
      later.capabilities.lookup descriptor.name = some capability ∧ registry.Grows later := by
  obtain ⟨descriptor, hdescriptor, h⟩ := Except.ok_of_bind h
  refine ⟨descriptor, hdescriptor, ?_⟩
  split at h
  · cases h
  · rename_i hname
    cases h
    refine ⟨?_, ?_⟩
    · simp [List.lookup_append, lookup_eq_none hname]
    · intro name found hfound
      simp [List.lookup_append, hfound]

theorem setExecutionControls_grows {registry later : LoadedRegistry} {name : String}
    {controls : CapabilityExecutionControls}
    (h : registry.setExecutionControls name controls = .ok later) : registry.Grows later := by
  unfold setExecutionControls at h
  split at h
  · cases h
    exact .refl _
  · cases h

end LoadedRegistry

variable {py : LoaderEnv}

theorem importObject_ok {importPath moduleName className : String}
    {capabilityClass : CapabilityClass}
    (hpath : partitionColon importPath = (moduleName, className))
    (hmodule : moduleName.isEmpty = false) (hclass : className.isEmpty = false)
    (himport : py.importAttribute moduleName className = .ok (some capabilityClass)) :
    importObject py importPath = .ok capabilityClass := by
  unfold importObject
  simp only [hpath, hmodule, hclass, himport, Bool.or_false, Bool.false_eq_true, if_false]

/-- An entry without execution controls whose class constructs an object. -/
theorem instantiate_ok {entry : CapabilityEntry} {config : Dict}
    {capabilityClass : CapabilityClass} {capability : DescriptorAttribute}
    (hconfig : resolvedConfig py entry.config = .ok config)
    (hclass : importObject py entry.importPath = .ok capabilityClass)
    (hcontrols : entry.execution = none) (hconstruct : capabilityClass config = .ok capability) :
    instantiate py entry = .ok (capability, none) := by
  unfold instantiate
  rw [hcontrols, bind_of_ok hconfig, bind_of_ok hclass]
  exact bind_of_ok hconstruct _

theorem loadEntry_ok {registry later : LoadedRegistry} {entry : CapabilityEntry}
    (h : loadEntry py registry entry = .ok later) :
    ∃ capability controls registered descriptor, instantiate py entry = .ok (capability, controls) ∧
      flagged entry capability = .ok registered ∧ registered.get [] = .ok descriptor ∧
        later.capabilities.lookup descriptor.name = some registered ∧ registry.Grows later := by
  obtain ⟨⟨capability, controls⟩, hinstance, h⟩ := Except.ok_of_bind h
  obtain ⟨registered, hflagged, h⟩ := Except.ok_of_bind h
  obtain ⟨descriptor, hdescriptor, hlookup, hgrows⟩ := LoadedRegistry.register_ok h
  exact ⟨capability, controls, registered, descriptor, hinstance, hflagged, hdescriptor, hlookup,
    hgrows⟩

/-- After a file is loaded, the object of each of its entries is registered
under the name its descriptor gives. -/
theorem loadCapabilitiesFromFile_ok {file : CapabilitiesFile} {registry : LoadedRegistry}
    (hload : loadCapabilitiesFromFile py file = .ok registry) {entry : CapabilityEntry}
    (hentry : entry ∈ file.capabilities) :
    ∃ capability controls registered descriptor, instantiate py entry = .ok (capability, controls) ∧
      flagged entry capability = .ok registered ∧ registered.get [] = .ok descriptor ∧
        registry.capabilities.lookup descriptor.name = some registered := by
  obtain ⟨initial, -, h⟩ := Except.ok_of_bind hload
  obtain ⟨loaded, hloaded, hcontrols⟩ := Except.ok_of_bind h
  have hfinal : loaded.Grows registry := by
    refine (Except.foldlM_ok LoadedRegistry.Grows.refl (fun _ _ _ => .trans) ?_ hcontrols).1
    intro before item after hstep
    obtain ⟨controls, -, hset⟩ := Except.ok_of_bind hstep
    exact LoadedRegistry.setExecutionControls_grows hset
  obtain ⟨-, hall⟩ := Except.foldlM_ok LoadedRegistry.Grows.refl (fun _ _ _ => .trans)
    (fun before entry after hstep => (loadEntry_ok hstep).elim fun _ ⟨_, _, _, _, _, _, _, h⟩ => h)
    hloaded
  obtain ⟨before, after, hstep, hlater⟩ := hall entry hentry
  obtain ⟨capability, controls, registered, descriptor, hinstance, hflagged, hdescriptor,
    hlookup, -⟩ := loadEntry_ok hstep
  exact ⟨capability, controls, registered, descriptor, hinstance, hflagged, hdescriptor,
    hfinal _ _ (hlater _ _ hlookup)⟩

end Conductor
