/-
The confinement of the filesystem capability to its root: which requests pass
the guardrail, and what the execution of a request can reach.
-/
import Conductor.Capabilities.Filesystem

namespace Conductor

/-- The path that a text names below a root, or by itself. -/
def normalised (root : ResolvedPath) (path : String) : List String :=
  walkParts (if (PurePath.parse path).isAbsolute then [] else root.names)
    (PurePath.parse path).parts

theorem join_resolve (cwd root : ResolvedPath) (path : String) :
    ((if (PurePath.parse path).isAbsolute then PurePath.parse path
      else root.toPath.join (PurePath.parse path)).resolve cwd).names = normalised root path := by
  unfold normalised
  by_cases habsolute : (PurePath.parse path).isAbsolute = true
  · rw [if_pos habsolute, if_pos habsolute, PurePath.resolve, if_pos habsolute]
  · rw [if_neg habsolute, if_neg habsolute, PurePath.join, if_neg habsolute]
    change walkParts [] (root.names ++ (PurePath.parse path).parts) = _
    rw [walkParts_append, walkParts_of_clean [] root.names_ne, List.nil_append]

/-- The guardrail lets a path through if and only if it leads to the root or
below it, and then gives the place it leads to. -/
theorem ensureLocalPath_ok {cwd root target : ResolvedPath} {path : String} :
    ensureLocalPath cwd path root.toPath = .ok target ↔
      target.names = normalised root path ∧ root.Under (normalised root path) := by
  have hresolved := join_resolve cwd root path
  unfold ensureLocalPath ResolvedPath.Under
  dsimp only
  rw [ResolvedPath.resolve_toPath, hresolved, ← List.isPrefixOf_iff_prefix]
  split
  · rename_i hunder
    rw [and_iff_left hunder]
    constructor
    · intro heq
      rw [← Except.ok.inj heq, hresolved]
    · intro heq
      exact congrArg Except.ok (ResolvedPath.ext (hresolved.trans heq.symm))
  · rename_i hunder
    constructor
    · intro heq
      cases heq
    · exact fun hboth => absurd hboth.2 hunder

theorem ensureLocalPath_total {cwd root : ResolvedPath} {path : String} :
    (∃ target, ensureLocalPath cwd path root.toPath = .ok target) ↔
      root.Under (normalised root path) := by
  constructor
  · exact fun ⟨target, htarget⟩ => (ensureLocalPath_ok.mp htarget).2
  · intro hunder
    exact ⟨⟨normalised root path, by
      rw [← join_resolve root]
      exact ResolvedPath.clean _⟩, ensureLocalPath_ok.mpr ⟨rfl, hunder⟩⟩

/-- An accepted path is accepted again by its own text, and leads to the same
place. -/
theorem ensureLocalPath_idempotent {cwd root target : ResolvedPath} {path : String}
    (htarget : ensureLocalPath cwd path root.toPath = .ok target) :
    ensureLocalPath cwd target.str root.toPath = .ok target := by
  obtain ⟨hnames, hunder⟩ := ensureLocalPath_ok.mp htarget
  have hsame : normalised root target.str = target.names := by
    rw [normalised, if_pos target.isAbsolute_str, target.walkParts_parse_str]
  exact ensureLocalPath_ok.mpr ⟨hsame.symm, by rw [hsame, hnames]; exact hunder⟩

theorem nodeAt_insert (tree : FileTree) {path : List String} (hpath : path ≠ []) (node : Node)
    (q : List String) :
    nodeAt (Assoc.insert path node tree) q = if q = path then some node else nodeAt tree q := by
  unfold nodeAt
  rw [lawful_beq_subsingleton List.instBEq instBEqOfDecidableEq, Assoc.lookup_insert]
  by_cases hq : q = path
  · rw [if_pos hq, if_pos hq, if_neg (hq ▸ hpath)]
  · rw [if_neg hq, if_neg hq]

/-- Directories were made on the way to a path where there was nothing. -/
structure Grown (path : List String) (disk disk' : Disk) : Prop where
  nodes : ∀ q, nodeAt disk'.tree q = nodeAt disk.tree q ∨
    q <+: path ∧ nodeAt disk.tree q = none ∧ nodeAt disk'.tree q = some .dir
  accesses : ∃ new, disk'.accesses = disk.accesses ++ new ∧
    ∀ access ∈ new, ∃ q, access = .created q ∧ q <+: path ∧ nodeAt disk.tree q = none

namespace Grown

variable {path path' : List String} {disk disk' disk'' : Disk}

theorem refl (path : List String) (disk : Disk) : Grown path disk disk where
  nodes _ := .inl rfl
  accesses := ⟨[], by simp, by simp⟩

theorem mono (hpath : path <+: path') (hgrown : Grown path disk disk') :
    Grown path' disk disk' where
  nodes q := (hgrown.nodes q).imp_right fun ⟨hq, hboth⟩ => ⟨hq.trans hpath, hboth⟩
  accesses := by
    obtain ⟨new, hnew, hall⟩ := hgrown.accesses
    refine ⟨new, hnew, ?_⟩
    intro access hmem
    obtain ⟨q, hcreated, hq, hnone⟩ := hall access hmem
    exact ⟨q, hcreated, hq.trans hpath, hnone⟩

/-- What is missing afterwards was missing before. -/
theorem missing (hgrown : Grown path disk disk') {q : List String}
    (hnone : nodeAt disk'.tree q = none) : nodeAt disk.tree q = none := by
  rcases hgrown.nodes q with hsame | ⟨-, hbefore, -⟩
  · exact hsame ▸ hnone
  · exact hbefore

theorem trans (hgrown : Grown path disk disk') (hgrown' : Grown path disk' disk'') :
    Grown path disk disk'' where
  nodes q := by
    rcases hgrown'.nodes q with hsame | ⟨hq, hnone, hdir⟩
    · rw [hsame]
      exact hgrown.nodes q
    · exact .inr ⟨hq, hgrown.missing hnone, hdir⟩
  accesses := by
    obtain ⟨new, hnew, hall⟩ := hgrown.accesses
    obtain ⟨new', hnew', hall'⟩ := hgrown'.accesses
    refine ⟨new ++ new', by rw [hnew', hnew, List.append_assoc], ?_⟩
    intro access hmem
    rcases List.mem_append.mp hmem with hfirst | hsecond
    · exact hall access hfirst
    · obtain ⟨q, hcreated, hq, hnone⟩ := hall' access hsecond
      exact ⟨q, hcreated, hq, hgrown.missing hnone⟩

end Grown

namespace OperatingSystem

variable {os : OperatingSystem} {disk disk' : Disk}

theorem mkdir_grown {path : List String} (hmkdir : os.mkdir disk path = .ok disk') :
    Grown path disk disk' := by
  obtain ⟨_, -, hmkdir⟩ := Except.ok_of_bind hmkdir
  split at hmkdir
  · cases hmkdir
  · rename_i hmissing
    obtain ⟨_, -, hmkdir⟩ := Except.ok_of_bind hmkdir
    have hnone : nodeAt disk.tree path = none := by simpa using hmissing
    have hpath : path ≠ [] := by
      intro hempty
      rw [hempty] at hnone
      cases hnone
    cases hmkdir
    constructor
    · intro q
      rw [nodeAt_insert _ hpath]
      by_cases hq : q = path
      · rw [if_pos hq, hq]
        exact .inr ⟨List.prefix_refl path, hnone, rfl⟩
      · exact .inl (if_neg hq)
    · refine ⟨[.created path], rfl, ?_⟩
      intro access hmem
      exact ⟨path, List.mem_singleton.mp hmem, List.prefix_refl path, hnone⟩

@[simp] theorem existOk_disk (e : PyExc) (disk : Disk) (path : List String) :
    (existOk e disk path).2 = disk := by
  unfold existOk
  split <;> rfl

/-- By induction on the names of the path from the last one on. -/
theorem mkdirParents_grown (disk : Disk) (names : List String) :
    Grown names.reverse disk (os.mkdirParents disk names).2 := by
  induction names generalizing disk with
  | nil =>
      rw [mkdirParents, existOk_disk]
      exact Grown.refl _ disk
  | cons name above ih =>
      have habove : above.reverse <+: (name :: above).reverse := by
        rw [List.reverse_cons]
        exact List.prefix_append _ _
      rw [mkdirParents]
      cases hmkdir : os.mkdir disk (name :: above).reverse with
      | ok made => exact mkdir_grown hmkdir
      | error e =>
          dsimp only
          split
          · have hparents := (ih disk).mono habove
            cases hmade : os.mkdirParents disk above with
            | mk outcome disk₁ =>
                rw [hmade] at hparents
                cases outcome with
                | error e => exact hparents
                | ok _ =>
                    dsimp only
                    cases hagain : os.mkdir disk₁ (name :: above).reverse with
                    | ok made => exact hparents.trans (mkdir_grown hagain)
                    | error e =>
                        dsimp only
                        split
                        · exact hparents
                        · rw [existOk_disk]
                          exact hparents
          · rw [existOk_disk]
            exact Grown.refl _ disk

end OperatingSystem

/-- An access below the root, or the making of a directory above it that was
missing. -/
def Reaches (root : ResolvedPath) (disk : Disk) : DiskAccess → Prop
  | .read q | .wrote q | .listed q => root.Under q
  | .created q => root.Under q ∨ q <+: root.names ∧ nodeAt disk.tree q = none

/-- Between the two disks, nothing was reached that does not lie below the root,
except that directories above it were made that were missing. -/
structure Confined (root : ResolvedPath) (disk disk' : Disk) : Prop where
  accesses : ∃ new, disk'.accesses = disk.accesses ++ new ∧ ∀ access ∈ new, Reaches root disk access
  nodes : ∀ q, nodeAt disk'.tree q = nodeAt disk.tree q ∨ root.Under q ∨
    q <+: root.names ∧ nodeAt disk.tree q = none ∧ nodeAt disk'.tree q = some .dir

variable {root : ResolvedPath} {disk disk' : Disk}

theorem Confined.refl (root : ResolvedPath) (disk : Disk) : Confined root disk disk where
  accesses := ⟨[], by simp, by simp⟩
  nodes _ := .inl rfl

/-- Directories on the way to a path below the root lie below it or above it. -/
theorem Grown.confinedUnder {path : List String} (hunder : root.Under path)
    (hgrown : Grown path disk disk') : Confined root disk disk' where
  accesses := by
    obtain ⟨new, hnew, hall⟩ := hgrown.accesses
    refine ⟨new, hnew, ?_⟩
    intro access hmem
    obtain ⟨q, hcreated, hq, hnone⟩ := hall access hmem
    subst hcreated
    rcases List.prefix_or_prefix_of_prefix hunder hq with hbelow | habove
    · exact .inl hbelow
    · exact .inr ⟨habove, hnone⟩
  nodes q := by
    rcases hgrown.nodes q with hsame | ⟨hq, hnone, hdir⟩
    · exact .inl hsame
    · rcases List.prefix_or_prefix_of_prefix hunder hq with hbelow | habove
      · exact .inr (.inl hbelow)
      · exact .inr (.inr ⟨habove, hnone, hdir⟩)

/-- One more access below the root, which may change the node there. -/
theorem Confined.next (hconfined : Confined root disk disk') {q : List String}
    (hq : root.Under q) {tree : FileTree} {access : DiskAccess}
    (haccess : Reaches root disk access)
    (htree : ∀ q', nodeAt tree q' = nodeAt disk'.tree q' ∨ q' = q) :
    Confined root disk ⟨tree, disk'.accesses ++ [access]⟩ where
  accesses := by
    obtain ⟨new, hnew, hall⟩ := hconfined.accesses
    refine ⟨new ++ [access], by rw [hnew, List.append_assoc], ?_⟩
    intro access' hmem
    rcases List.mem_append.mp hmem with hold | hlast
    · exact hall access' hold
    · exact List.mem_singleton.mp hlast ▸ haccess
  nodes q' := by
    rcases htree q' with hsame | rfl
    · rw [hsame]
      exact hconfined.nodes q'
    · exact .inr (.inl hq)

namespace OperatingSystem

variable {os : OperatingSystem}

theorem writeText_confined {target : List String} (hunder : root.Under target)
    (hconfined : Confined root disk disk') (content encoding : String) :
    Confined root disk (os.writeText disk' target content encoding).2 := by
  have hwrite : ∀ bytes, nodeAt disk'.tree target ≠ some .dir →
      Confined root disk ⟨Assoc.insert target (.file bytes) disk'.tree,
        disk'.accesses ++ [.wrote target]⟩ := by
    intro bytes hdir
    have hpath : target ≠ [] := by
      intro hempty
      rw [hempty] at hdir
      exact hdir rfl
    refine hconfined.next hunder hunder ?_
    intro q
    rw [nodeAt_insert _ hpath]
    by_cases hq : q = target
    · exact .inr hq
    · exact .inl (if_neg hq)
  unfold writeText
  split
  · exact hconfined
  · exact hconfined
  · rename_i hnode
    split
    · exact hconfined
    · dsimp only
      split
      · exact hwrite [] hnode
      · exact hwrite _ hnode

theorem readText_confined {target : List String} (hunder : root.Under target) (encoding : String) :
    Confined root disk (os.readText disk target encoding).2 := by
  unfold readText
  split
  · exact Confined.refl root disk
  · exact Confined.refl root disk
  · exact Confined.refl root disk
  · split
    · exact Confined.refl root disk
    · exact (Confined.refl root disk).next hunder hunder fun _ => .inl rfl

theorem listDir_confined {target : List String} (hunder : root.Under target) :
    Confined root disk (os.listDir disk target).2 := by
  unfold listDir
  split
  · exact Confined.refl root disk
  · exact Confined.refl root disk
  · exact Confined.refl root disk
  · split
    · exact Confined.refl root disk
    · exact (Confined.refl root disk).next hunder hunder fun _ => .inl rfl

end OperatingSystem

namespace FilesystemCapability

variable {os : OperatingSystem} {taskName : String} {request : FilesystemInput}
variable {target : ResolvedPath}

theorem perform_confined (hunder : root.Under target.names) (disk : Disk) :
    Confined root disk (perform os taskName request target disk).2 := by
  unfold perform
  split
  · have hread : Confined root disk (os.readText disk target.names request.encoding).2 :=
      os.readText_confined hunder request.encoding
    split <;> rename_i hstep <;> rw [hstep] at hread <;> exact hread
  · have hmade : Confined root disk
        (os.mkdirParents disk target.names.dropLast.reverse).2 := by
      have hgrown := os.mkdirParents_grown disk target.names.dropLast.reverse
      rw [List.reverse_reverse] at hgrown
      exact (hgrown.mono (List.dropLast_prefix _)).confinedUnder hunder
    split
    · rename_i hstep
      rw [hstep] at hmade
      exact hmade
    · rename_i hstep
      rw [hstep] at hmade
      have hwritten := os.writeText_confined hunder hmade (request.content.getD "") request.encoding
      dsimp only
      split <;> rename_i hstep' <;> rw [hstep'] at hwritten <;> exact hwritten
  · have hlisted : Confined root disk (os.listDir disk target.names).2 :=
      os.listDir_confined hunder
    split <;> rename_i hstep <;> rw [hstep] at hlisted <;> exact hlisted

/-- Only the writing of a text changes the tree. -/
theorem perform_tree (haction : request.action ≠ .writeText) (disk : Disk) :
    (perform os taskName request target disk).2.tree = disk.tree := by
  have hread : (os.readText disk target.names request.encoding).2.tree = disk.tree := by
    unfold OperatingSystem.readText
    split <;> first | rfl | (split <;> rfl)
  have hlist : (os.listDir disk target.names).2.tree = disk.tree := by
    unfold OperatingSystem.listDir
    split <;> first | rfl | (split <;> rfl)
  unfold perform
  split
  · split <;> rename_i hstep <;> rw [hstep] at hread <;> exact hread
  · rename_i hwrite
    exact absurd hwrite haction
  · split <;> rename_i hstep <;> rw [hstep] at hlist <;> exact hlist

variable {capability : FilesystemCapability} {cwd : ResolvedPath} {p : Pydantic}

theorem validateInput_ok {payload : Dict} :
    capability.validateInput cwd p payload = .ok request ↔
      FilesystemInput.modelValidate p payload = .ok request ∧
        capability.basePath.Under (normalised capability.basePath request.path) := by
  constructor
  · intro hvalid
    obtain ⟨request', hmodel, hvalid⟩ := Except.ok_of_bind hvalid
    obtain ⟨target, htarget, hvalid⟩ := Except.ok_of_bind hvalid
    cases hvalid
    exact ⟨hmodel, ensureLocalPath_total.mp ⟨target, htarget⟩⟩
  · intro ⟨hmodel, hunder⟩
    obtain ⟨target, htarget⟩ : ∃ target,
        ensureLocalPath cwd request.path capability.basePath.toPath = .ok target :=
      ensureLocalPath_total.mpr hunder
    rw [validateInput, bind_of_ok hmodel, bind_of_ok htarget]

theorem execute_eq {payload : FilesystemPayload} (hinput : payload.input p = .ok request)
    (htarget : ensureLocalPath cwd request.path capability.basePath.toPath = .ok target)
    (context : CapabilityContext) (disk : Disk) :
    capability.execute cwd p os payload context disk =
      perform os context.taskName request target disk := by
  unfold execute
  rw [hinput]
  dsimp only
  rw [htarget]

/-- A request is accepted if and only if its path leads to the root or below it,
and it is executed at the very place it was accepted for.  Whatever is executed
reaches nothing outside of the root, except that missing directories above the
root are made, and this only to write a text.  An accepted path is accepted
again as the place it leads to. -/
theorem confined (capability : FilesystemCapability) (cwd : ResolvedPath) (p : Pydantic)
    (os : OperatingSystem) :
    (∀ payload request, capability.validateInput cwd p payload = .ok request ↔
      FilesystemInput.modelValidate p payload = .ok request ∧
        capability.basePath.Under (normalised capability.basePath request.path)) ∧
    (∀ payload request, capability.validateInput cwd p payload = .ok request →
      ∃ target, ensureLocalPath cwd request.path capability.basePath.toPath = .ok target ∧
        target.names = normalised capability.basePath request.path ∧
        ∀ context disk,
          capability.execute cwd p os (.request request) context disk =
            perform os context.taskName request target disk ∧
          capability.execute cwd p os (.dict payload) context disk =
            perform os context.taskName request target disk) ∧
    (∀ payload context disk,
      Confined capability.basePath disk (capability.execute cwd p os payload context disk).2 ∧
        ∀ request, payload.input p = .ok request → request.action ≠ .writeText →
          (capability.execute cwd p os payload context disk).2.tree = disk.tree) ∧
    ∀ path target, ensureLocalPath cwd path capability.basePath.toPath = .ok target →
      ensureLocalPath cwd target.str capability.basePath.toPath = .ok target := by
  refine ⟨fun payload request => validateInput_ok, ?same, ?reach, ?again⟩
  case same =>
    intro payload request hvalid
    obtain ⟨hmodel, hunder⟩ := validateInput_ok.mp hvalid
    obtain ⟨target, htarget⟩ := ensureLocalPath_total.mpr hunder
    refine ⟨target, htarget, (ensureLocalPath_ok.mp htarget).1, fun context disk => ⟨?_, ?_⟩⟩
    · exact execute_eq rfl htarget context disk
    · have hinput : (FilesystemPayload.dict payload).input p = .ok request := hmodel
      exact execute_eq hinput htarget context disk
  case reach =>
    intro payload context disk
    cases hinput : payload.input p with
    | error e =>
        have hraised : (capability.execute cwd p os payload context disk).2 = disk := by
          unfold execute
          rw [hinput]
        rw [hraised]
        exact ⟨Confined.refl _ disk, fun _ _ _ => rfl⟩
    | ok request =>
        cases htarget : ensureLocalPath cwd request.path capability.basePath.toPath with
        | error e =>
            have hraised : (capability.execute cwd p os payload context disk).2 = disk := by
              unfold execute
              rw [hinput]
              dsimp only
              rw [htarget]
            rw [hraised]
            exact ⟨Confined.refl _ disk, fun _ _ _ => rfl⟩
        | ok target =>
            obtain ⟨hnames, hunder⟩ := ensureLocalPath_ok.mp htarget
            rw [execute_eq hinput htarget]
            refine ⟨perform_confined (hnames ▸ hunder) disk, ?_⟩
            intro request' hsame haction
            cases hsame
            exact perform_tree haction disk
  case again =>
    exact fun path target htarget => ensureLocalPath_idempotent htarget

/-- Directories beside the root are not below it, whatever their names. -/
example : ¬ (⟨["data", "work"], by decide⟩ : ResolvedPath).Under
    (normalised ⟨["data", "work"], by decide⟩ "../work2/notes.txt") := by
  decide +kernel

/-- A system that refuses nothing and knows one encoding. -/
def openSystem : OperatingSystem where
  refuses _ _ := none
  encode _ content := .ok content.toUTF8.toList
  decode _ bytes :=
    match String.fromUTF8? ⟨bytes.toArray⟩ with
    | some content => .ok content
    | none => .error (.exception "UnicodeDecodeError" "invalid start byte")

/-- The capability for a root, and a note to be written below it. -/
def workspace : FilesystemCapability := new ⟨[], by decide⟩ "/data/work"

def writeNote : FilesystemPayload := .request ⟨.writeText, "note.txt", none, "utf-8"⟩

/-- On an empty disk a directory above the root is made. -/
theorem directory_made_above :
    (workspace.execute ⟨[], by decide⟩ Pydantic.strict openSystem writeNote ⟨"t1", "write", "/"⟩
        ⟨[], []⟩).2.accesses =
      [.created ["data"], .created ["data", "work"], .wrote ["data", "work", "note.txt"]] ∧
    ¬ workspace.basePath.Under ["data"] := by
  constructor
  · decide +kernel
  · decide +kernel

end FilesystemCapability

end Conductor
