/-
Many requests to the filesystem capability, one after the other.  The tree stays
a tree, whatever is refused in between, and what was written is what is read
until the same file is written again.
-/
import Conductor.Capabilities.Confinement

namespace Conductor

/-- Whatever is in the tree lies in directories. -/
def FileTree.Sound (tree : FileTree) : Prop :=
  ∀ path q, (nodeAt tree path).isSome → q <+: path → q ≠ path → nodeAt tree q = some .dir

/-- The content of a file, if there is one. -/
def fileAt (tree : FileTree) (path : List String) : Option (List UInt8) :=
  match nodeAt tree path with
  | some (.file bytes) => some bytes
  | _ => none

theorem prefix_dropLast {q path : List String} (hinitial : q <+: path) (hne : q ≠ path) :
    q <+: path.dropLast := by
  obtain ⟨rest, rfl⟩ := hinitial
  have hrest : rest ≠ [] := by
    rintro rfl
    exact hne (List.append_nil q).symm
  rw [List.dropLast_append_of_ne_nil hrest]
  exact List.prefix_append _ _

theorem walkTo_ok_iff {tree : FileTree} {path : List String} :
    walkTo tree path = .ok () ↔ ∀ q, q <+: path.dropLast → nodeAt tree q = some .dir := by
  unfold walkTo
  dsimp only
  constructor
  · intro hwalk q hinitial
    split at hwalk
    · cases hwalk
    · rename_i hnone
      rw [List.findSome?_eq_none_iff] at hnone
      have hq := hnone q ((List.mem_inits _ _).mpr hinitial)
      split at hq
      · assumption
      · cases hq
      · cases hq
  · intro hdirs
    split
    · rename_i e hblocked
      obtain ⟨q, hmem, hq⟩ := List.exists_of_findSome?_eq_some hblocked
      rw [hdirs q ((List.mem_inits _ _).mp hmem)] at hq
      cases hq
    · rfl

namespace FileTree

variable {tree : FileTree} {path : List String}

theorem Sound.walkTo (hsound : Sound tree) (hthere : (nodeAt tree path).isSome) :
    walkTo tree path = .ok () := by
  rw [walkTo_ok_iff]
  intro q hinitial
  by_cases hpath : path = []
  · subst hpath
    rw [List.prefix_nil.mp hinitial]
    rfl
  · refine hsound path q hthere (hinitial.trans (List.dropLast_prefix path)) ?_
    rintro rfl
    have hlength := hinitial.length_le
    rw [List.length_dropLast] at hlength
    have hpos := List.length_pos_iff.mpr hpath
    omega

/-- A node may be put where its directories are, and where no directory gives way to
a file. -/
theorem Sound.insert (hsound : Sound tree) (hpath : path ≠ [])
    (hwalk : Conductor.walkTo tree path = .ok ())
    {node : Node} (hnode : nodeAt tree path = some .dir → node = .dir) :
    Sound (Assoc.insert path node tree) := by
  intro path' q hthere hinitial hne
  rw [nodeAt_insert _ hpath] at hthere ⊢
  by_cases hq : q = path
  · subst hq
    have hdir := hsound path' q (by rwa [if_neg (Ne.symm hne)] at hthere) hinitial hne
    rw [if_pos rfl, hnode hdir]
  · rw [if_neg hq]
    by_cases hpath' : path' = path
    · subst hpath'
      exact walkTo_ok_iff.mp hwalk q (prefix_dropLast hinitial hne)
    · rw [if_neg hpath'] at hthere
      exact hsound path' q hthere hinitial hne

end FileTree

open FileTree

namespace OperatingSystem

variable {os : OperatingSystem} {disk disk' : Disk}

theorem mkdir_sound {path : List String} (hsound : Sound disk.tree)
    (hmkdir : os.mkdir disk path = .ok disk') : Sound disk'.tree := by
  obtain ⟨_, hwalk, hmkdir⟩ := Except.ok_of_bind hmkdir
  split at hmkdir
  · cases hmkdir
  · rename_i hmissing
    obtain ⟨_, -, hmkdir⟩ := Except.ok_of_bind hmkdir
    cases hmkdir
    refine hsound.insert ?_ hwalk (fun _ => rfl)
    rintro rfl
    exact hmissing rfl

/-- By induction on the names of the path from the last one on. -/
theorem mkdirParents_sound (hsound : Sound disk.tree) (names : List String) :
    Sound (os.mkdirParents disk names).2.tree := by
  induction names generalizing disk with
  | nil =>
      rw [mkdirParents, existOk_disk]
      exact hsound
  | cons name above ih =>
      rw [mkdirParents]
      cases hmkdir : os.mkdir disk (name :: above).reverse with
      | ok made => exact mkdir_sound hsound hmkdir
      | error e =>
          dsimp only
          split
          · have hparents := ih hsound
            cases hmade : os.mkdirParents disk above with
            | mk outcome disk₁ =>
                rw [hmade] at hparents
                cases outcome with
                | error e => exact hparents
                | ok _ =>
                    dsimp only
                    cases hagain : os.mkdir disk₁ (name :: above).reverse with
                    | ok made => exact mkdir_sound hparents hagain
                    | error e =>
                        dsimp only
                        split
                        · exact hparents
                        · rw [existOk_disk]
                          exact hparents
          · rw [existOk_disk]
            exact hsound

/-- Directories that are made change no file. -/
theorem fileAt_of_grown {path : List String} (hgrown : Grown path disk disk') (q : List String) :
    fileAt disk'.tree q = fileAt disk.tree q := by
  unfold fileAt
  rcases hgrown.nodes q with hsame | ⟨-, hnone, hdir⟩
  · rw [hsame]
  · rw [hnone, hdir]

theorem fileAt_insert {tree : FileTree} {path : List String} (hpath : path ≠ [])
    (bytes : List UInt8) (q : List String) :
    fileAt (Assoc.insert path (.file bytes) tree) q =
      if q = path then some bytes else fileAt tree q := by
  unfold fileAt
  rw [nodeAt_insert _ hpath]
  by_cases hq : q = path
  · rw [if_pos hq, if_pos hq]
  · rw [if_neg hq, if_neg hq]

/-- What has become of the tree when a text was to be written: if that was done, the
file holds the bytes of the text, and no other file has changed in any case. -/
structure Wrote {α : Type} (os : OperatingSystem) (path : List String)
    (content encoding : String) (disk : Disk) (outcome : Except PyExc α) (disk' : Disk) :
    Prop where
  sound : Sound disk.tree → Sound disk'.tree
  done : ∀ value, outcome = .ok value → ∃ bytes, os.encode encoding content = .ok bytes ∧
    fileAt disk'.tree path = some bytes
  others : ∀ q, q ≠ path → fileAt disk'.tree q = fileAt disk.tree q

theorem writeText_wrote (disk : Disk) (path : List String) (content encoding : String) :
    Wrote os path content encoding disk (os.writeText disk path content encoding).1
      (os.writeText disk path content encoding).2 := by
  have hunchanged (e : PyExc) :
      Wrote os path content encoding disk (.error e : Except PyExc Unit) disk :=
    ⟨id, fun _ hdone => by (cases hdone), fun _ _ => rfl⟩
  unfold writeText
  split
  · exact hunchanged _
  · exact hunchanged _
  · rename_i hwalk hdir
    have hpath : path ≠ [] := by
      rintro rfl
      exact hdir rfl
    split
    · exact hunchanged _
    · have hothers (bytes : List UInt8) (q : List String) (hq : q ≠ path) :
          fileAt (Assoc.insert path (.file bytes) disk.tree) q = fileAt disk.tree q := by
        rw [fileAt_insert hpath, if_neg hq]
      have hsound (bytes : List UInt8) (hsound : Sound disk.tree) :
          Sound (Assoc.insert path (.file bytes) disk.tree) :=
        hsound.insert hpath hwalk fun h => absurd h hdir
      dsimp only
      split
      · exact ⟨hsound [], fun _ hdone => by (cases hdone), hothers []⟩
      · rename_i bytes hencode
        refine ⟨hsound bytes, fun _ _ => ⟨bytes, hencode, ?_⟩, hothers bytes⟩
        rw [fileAt_insert hpath, if_pos rfl]

theorem readText_of_fileAt (hsound : Sound disk.tree) {path : List String} {bytes : List UInt8}
    (hfile : fileAt disk.tree path = some bytes) {encoding content : String}
    (hpermitted : os.refuses "read" path = none)
    (hdecode : os.decode encoding bytes = .ok content) :
    (os.readText disk path encoding).1 = .ok content := by
  have hnode : nodeAt disk.tree path = some (.file bytes) := by
    unfold fileAt at hfile
    split at hfile
    · cases hfile
      assumption
    · cases hfile
  have hwalk := hsound.walkTo (Option.isSome_iff_exists.mpr ⟨_, hnode⟩)
  rw [readText, hwalk, hnode, permit, hpermitted]
  exact hdecode

/-- A file is listed in its directory. -/
theorem listDir_of_fileAt (hsound : Sound disk.tree) {above : List String} {name : String}
    {bytes : List UInt8} (hfile : fileAt disk.tree (above ++ [name]) = some bytes)
    (hpermitted : os.refuses "list" above = none) :
    ∃ entries, (os.listDir disk above).1 = .ok entries ∧ name ∈ entries := by
  have hnode : nodeAt disk.tree (above ++ [name]) = some (.file bytes) := by
    unfold fileAt at hfile
    split at hfile
    · cases hfile
      assumption
    · cases hfile
  have hne : above ≠ above ++ [name] := by
    intro heq
    have hlength := congrArg List.length heq
    simp at hlength
  have hdir := hsound _ above (Option.isSome_iff_exists.mpr ⟨_, hnode⟩)
    (List.prefix_append _ _) hne
  have hwalk := hsound.walkTo (Option.isSome_iff_exists.mpr ⟨_, hdir⟩)
  refine ⟨(children disk.tree above).insertionSort (· ≤ ·), ?_, ?_⟩
  · rw [listDir, hwalk, hdir, permit, hpermitted]
  · rw [List.mem_insertionSort]
    unfold nodeAt at hnode
    rw [if_neg (by simp)] at hnode
    rw [lawful_beq_subsingleton List.instBEq instBEqOfDecidableEq] at hnode
    have hmem := Assoc.mem_of_lookup hnode
    rw [children, List.mem_filterMap]
    refine ⟨_, hmem, ?_⟩
    simp

end OperatingSystem

/-- A request that is to be executed, and the operating system at that time. -/
structure FilesystemStep where
  os : OperatingSystem
  payload : FilesystemPayload
  context : CapabilityContext

namespace FilesystemCapability

variable (capability : FilesystemCapability) (cwd : ResolvedPath) (p : Pydantic)

def answer (step : FilesystemStep) (disk : Disk) : Except PyExc CapabilityResult :=
  (capability.execute cwd p step.os step.payload step.context disk).1

/-- The disk after the steps. -/
def after (disk : Disk) (steps : List FilesystemStep) : Disk :=
  steps.foldl (fun disk step =>
    (capability.execute cwd p step.os step.payload step.context disk).2) disk

/-- The step is this request, which leads to this place. -/
structure Addresses (step : FilesystemStep) (request : FilesystemInput) (target : ResolvedPath) :
    Prop where
  input : step.payload.input p = .ok request
  target : ensureLocalPath cwd request.path capability.basePath.toPath = .ok target

/-- The step is to write a text there. -/
def Writes (step : FilesystemStep) (path : List String) : Prop :=
  ∃ request target, capability.Addresses cwd p step request target ∧
    request.action = .writeText ∧ target.names = path

variable {capability cwd p} {disk : Disk} {step : FilesystemStep} {request : FilesystemInput}
variable {target : ResolvedPath}

theorem Addresses.execute_eq (haddresses : capability.Addresses cwd p step request target)
    (disk : Disk) :
    capability.execute cwd p step.os step.payload step.context disk =
      perform step.os step.context.taskName request target disk :=
  FilesystemCapability.execute_eq haddresses.input haddresses.target step.context disk

/-- Directories are made on the way, and then the text is written. -/
theorem perform_wrote (os : OperatingSystem) (target : ResolvedPath) (taskName : String)
    (haction : request.action = .writeText) (disk : Disk) :
    os.Wrote target.names (request.content.getD "") request.encoding disk
      (perform os taskName request target disk).1 (perform os taskName request target disk).2 := by
  have hsound := fun hdisk : Sound disk.tree =>
    os.mkdirParents_sound hdisk target.names.dropLast.reverse
  have hgrown := os.mkdirParents_grown disk target.names.dropLast.reverse
  rw [perform, haction]
  dsimp only
  cases hmade : os.mkdirParents disk target.names.dropLast.reverse with
  | mk outcome made =>
      rw [hmade] at hsound hgrown
      have hfiles := OperatingSystem.fileAt_of_grown hgrown
      cases outcome with
      | error e => exact ⟨hsound, fun _ hdone => by (cases hdone), fun q _ => hfiles q⟩
      | ok _ =>
          have hwrote := os.writeText_wrote made target.names (request.content.getD "")
            request.encoding
          dsimp only
          cases hwritten : os.writeText made target.names (request.content.getD "")
            request.encoding with
          | mk outcome written =>
              rw [hwritten] at hwrote
              have hothers : ∀ q, q ≠ target.names →
                  fileAt written.tree q = fileAt disk.tree q := fun q hq =>
                (hwrote.others q hq).trans (hfiles q)
              cases outcome with
              | error e =>
                  exact ⟨fun h => hwrote.sound (hsound h), fun _ hdone => by (cases hdone),
                    hothers⟩
              | ok _ =>
                  exact ⟨fun h => hwrote.sound (hsound h), fun _ _ => hwrote.done _ rfl, hothers⟩

/-- A step that is no request changes nothing. -/
theorem execute_cases (capability : FilesystemCapability) (cwd : ResolvedPath) (p : Pydantic)
    (step : FilesystemStep) (disk : Disk) :
    (∃ request target, capability.Addresses cwd p step request target) ∨
      (capability.execute cwd p step.os step.payload step.context disk).2 = disk := by
  cases hinput : step.payload.input p with
  | error e =>
      right
      unfold execute
      rw [hinput]
  | ok request =>
      cases htarget : ensureLocalPath cwd request.path capability.basePath.toPath with
      | error e =>
          right
          unfold execute
          rw [hinput]
          dsimp only
          rw [htarget]
      | ok target => exact .inl ⟨request, target, hinput, htarget⟩

/-- What a step keeps: the tree is one, and a file that it does not write is as it was. -/
theorem execute_kept (capability : FilesystemCapability) (cwd : ResolvedPath) (p : Pydantic)
    (step : FilesystemStep) {disk : Disk} (hsound : Sound disk.tree) :
    Sound (capability.execute cwd p step.os step.payload step.context disk).2.tree ∧
      ∀ path, ¬ capability.Writes cwd p step path →
        fileAt (capability.execute cwd p step.os step.payload step.context disk).2.tree path =
          fileAt disk.tree path := by
  rcases execute_cases capability cwd p step disk with ⟨request, target, haddresses⟩ | hsame
  · rw [haddresses.execute_eq disk]
    by_cases haction : request.action = .writeText
    · have hwrote := perform_wrote step.os target step.context.taskName haction disk
      refine ⟨hwrote.sound hsound, fun path hwrites => hwrote.others path ?_⟩
      rintro rfl
      exact hwrites ⟨request, target, haddresses, haction, rfl⟩
    · rw [perform_tree haction]
      exact ⟨hsound, fun _ _ => rfl⟩
  · rw [hsame]
    exact ⟨hsound, fun _ _ => rfl⟩

theorem after_append (steps later : List FilesystemStep) (disk : Disk) :
    capability.after cwd p disk (steps ++ later) =
      capability.after cwd p (capability.after cwd p disk steps) later :=
  List.foldl_append

/-- What a session keeps. -/
theorem after_kept (capability : FilesystemCapability) (cwd : ResolvedPath) (p : Pydantic)
    (steps : List FilesystemStep) {disk : Disk} (hsound : Sound disk.tree) :
    Sound (capability.after cwd p disk steps).tree ∧
      ∀ path, (∀ step ∈ steps, ¬ capability.Writes cwd p step path) →
        fileAt (capability.after cwd p disk steps).tree path = fileAt disk.tree path := by
  induction steps generalizing disk with
  | nil => exact ⟨hsound, fun _ _ => rfl⟩
  | cons step steps ih =>
      obtain ⟨hstep, hfile⟩ := execute_kept capability cwd p step hsound
      obtain ⟨hlater, hfiles⟩ := ih hstep
      refine ⟨hlater, fun path hnone => ?_⟩
      rw [List.forall_mem_cons] at hnone
      exact (hfiles path hnone.2).trans (hfile path hnone.1)

/-- A file with these bytes is there: it is read as what they are decoded to, and it
is listed in its directory, unless the system refuses. -/
structure ReadsBack (capability : FilesystemCapability) (cwd : ResolvedPath) (p : Pydantic)
    (disk : Disk) (target : ResolvedPath) (bytes : List UInt8) : Prop where
  read : ∀ step request content, capability.Addresses cwd p step request target →
    request.action = .readText → step.os.refuses "read" target.names = none →
    step.os.decode request.encoding bytes = .ok content →
    capability.answer cwd p step disk =
      .ok ⟨.dict [("path", .str target.str), ("content", .str content)], []⟩
  listed : ∀ step request above name, capability.Addresses cwd p step request above →
    request.action = .listDir → step.os.refuses "list" above.names = none →
    target.names = above.names ++ [name] →
    ∃ entries : List String, name ∈ entries ∧ capability.answer cwd p step disk =
      .ok ⟨.dict [("path", .str above.str), ("entries", .list (entries.map .str))], []⟩

theorem readsBack_of_fileAt (hsound : Sound disk.tree) {bytes : List UInt8}
    (hfile : fileAt disk.tree target.names = some bytes) :
    ReadsBack capability cwd p disk target bytes where
  read step request content haddresses haction hpermitted hdecode := by
    have hread := OperatingSystem.readText_of_fileAt hsound hfile hpermitted hdecode
    rw [answer, haddresses.execute_eq, perform, haction]
    dsimp only
    cases hstep : step.os.readText disk target.names request.encoding with
    | mk outcome disk' =>
        rw [hstep] at hread
        obtain rfl : outcome = .ok content := hread
        rfl
  listed step request above name haddresses haction hpermitted hnames := by
    rw [hnames] at hfile
    obtain ⟨entries, hlist, hname⟩ :=
      OperatingSystem.listDir_of_fileAt hsound hfile hpermitted
    refine ⟨entries, hname, ?_⟩
    rw [answer, haddresses.execute_eq, perform, haction]
    dsimp only
    cases hstep : step.os.listDir disk above.names with
    | mk outcome disk' =>
        rw [hstep] at hlist
        obtain rfl : outcome = .ok entries := hlist
        rfl

/-- What was written is read back.  In a session on a tree, whatever the system refuses
and whatever encodings fail, the text of a request that was granted is what the file
reads as and its directory lists the file, until the next request to write there. -/
theorem text_read_back (capability : FilesystemCapability) (cwd : ResolvedPath) (p : Pydantic)
    {disk : Disk} (hsound : Sound disk.tree) (before between : List FilesystemStep)
    {step : FilesystemStep} {request : FilesystemInput} {target : ResolvedPath}
    (haddresses : capability.Addresses cwd p step request target)
    (haction : request.action = .writeText) {result : CapabilityResult}
    (hgranted : capability.answer cwd p step (capability.after cwd p disk before) = .ok result)
    (hbetween : ∀ other ∈ between, ¬ capability.Writes cwd p other target.names) :
    ∃ bytes, step.os.encode request.encoding (request.content.getD "") = .ok bytes ∧
      Sound (capability.after cwd p disk (before ++ step :: between)).tree ∧
      ReadsBack capability cwd p (capability.after cwd p disk (before ++ step :: between))
        target bytes := by
  have hbefore := (after_kept capability cwd p before hsound).1
  have hwrote := perform_wrote step.os target step.context.taskName haction
    (capability.after cwd p disk before)
  rw [answer, haddresses.execute_eq] at hgranted
  obtain ⟨bytes, hencode, hfile⟩ := hwrote.done result hgranted
  rw [← haddresses.execute_eq] at hwrote hfile
  obtain ⟨hafter, hfiles⟩ := after_kept capability cwd p between (hwrote.sound hbefore)
  rw [after_append]
  exact ⟨bytes, hencode, hafter, readsBack_of_fileAt hafter ((hfiles _ hbetween).trans hfile)⟩

/-- A note at this place. -/
def noteStep (path content : String) : FilesystemStep :=
  ⟨openSystem, .request ⟨.writeText, path, some content, "utf-8"⟩, ⟨"t1", "write", "/"⟩⟩

theorem noteStep_writes_iff {cwd : ResolvedPath} {p : Pydantic} {capability : FilesystemCapability}
    {path content : String} {names : List String} :
    capability.Writes cwd p (noteStep path content) names ↔
      ∃ target, ensureLocalPath cwd path capability.basePath.toPath = .ok target ∧
        target.names = names := by
  constructor
  · rintro ⟨request, target, haddresses, -, hnames⟩
    obtain rfl : _ = request := Except.ok.inj haddresses.input
    exact ⟨target, haddresses.target, hnames⟩
  · rintro ⟨target, htarget, hnames⟩
    exact ⟨_, target, ⟨rfl, htarget⟩, rfl, hnames⟩

theorem workspace_place (path : String) (names : List String)
    (hplace : (ensureLocalPath ⟨[], by decide⟩ path workspace.basePath.toPath).toOption.map
      ResolvedPath.names = some names) :
    ∃ target, ensureLocalPath ⟨[], by decide⟩ path workspace.basePath.toPath = .ok target ∧
      target.names = names := by
  cases hlocal : ensureLocalPath ⟨[], by decide⟩ path workspace.basePath.toPath with
  | error e =>
      rw [hlocal] at hplace
      cases hplace
  | ok target =>
      rw [hlocal] at hplace
      exact ⟨target, rfl, Option.some.inj hplace⟩

/-- The first note is read back after the second one. -/
theorem text_read_back_notes : ∃ (target : ResolvedPath) (bytes : List UInt8),
    target.names = ["data", "work", "a.txt"] ∧
      workspace.ReadsBack ⟨[], by decide⟩ Pydantic.strict
        (workspace.after ⟨[], by decide⟩ Pydantic.strict ⟨[], []⟩
          [noteStep "a.txt" "x", noteStep "b.txt" "y"]) target bytes := by
  have hsound : FileTree.Sound ([] : FileTree) := by
    intro path q hthere hinitial hne
    have hroot : path = [] := by
      by_contra hpath
      simp [nodeAt, hpath] at hthere
    exact absurd (List.prefix_nil.mp (hroot ▸ hinitial)) (hroot ▸ hne)
  obtain ⟨target, htarget, hnames⟩ :=
    workspace_place "a.txt" ["data", "work", "a.txt"] (by decide +kernel)
  obtain ⟨place, hplace, hothernames⟩ :=
    workspace_place "b.txt" ["data", "work", "b.txt"] (by decide +kernel)
  have haddresses : workspace.Addresses _ Pydantic.strict (noteStep "a.txt" "x")
      ⟨.writeText, "a.txt", some "x", "utf-8"⟩ target := ⟨rfl, htarget⟩
  have hother : ∀ other ∈ [noteStep "b.txt" "y"],
      ¬ workspace.Writes ⟨[], by decide⟩ Pydantic.strict other target.names := by
    intro other hmem
    rw [List.mem_singleton.mp hmem, noteStep_writes_iff]
    rintro ⟨another, hanother, hsame⟩
    obtain rfl := Except.ok.inj (hplace.symm.trans hanother)
    rw [hothernames, hnames] at hsame
    exact absurd hsame (by decide)
  have hgranted : (workspace.answer ⟨[], by decide⟩ Pydantic.strict (noteStep "a.txt" "x")
      (workspace.after ⟨[], by decide⟩ Pydantic.strict ⟨[], []⟩ [])).isOk = true := by
    decide +kernel
  cases hresult : workspace.answer ⟨[], by decide⟩ Pydantic.strict (noteStep "a.txt" "x")
      (workspace.after ⟨[], by decide⟩ Pydantic.strict ⟨[], []⟩ []) with
  | error e =>
      rw [hresult] at hgranted
      cases hgranted
  | ok result =>
      obtain ⟨bytes, -, -, hread⟩ :=
        text_read_back workspace _ Pydantic.strict hsound [] [noteStep "b.txt" "y"] haddresses rfl
          hresult hother
      exact ⟨target, bytes, hnames, hread⟩

end FilesystemCapability

end Conductor
