/-
Paths of `pathlib` on a POSIX system without symbolic links: a path is read into
its parts, joined to another, and resolved by walking its parts.
-/
import Mathlib.Data.List.Infix
import Conductor.Python.Value

namespace Conductor

/-- A part of a path as `pathlib` keeps it. -/
def IsPart (part : String) : Prop := part ≠ "" ∧ part ≠ "." ∧ '/' ∉ part.toList

instance (part : String) : Decidable (IsPart part) := inferInstanceAs (Decidable (_ ∧ _))

/-- `root` is empty for a relative path. -/
structure PurePath where
  root : String
  parts : List String
  clean : ∀ part ∈ parts, IsPart part

/-- An absolute path without `..`, by the names on the way to it. -/
structure ResolvedPath where
  names : List String
  clean : ∀ name ∈ names, IsPart name ∧ name ≠ ".."

theorem ResolvedPath.ext {path path' : ResolvedPath} (hnames : path.names = path'.names) :
    path = path' := by
  cases path
  cases path'
  cases hnames
  rfl

/-- Two leading slashes are kept, more than two are not. -/
def rootOf : List Char → String
  | '/' :: '/' :: '/' :: _ => "/"
  | '/' :: '/' :: _ => "//"
  | '/' :: _ => "/"
  | _ => ""

/-- The parts between slashes, without the empty ones and `.`. -/
def partsOf (cs : List Char) : List String :=
  ((cs.splitOn '/').map String.ofList).filter fun part => part ≠ "" ∧ part ≠ "."

theorem not_mem_of_mem_splitOn {c : Char} {cs piece : List Char} (hpiece : piece ∈ cs.splitOn c) :
    c ∉ piece := by
  induction cs generalizing piece with
  | nil => simp_all
  | cons d rest ih =>
      rw [List.splitOn_cons_eq_if_modifyHead] at hpiece
      by_cases hd : d = c
      · simp only [hd, beq_self_eq_true, if_true, List.mem_cons] at hpiece
        rcases hpiece with rfl | hmem
        · exact List.not_mem_nil
        · exact ih hmem
      · rw [if_neg (by simpa using hd)] at hpiece
        cases hsplit : rest.splitOn c with
        | nil => exact absurd hsplit (List.splitOn_ne_nil c rest)
        | cons first others =>
            rw [hsplit, List.modifyHead_cons, List.mem_cons] at hpiece
            rcases hpiece with rfl | hmem
            · have hfirst := ih (hsplit ▸ List.mem_cons_self)
              simp [Ne.symm hd, hfirst]
            · exact ih (hsplit ▸ List.mem_cons_of_mem _ hmem)

theorem isPart_of_mem_partsOf {cs : List Char} {part : String} (hpart : part ∈ partsOf cs) :
    IsPart part := by
  obtain ⟨hmem, hkept⟩ := List.mem_filter.mp hpart
  obtain ⟨piece, hpiece, rfl⟩ := List.mem_map.mp hmem
  simp only [decide_eq_true_eq] at hkept
  refine ⟨hkept.1, hkept.2, ?_⟩
  rw [String.toList_ofList]
  exact not_mem_of_mem_splitOn hpiece

namespace PurePath

/-- `Path(text)`. -/
def parse (text : String) : PurePath :=
  ⟨rootOf text.toList, partsOf text.toList, fun _ => isPart_of_mem_partsOf⟩

def isAbsolute (path : PurePath) : Bool := path.root != ""

/-- `base / candidate`. -/
def join (base candidate : PurePath) : PurePath :=
  if candidate.isAbsolute then candidate
  else ⟨base.root, base.parts ++ candidate.parts, by
    intro part hpart
    rcases List.mem_append.mp hpart with hbase | hcandidate
    · exact base.clean part hbase
    · exact candidate.clean part hcandidate⟩

end PurePath

/-- Walk to a part: `..` leads to the directory above, which for the root is the
root itself. -/
def walkPart (names : List String) (part : String) : List String :=
  if part = ".." then names.dropLast else names ++ [part]

def walkParts (names parts : List String) : List String := parts.foldl walkPart names

theorem walkParts_clean {names parts : List String}
    (hnames : ∀ name ∈ names, IsPart name ∧ name ≠ "..") (hparts : ∀ part ∈ parts, IsPart part) :
    ∀ name ∈ walkParts names parts, IsPart name ∧ name ≠ ".." := by
  induction parts generalizing names with
  | nil => exact hnames
  | cons part rest ih =>
      obtain ⟨hpart, hrest⟩ := List.forall_mem_cons.mp hparts
      apply ih _ hrest
      intro name hname
      unfold walkPart at hname
      split at hname
      · exact hnames name (List.mem_of_mem_dropLast hname)
      · rename_i hdots
        rcases List.mem_append.mp hname with hmem | hlast
        · exact hnames name hmem
        · cases List.mem_singleton.mp hlast
          exact ⟨hpart, hdots⟩

/-- Parts without `..` are appended. -/
theorem walkParts_of_clean (names : List String) {parts : List String}
    (hparts : ∀ part ∈ parts, part ≠ "..") : walkParts names parts = names ++ parts := by
  induction parts generalizing names with
  | nil => simp [walkParts]
  | cons part rest ih =>
      obtain ⟨hpart, hrest⟩ := List.forall_mem_cons.mp hparts
      have hstep : walkPart names part = names ++ [part] := if_neg hpart
      rw [walkParts, List.foldl_cons, hstep, ← walkParts, ih _ hrest, List.append_assoc,
        List.singleton_append]

theorem walkParts_append (names parts more : List String) :
    walkParts names (parts ++ more) = walkParts (walkParts names parts) more :=
  List.foldl_append

/-- `path.resolve()` in this working directory. -/
def PurePath.resolve (cwd : ResolvedPath) (path : PurePath) : ResolvedPath :=
  if path.isAbsolute then
    ⟨walkParts [] path.parts, walkParts_clean (List.forall_mem_nil _) path.clean⟩
  else ⟨walkParts cwd.names path.parts, walkParts_clean cwd.clean path.clean⟩

namespace ResolvedPath

def toPath (path : ResolvedPath) : PurePath :=
  ⟨"/", path.names, fun name hname => (path.clean name hname).1⟩

/-- `str(path)`. -/
def str (path : ResolvedPath) : String :=
  String.ofList ('/' :: ['/'].intercalate (path.names.map String.toList))

theorem names_ne (path : ResolvedPath) : ∀ name ∈ path.names, name ≠ ".." :=
  fun name hname => (path.clean name hname).2

/-- A resolved path is not changed by resolving it again. -/
@[simp] theorem resolve_toPath (cwd path : ResolvedPath) : path.toPath.resolve cwd = path := by
  apply ResolvedPath.ext
  change walkParts [] path.names = path.names
  rw [walkParts_of_clean [] path.names_ne, List.nil_append]

theorem partsOf_str (path : ResolvedPath) : partsOf path.str.toList = path.names := by
  have hkept : path.names.filter (fun part => part ≠ "" ∧ part ≠ ".") = path.names := by
    apply List.filter_eq_self.mpr
    intro name hname
    have hclean := (path.clean name hname).1
    simp [hclean.1, hclean.2.1]
  have hslash : ∀ piece ∈ path.names.map String.toList, '/' ∉ piece := by
    intro piece hpiece
    obtain ⟨name, hname, rfl⟩ := List.mem_map.mp hpiece
    exact (path.clean name hname).1.2.2
  have hmap : (path.names.map String.toList).map String.ofList = path.names := by
    rw [List.map_map]
    exact List.map_id'' (fun name => String.ofList_toList) _
  unfold partsOf str
  rw [String.toList_ofList, List.splitOn_cons_eq_if_modifyHead, if_pos (beq_self_eq_true '/')]
  by_cases hnames : path.names = []
  · rw [hnames]
    rfl
  · rw [List.splitOn_intercalate '/' hslash (by simpa using hnames), List.map_cons, hmap,
      List.filter_cons]
    simpa using hkept

theorem isAbsolute_str (path : ResolvedPath) : (PurePath.parse path.str).isAbsolute = true := by
  change (rootOf path.str.toList != "") = true
  rw [str, String.toList_ofList]
  unfold rootOf
  split <;> simp_all

/-- The text of a resolved path leads to the path. -/
theorem walkParts_parse_str (path : ResolvedPath) :
    walkParts [] (PurePath.parse path.str).parts = path.names := by
  change walkParts [] (partsOf path.str.toList) = path.names
  rw [partsOf_str, walkParts_of_clean [] path.names_ne, List.nil_append]

/-- The path is this directory, or it lies below it. -/
def Under (root : ResolvedPath) (names : List String) : Prop := root.names <+: names

instance (root : ResolvedPath) (names : List String) : Decidable (root.Under names) :=
  inferInstanceAs (Decidable (_ <+: _))

end ResolvedPath

example : ((PurePath.parse "a//./b/../../../c").resolve ⟨["data", "work"], by decide⟩).names =
    ["data", "c"] := by
  decide +kernel

end Conductor
