/-
The filesystem capability, on a tree of files and directories.  The operating
system may refuse any operation, and the codecs are its own.
-/
import Conductor.Interfaces
import Conductor.Python.Assoc
import Conductor.Python.PosixPath
import Conductor.Python.Pydantic

namespace Conductor

inductive Node where
  | dir
  | file (content : List UInt8)
deriving DecidableEq, Repr

/-- The nodes below `/`, by the names on the way to them. -/
abbrev FileTree := List (List String × Node)

def nodeAt (tree : FileTree) (path : List String) : Option Node :=
  if path = [] then some .dir else tree.lookup path

/-- An access that took place. -/
inductive DiskAccess where
  | read (path : List String)
  | wrote (path : List String)
  | created (path : List String)
  | listed (path : List String)
deriving DecidableEq, Repr

structure Disk where
  tree : FileTree
  accesses : List DiskAccess

/-- Why an operation that could take place does not, and how texts stand for bytes in
an encoding, newlines included. -/
structure OperatingSystem where
  refuses : String → List String → Option PyExc
  encode : (encoding content : String) → Except PyExc (List UInt8)
  decode : (encoding : String) → List UInt8 → Except PyExc String

def noSuchPath : PyExc := .exception "FileNotFoundError" "[Errno 2] No such file or directory"

def notADirectory : PyExc := .exception "NotADirectoryError" "[Errno 20] Not a directory"

def isADirectory : PyExc := .exception "IsADirectoryError" "[Errno 21] Is a directory"

def fileExists : PyExc := .exception "FileExistsError" "[Errno 17] File exists"

/-- The way to a path: every proper part of it has to be a directory. -/
def walkTo (tree : FileTree) (path : List String) : Except PyExc Unit :=
  let blocked := path.dropLast.inits.findSome? fun above =>
    match nodeAt tree above with
    | some .dir => none
    | some (.file _) => some notADirectory
    | none => some noSuchPath
  match blocked with
  | some e => .error e
  | none => .ok ()

namespace OperatingSystem

variable (os : OperatingSystem)

/-- The operation goes through. -/
def permit (operation : String) (path : List String) : Except PyExc Unit :=
  match os.refuses operation path with
  | some e => .error e
  | none => .ok ()

/-- `os.mkdir(path)`. -/
def mkdir (disk : Disk) (path : List String) : Except PyExc Disk := do
  walkTo disk.tree path
  if (nodeAt disk.tree path).isSome then .error fileExists
  else do
    os.permit "mkdir" path
    .ok ⟨Assoc.insert path .dir disk.tree, disk.accesses ++ [.created path]⟩

/-- After an `OSError` of `mkdir`: what exists may be a directory. -/
def existOk (e : PyExc) (disk : Disk) (path : List String) : Except PyExc Unit × Disk :=
  if nodeAt disk.tree path = some .dir then (.ok (), disk) else (.error e, disk)

/-- `path.mkdir(parents=True, exist_ok=True)`, of the path whose names are these
from the last to the first. -/
def mkdirParents (disk : Disk) : List String → Except PyExc Unit × Disk
  | [] => existOk fileExists disk []
  | name :: above =>
      let path := (name :: above).reverse
      match os.mkdir disk path with
      | .ok disk => (.ok (), disk)
      | .error e =>
          if e.typeName = "FileNotFoundError" then
            match mkdirParents disk above with
            | (.error e, disk) => (.error e, disk)
            | (.ok (), disk) =>
                match os.mkdir disk path with
                | .ok disk => (.ok (), disk)
                | .error e =>
                    if e.typeName = "FileNotFoundError" then (.error e, disk)
                    else existOk e disk path
          else existOk e disk path

/-- `path.read_text(encoding)`. -/
def readText (disk : Disk) (path : List String) (encoding : String) :
    Except PyExc String × Disk :=
  match walkTo disk.tree path, nodeAt disk.tree path with
  | .error e, _ => (.error e, disk)
  | .ok (), none => (.error noSuchPath, disk)
  | .ok (), some .dir => (.error isADirectory, disk)
  | .ok (), some (.file content) =>
      match os.permit "read" path with
      | .error e => (.error e, disk)
      | .ok () => (os.decode encoding content, ⟨disk.tree, disk.accesses ++ [.read path]⟩)

/-- `path.write_text(content, encoding)`: the file is emptied before the content
is encoded. -/
def writeText (disk : Disk) (path : List String) (content encoding : String) :
    Except PyExc Unit × Disk :=
  match walkTo disk.tree path, nodeAt disk.tree path with
  | .error e, _ => (.error e, disk)
  | .ok (), some .dir => (.error isADirectory, disk)
  | .ok (), _ =>
      match os.permit "write" path with
      | .error e => (.error e, disk)
      | .ok () =>
          let accesses := disk.accesses ++ [.wrote path]
          match os.encode encoding content with
          | .error e => (.error e, ⟨Assoc.insert path (.file []) disk.tree, accesses⟩)
          | .ok bytes => (.ok (), ⟨Assoc.insert path (.file bytes) disk.tree, accesses⟩)

/-- The names in a directory. -/
def children (tree : FileTree) (path : List String) : List String :=
  tree.filterMap fun entry => if entry.1.dropLast = path then entry.1.getLast? else none

/-- `path.iterdir()`, by its names in order. -/
def listDir (disk : Disk) (path : List String) : Except PyExc (List String) × Disk :=
  match walkTo disk.tree path, nodeAt disk.tree path with
  | .error e, _ => (.error e, disk)
  | .ok (), none => (.error noSuchPath, disk)
  | .ok (), some (.file _) => (.error notADirectory, disk)
  | .ok (), some .dir =>
      match os.permit "list" path with
      | .error e => (.error e, disk)
      | .ok () =>
          (.ok ((children disk.tree path).insertionSort (· ≤ ·)),
            ⟨disk.tree, disk.accesses ++ [.listed path]⟩)

end OperatingSystem

/-- Resolve a path and reject traversal outside the configured root. -/
def ensureLocalPath (cwd : ResolvedPath) (path : String) (basePath : PurePath) :
    Except PyExc ResolvedPath :=
  let candidate := PurePath.parse path
  let resolved :=
    (if candidate.isAbsolute then candidate else basePath.join candidate).resolve cwd
  let root := basePath.resolve cwd
  if root.names.isPrefixOf resolved.names then .ok resolved
  else .error (.valueError ("Path '" ++ path ++ "' escapes the configured filesystem root"))

inductive FilesystemAction where
  | readText
  | writeText
  | listDir
deriving DecidableEq, Repr

structure FilesystemInput where
  action : FilesystemAction
  path : String
  content : Option String := none
  encoding : String := "utf-8"

def FilesystemAction.validate : Value → Except PyExc FilesystemAction
  | .str "read_text" => .ok readText
  | .str "write_text" => .ok writeText
  | .str "list_dir" => .ok listDir
  | _ => .error (.exception "ValidationError"
      "Input should be 'read_text', 'write_text' or 'list_dir'")

def FilesystemInput.modelValidate (p : Pydantic) (payload : Dict) :
    Except PyExc FilesystemInput := do
  let action ← Pydantic.required payload "action" FilesystemAction.validate
  let path ← Pydantic.required payload "path" p.str
  let content ← Pydantic.defaulted payload "content" none (Pydantic.orNone p.str)
  let encoding ← Pydantic.defaulted payload "encoding" "utf-8" p.str
  .ok ⟨action, path, content, encoding⟩

/-- A request, or a dict that is validated when it is executed. -/
inductive FilesystemPayload where
  | request (input : FilesystemInput)
  | dict (items : Dict)

def FilesystemPayload.input (p : Pydantic) : FilesystemPayload → Except PyExc FilesystemInput
  | request input => .ok input
  | dict items => FilesystemInput.modelValidate p items

structure FilesystemCapability where
  basePath : ResolvedPath

namespace FilesystemCapability

/-- `__init__`, with this `base_path`. -/
def new (cwd : ResolvedPath) (basePath : String) : FilesystemCapability :=
  ⟨(PurePath.parse basePath).resolve cwd⟩

variable (capability : FilesystemCapability) (cwd : ResolvedPath) (p : Pydantic)
variable (os : OperatingSystem)

def validateInput (payload : Dict) : Except PyExc FilesystemInput := do
  let request ← FilesystemInput.modelValidate p payload
  let _ ← ensureLocalPath cwd request.path capability.basePath.toPath
  .ok request

/-- The action of a request on its target. -/
def perform (taskName : String) (request : FilesystemInput) (target : ResolvedPath) (disk : Disk) :
    Except PyExc CapabilityResult × Disk :=
  match request.action with
  | .readText =>
      match os.readText disk target.names request.encoding with
      | (.error e, disk) => (.error e, disk)
      | (.ok content, disk) =>
          (.ok ⟨.dict [("path", .str target.str), ("content", .str content)], []⟩, disk)
  | .writeText =>
      match os.mkdirParents disk target.names.dropLast.reverse with
      | (.error e, disk) => (.error e, disk)
      | (.ok (), disk) =>
          let content := request.content.getD ""
          match os.writeText disk target.names content request.encoding with
          | (.error e, disk) => (.error e, disk)
          | (.ok (), disk) =>
              (.ok ⟨.dict [("path", .str target.str), ("bytes_written", .int content.utf8ByteSize)],
                [("actor", .str taskName)]⟩, disk)
  | .listDir =>
      match os.listDir disk target.names with
      | (.error e, disk) => (.error e, disk)
      | (.ok entries, disk) =>
          (.ok ⟨.dict [("path", .str target.str), ("entries", .list (entries.map .str))], []⟩, disk)

def execute (payload : FilesystemPayload) (context : CapabilityContext) (disk : Disk) :
    Except PyExc CapabilityResult × Disk :=
  match payload.input p with
  | .error e => (.error e, disk)
  | .ok request =>
      match ensureLocalPath cwd request.path capability.basePath.toPath with
      | .error e => (.error e, disk)
      | .ok target => perform os context.taskName request target disk

end FilesystemCapability

end Conductor
