/-
The memory provider over the memU service, and the scope under which it stores
documents and asks for them.  The service is a third party: it may do anything,
and it is known by the calls that it is sent.
-/
import Mathlib.Algebra.Group.Nat.Defs
import Conductor.Effects.Invariant
import Conductor.Python.Access

namespace Conductor

open Effects Block

/-- A float by its text, or the float nearest to an integer. -/
inductive Score where
  | float (repr : String)
  | ofInt (n : Int)
deriving DecidableEq, Repr

structure MemoryDocument where
  externalId : String
  nameSpace : String
  content : String
  metadata : Dict := []

structure MemoryQuery where
  query : String
  namespaces : List String := []
  limit : Int := 5
  metadataFilters : Dict := []

structure MemoryHit where
  externalId : String
  content : String
  metadata : Dict
  score : Option Score

/-- The calls of the provider: to the service, and for the file that holds the
content of a document without a source. -/
inductive MemoryCall where
  | memorize (resourceUrl modality : String) (user : Option Dict)
  | retrieve (queries : List Dict) (filter : Option Dict)
  | writeTemp (content : String)
  | pathExists (path : String)
  | unlink (path : String)

namespace MemoryCall

/-- What each call returns. -/
abbrev Answer : MemoryCall → Type
  | memorize _ _ _ | retrieve _ _ => Value
  | writeTemp _ => String
  | pathExists _ => Bool
  | unlink _ => Unit

end MemoryCall

abbrev MemoryReply := Reply MemoryCall.Answer PyExc

abbrev MemoryBlock := Block MemoryCall MemoryCall.Answer PyExc Unit

/-- `d or None`. -/
def Dict.orNone (d : Dict) : Option Dict := if d.isEmpty then none else some d

structure MemUProvider where
  scope : Dict := []

namespace MemUProvider

variable (provider : MemUProvider)

/-- The scope that a document brings along in its metadata. -/
def documentScope (document : MemoryDocument) : Dict :=
  match document.metadata.lookup "scope" with
  | some (.dict scope) => scope
  | _ => []

def userScope (document : MemoryDocument) : Dict :=
  Dict.update (Dict.insert "namespace" (.str document.nameSpace) provider.scope)
    (documentScope document)

/-- The file to be removed afterwards, if it is still there. -/
def removeTemp : Option String → MemoryBlock Unit
  | none => pure ()
  | some path => do
      let found ← perform (.pathExists path)
      if found then perform (MemoryCall.unlink path) else pure ()

/-- `str(source_path) if source_path else ""`. -/
def sourceUrl (document : MemoryDocument) : Except PyExc String :=
  let sourcePath := (document.metadata.lookup "source_path").getD .none
  if sourcePath.truthy then sourcePath.asStr else .ok ""

/-- Where the content of the document lies, and the file that was made for it. -/
def resource (document : MemoryDocument) : MemoryBlock (String × Option String) := do
  let resourceUrl ← ofExcept (sourceUrl document)
  if resourceUrl = "" then do
    let path ← perform (.writeTemp document.content)
    pure (path, some path)
  else pure (resourceUrl, none)

def memorizeDocument (document : MemoryDocument) : MemoryBlock Dict := do
  let modality ← ofExcept ((document.metadata.lookup "modality").getD (.str "document")).asStr
  let (resourceUrl, cleanupPath) ← resource document
  let user := (provider.userScope document).orNone
  let raw ← tryFinally (perform (.memorize resourceUrl modality user)) (removeTemp cleanupPath)
  pure [("external_id", .str document.externalId), ("namespace", .str document.nameSpace),
    ("raw", raw)]

def memorize : List MemoryDocument → MemoryBlock (List Dict)
  | [] => pure []
  | document :: rest => do
      let result ← provider.memorizeDocument document
      let results ← memorize rest
      pure (result :: results)

/-- An entry of the answer, with the bucket and the place in it. -/
structure Place where
  bucket : String
  index : Nat
  entry : Dict

def bucketPlaces (raw : Dict) (bucket : String) : List Place :=
  match raw.lookup bucket with
  | some (.list entries) =>
      entries.zipIdx.filterMap fun
        | (.dict entry, index) => some ⟨bucket, index, entry⟩
        | _ => none
  | _ => []

/-- The entries in the order in which they are read; what is not a dict is
passed over. -/
def places (raw : Dict) : List Place :=
  ["items", "categories", "resources"].flatMap (bucketPlaces raw)

/-- The values of these keys that the entry has. -/
def valuesOf (entry : Dict) (fields : List String) : List Value := fields.filterMap (entry.lookup ·)

def idFields : List String := ["external_id", "id", "item_id", "category_id", "resource_id"]

def extractExternalId (place : Place) : Except PyExc String :=
  match (valuesOf place.entry idFields).find? Value.truthy with
  | some value => value.asStr
  | none => .ok (place.bucket ++ ":" ++ toString place.index)

/-- A text that is not blank. -/
def textOf : Value → Option String
  | .str text => if isBlank text then none else some text
  | _ => none

def contentFields : List String := ["content", "text", "summary", "description", "title"]

def extractContent (entry : Dict) : Except PyExc String :=
  match (valuesOf entry contentFields).findSome? textOf with
  | some text => .ok text
  | none => Json.dumps .oneLine true (.dict entry)

/-- `float(n)` is refused from here on: the float nearest to `n` is infinite. -/
def floatLimit : Nat := 2 ^ 1024 - 2 ^ 970

/-- `float(value)`, of a number. -/
def toFloat : Value → Option (Except PyExc Score)
  | .bool b => some (.ok (.ofInt (if b then 1 else 0)))
  | .int n => some (
      if floatLimit ≤ n.natAbs then
        .error (.exception "OverflowError" "int too large to convert to float")
      else .ok (.ofInt n))
  | .float repr => some (.ok (.float repr))
  | _ => none

def scoreFields : List String := ["score", "similarity"]

def extractScore (entry : Dict) : Except PyExc (Option Score) :=
  match (valuesOf entry scoreFields).findSome? toFloat with
  | some score => score.map some
  | none => .ok none

/-- The metadata of an entry with this field of it taken over. -/
def takeField (entry metadata : Dict) (field : String) : Dict :=
  match entry.lookup field with
  | some (.dict items) =>
      if field = "metadata" then Dict.update metadata items
      else Dict.insert field (.dict items) metadata
  | _ => metadata

/-- The namespace is set to that of these items, unless it is set already. -/
def takeNamespace (items metadata : Dict) : Dict :=
  match items.lookup "namespace", metadata.lookup "namespace" with
  | some space, none => Dict.insert "namespace" space metadata
  | _, _ => metadata

def extractMetadata (entry : Dict) : Dict :=
  let metadata := ["metadata", "user", "scope", "resource"].foldl (takeField entry) []
  let metadata := takeNamespace entry metadata
  match metadata.lookup "user" with
  | some (.dict user) => takeNamespace user metadata
  | _ => metadata

def hitAt (place : Place) : Except PyExc MemoryHit := do
  let metadata := extractMetadata place.entry
  let externalId ← extractExternalId place
  let content ← extractContent place.entry
  let score ← extractScore place.entry
  pure ⟨externalId, content, metadata, score⟩

/-- The results of a step for each of the values, until it fails. -/
def each {α β : Type} (step : α → Except PyExc β) : List α → Except PyExc (List β)
  | [] => .ok []
  | value :: rest => do
      let result ← step value
      let results ← each step rest
      pure (result :: results)

def normalizeHits : Value → Except PyExc (List MemoryHit)
  | .dict raw => each hitAt (places raw)
  | raw => .error (.exception "AttributeError"
      (pyRepr raw.typeName ++ " object has no attribute 'get'"))

/-- `value in namespaces`, of a value that may be missing. -/
def among (namespaces : List String) : Option Value → Bool
  | some (.str space) => namespaces.contains space
  | _ => false

/-- The hit has its namespace or that of its user among the requested ones. -/
def requested (namespaces : List String) (hit : MemoryHit) : Except PyExc Bool :=
  if among namespaces (hit.metadata.lookup "namespace") then .ok true
  else
    (((hit.metadata.lookup "user").getD (.dict [])).getItem "namespace").map (among namespaces)

/-- The values of which the condition holds, unless it fails of one. -/
def keepThose {α : Type} (condition : α → Except PyExc Bool) : List α → Except PyExc (List α)
  | [] => .ok []
  | value :: rest => do
      let kept ← condition value
      let others ← keepThose condition rest
      pure (if kept then value :: others else others)

/-- The hits of the requested namespaces, or all of them if none is requested. -/
def requestedHits (namespaces : List String) (hits : List MemoryHit) :
    Except PyExc (List MemoryHit) :=
  if namespaces.isEmpty then .ok hits else keepThose (requested namespaces) hits

/-- The hits that a query takes from an answer. -/
def selectHits (query : MemoryQuery) (raw : Value) : Except PyExc (List MemoryHit) := do
  let hits ← normalizeHits raw
  let hits ← requestedHits query.namespaces hits
  pure (sliceTo query.limit hits)

/-- The filter of a query. -/
def filterOf (query : MemoryQuery) : Dict :=
  let filter := Dict.update provider.scope query.metadataFilters
  if query.namespaces.isEmpty then filter
  else Dict.insert "namespace__in" (.list (query.namespaces.map .str)) filter

/-- The call that asks the service. -/
def question (query : MemoryQuery) : MemoryCall :=
  .retrieve [[("role", .str "user"), ("content", .dict [("text", .str query.query)])]]
    (provider.filterOf query).orNone

def retrieve (query : MemoryQuery) : MemoryBlock (List MemoryHit) := do
  let raw ← perform (provider.question query)
  ofExcept (selectHits query raw)

end MemUProvider

end Conductor
