/-
The file-backed API key store: the entries it holds in memory, and the calls by
which it follows a file that other processes may replace.
-/
import Conductor.Effects.Block
import Conductor.Python.Access

namespace Conductor

open Effects Block

/-- A single API key, without the raw secret.  The fields hold what the file
gave, of whatever type. -/
structure ApiKeyEntry where
  keyHash : String
  keyPrefix : Value
  actor : Value
  scopes : Value
  createdAt : Value
  lastUsedAt : Value
  revoked : Value

namespace ApiKeyEntry

/-- `not entry.revoked`. -/
def active (entry : ApiKeyEntry) : Bool := !entry.revoked.truthy

def toDict (entry : ApiKeyEntry) : Value :=
  .dict [("prefix", entry.keyPrefix), ("actor", entry.actor), ("scopes", entry.scopes),
    ("created_at", entry.createdAt), ("last_used_at", entry.lastUsedAt),
    ("revoked", entry.revoked)]

end ApiKeyEntry

/-- A `dict[str, ApiKeyEntry]`. -/
abbrev Entries := List (String × ApiKeyEntry)

namespace Entries

/-- `entries[key_hash] = entry`. -/
def insert (keyHash : String) (entry : ApiKeyEntry) : Entries → Entries
  | [] => [(keyHash, entry)]
  | (h, e) :: rest =>
      if h = keyHash then (h, entry) :: rest else (h, e) :: insert keyHash entry rest

/-- A change of the entry with this hash, which the dict shares. -/
def modify (keyHash : String) (f : ApiKeyEntry → ApiKeyEntry) (entries : Entries) : Entries :=
  entries.map fun item => if item.1 = keyHash then (item.1, f item.2) else item

end Entries

/-- `st_mtime`, in ticks since the epoch. -/
abbrev Mtime := Nat

/-- `hasPath` says whether `_path` is not `None`; `lastMtime` is `none` as long
as the attribute does not exist. -/
structure ApiKeyStore where
  hasPath : Bool
  entries : Entries
  dirty : Bool
  lastMtime : Option Mtime

/-- The calls of a key store: to its file, to the temporary file beside it, to
the clock and to the source of secrets. -/
inductive KeyCall where
  | pathExists
  | stat
  | readText
  | mkdir
  | writeTmp (text : String)
  | replaceTmp
  | nowIso
  | tokenHex

abbrev KeyResponse : KeyCall → Type
  | .pathExists => Bool
  | .stat => Mtime
  | .readText | .nowIso | .tokenHex => String
  | .mkdir | .writeTmp _ | .replaceTmp => Unit

abbrev KeyAnswer := Reply KeyResponse PyExc

abbrev KeyBlock := Block KeyCall KeyResponse PyExc ApiKeyStore

namespace ApiKeyStore

def empty : ApiKeyStore := ⟨false, [], false, none⟩

def hasKeys (store : ApiKeyStore) : Bool := store.entries.any (·.2.active)

/-- Authentication is enforced when keys exist. -/
def enabled (store : ApiKeyStore) : Bool := store.hasKeys

/-- `created_at or _now_iso()`. -/
def createdAtOrNow (createdAt : Value) : KeyBlock Value :=
  if createdAt.truthy then pure createdAt
  else do
    let now ← perform .nowIso
    pure (.str now)

/-- `ApiKeyEntry.from_dict(key_hash, data)`. -/
def fromDict (keyHash : String) (data : Value) : KeyBlock ApiKeyEntry := do
  let keyPrefix ← ofExcept (data.subscript "prefix")
  let createdAt ← createdAtOrNow (data.get "created_at" .none)
  pure {
    keyHash := keyHash
    keyPrefix := keyPrefix
    actor := data.get "actor" (.str "api")
    scopes := (data.get "scopes" (.list [.str "*"])).orElse (.list [.str "*"])
    createdAt := createdAt
    lastUsedAt := data.get "last_used_at" .none
    revoked := data.get "revoked" (.bool false) }

/-- The dict comprehension over `data.items()`. -/
def fromItems : Dict → KeyBlock Entries
  | [] => pure []
  | (keyHash, data) :: rest => do
      let entry ← fromDict keyHash data
      let entries ← fromItems rest
      pure ((keyHash, entry) :: entries)

def catchesLoad (e : PyExc) : Bool :=
  e.typeName == "JSONDecodeError" || e.typeName == "KeyError"

def load : KeyBlock Unit := do
  let found ← perform .pathExists
  if found then
    tryExcept catchesLoad
      (do
        let raw ← perform .readText
        let data ← ofExcept (Json.loads raw)
        let items ← ofExcept data.items
        let entries ← fromItems items
        mutate fun store => { store with entries := entries })
      fun _ => mutate fun store => { store with entries := [] }
  else
    mutate fun store => { store with entries := [] }

/-- `except OSError`, as far as `stat` raises its subclasses. -/
def catchesStat (e : PyExc) : Bool :=
  e.typeName == "FileNotFoundError" || e.typeName == "PermissionError" ||
    e.typeName == "OSError"

/-- `stat().st_mtime`, or `none` where it raised an `OSError`. -/
def currentMtime : KeyBlock (Option Mtime) :=
  tryExcept catchesStat
    (do
      let mtime ← perform .stat
      pure (some mtime))
    fun _ => pure none

def reloadIfChanged : KeyBlock Unit := do
  let store ← object
  if store.hasPath then
    let found ← perform .pathExists
    if found then
      match ← currentMtime with
      | none => pure ()
      | some mtime =>
          mutate fun store => { store with lastMtime := some (store.lastMtime.getD 0) }
          if store.lastMtime.getD 0 < mtime then
            load
            mutate fun store => { store with lastMtime := some mtime }

/-- Look up a raw key; `none` if it is unknown or revoked. -/
def lookup (sha256Hex : String → String) (rawKey : String) :
    KeyBlock (Option ApiKeyEntry) := do
  reloadIfChanged
  let keyHash := sha256Hex rawKey
  let store ← object
  match store.entries.lookup keyHash with
  | none => pure none
  | some entry =>
      if entry.active then do
        let now ← perform .nowIso
        let used (entry : ApiKeyEntry) := { entry with lastUsedAt := .str now }
        mutate fun store => { store with entries := store.entries.modify keyHash used }
        pure (some (used entry))
      else pure none

def save : KeyBlock Unit := do
  let store ← object
  if store.hasPath then
    perform KeyCall.mkdir
    let data := store.entries.map fun item => (item.1, item.2.toDict)
    let text ← ofExcept (Json.dumps (.indented 2) false (.dict data))
    perform (KeyCall.writeTmp text)
    perform KeyCall.replaceTmp

/-- Create a key and return it with its entry. -/
def generate (sha256Hex : String → String) (actor : String) (scopes : Option (List String)) :
    KeyBlock (String × ApiKeyEntry) := do
  let token ← perform .tokenHex
  let raw := "cond_" ++ token
  let keyHash := sha256Hex raw
  let createdAt ← createdAtOrNow .none
  let entry : ApiKeyEntry := {
    keyHash := keyHash
    keyPrefix := .str (String.ofList (raw.toList.take 12))
    actor := .str actor
    scopes := Value.orElse (match scopes with
      | some scopes => .list (scopes.map .str)
      | none => .none) (.list [.str "*"])
    createdAt := createdAt
    lastUsedAt := .none
    revoked := .bool false }
  mutate fun store => { store with entries := Entries.insert keyHash entry store.entries }
  mutate fun store => { store with dirty := true }
  save
  pure (raw, entry)

/-- Persist usage timestamps to disk. -/
def flushUsage : KeyBlock Unit := do
  let store ← object
  if store.dirty then
    save
    mutate fun store => { store with dirty := false }

/-- Revoke a key by its hash; `false` if it is not found. -/
def revoke (keyHash : String) : KeyBlock Bool := do
  let store ← object
  match store.entries.lookup keyHash with
  | none => pure false
  | some _ =>
      let revoked (entry : ApiKeyEntry) := { entry with revoked := .bool true }
      mutate fun store => { store with entries := store.entries.modify keyHash revoked }
      mutate fun store => { store with dirty := true }
      save
      pure true

end ApiKeyStore

end Conductor
