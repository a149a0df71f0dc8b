/-
The two guild stores, in memory and in a JSON file, and what both promise: they
hold records under the keys of their fingerprints.
-/
import Conductor.Guild.Records

namespace Conductor

open Json

/-- The arguments of `list`. -/
structure GuildQuery where
  capability : Option String
  errorType : Option String
  role : Option String
  limit : Option Int
  offset : Int

namespace GuildQuery

def all : GuildQuery := ⟨none, none, none, none, 0⟩

def ofRole (role : String) : GuildQuery := { all with role := some role }

end GuildQuery

/-- The records that have this value, if one is asked for. -/
def filterField {α β : Type} [DecidableEq β] (wanted : Option β) (field : α → β)
    (records : List α) : List α :=
  match wanted with
  | none => records
  | some value => records.filter fun r => field r = value

/-- `_filter_records`. -/
def filterGuildRecords (q : GuildQuery) (records : List GuildRecord) : List GuildRecord :=
  let records := filterField q.capability (fun r => r.fingerprint.capability) records
  let records := filterField q.errorType (fun r => r.fingerprint.errorType) records
  let records := filterField (q.role.map some) (fun r => r.role) records
  page q.offset q.limit records

@[simp] theorem filterGuildRecords_all (records : List GuildRecord) :
    filterGuildRecords .all records = records := rfl

/-- The operations of a guild store on its state.  One that raises leaves the
state as it was. -/
structure GuildStore (S : Type) where
  save : GuildRecord → S → Except PyExc S
  get : FailureFingerprint → S → Except PyExc (Option GuildRecord)
  list : GuildQuery → S → Except PyExc (List GuildRecord)
  delete : FailureFingerprint → S → Except PyExc (Bool × S)
  clear : S → S

/-- Records by key.  They are immutable here, so a deep copy is the record. -/
structure MemoryGuildStore where
  records : List (String × GuildRecord)

namespace MemoryGuildStore

def empty : MemoryGuildStore := ⟨[]⟩

def save (record : GuildRecord) (store : MemoryGuildStore) : MemoryGuildStore :=
  ⟨Assoc.insert record.key record store.records⟩

def get (fingerprint : FailureFingerprint) (store : MemoryGuildStore) : Option GuildRecord :=
  store.records.lookup fingerprint.toKey

def list (q : GuildQuery) (store : MemoryGuildStore) : List GuildRecord :=
  filterGuildRecords q (store.records.map (·.2))

def delete (fingerprint : FailureFingerprint) (store : MemoryGuildStore) :
    Bool × MemoryGuildStore :=
  if fingerprint.toKey ∈ Assoc.keys store.records then
    (true, ⟨Assoc.erase fingerprint.toKey store.records⟩)
  else (false, store)

def clear (_ : MemoryGuildStore) : MemoryGuildStore := ⟨[]⟩

def operations : GuildStore MemoryGuildStore where
  save record store := .ok (save record store)
  get fingerprint store := .ok (get fingerprint store)
  list q store := .ok (list q store)
  delete fingerprint store := .ok (delete fingerprint store)
  clear := clear

end MemoryGuildStore

/-- The text in the file of the store, or `none` where there is no file. -/
abbrev GuildFile := Option String

namespace LocalGuildStore

variable (p : Pydantic)

def save (record : GuildRecord) (file : GuildFile) : Except PyExc GuildFile :=
  (savedText (GuildRecord.codec p) record.key record file).map some

/-- The record of a raw entry of the payload. -/
def validated : Option Value → Except PyExc (Option GuildRecord)
  | none | some .none => .ok none
  | some raw => (GuildRecord.modelValidate p raw).map some

def get (fingerprint : FailureFingerprint) (file : GuildFile) :
    Except PyExc (Option GuildRecord) := do
  let payload ← readPayload file
  let raw ← payload.getItem fingerprint.toKey
  validated p raw

def list (q : GuildQuery) (file : GuildFile) : Except PyExc (List GuildRecord) := do
  let payload ← readPayload file
  let items ← payload.items
  let records ← items.mapM fun entry => GuildRecord.modelValidate p entry.2
  return filterGuildRecords q records

def delete (fingerprint : FailureFingerprint) (file : GuildFile) :
    Except PyExc (Bool × GuildFile) :=
  (deletedText fingerprint.toKey file).map fun
    | some text => (true, some text)
    | none => (false, file)

def clear (_ : GuildFile) : GuildFile := none

def operations : GuildStore GuildFile where
  save := save p
  get := get p
  list := list p
  delete := delete
  clear := clear

end LocalGuildStore

/-- Each record is filed under the key of its own fingerprint, once. -/
structure Filed (records : List (String × GuildRecord)) : Prop where
  nodup : (Assoc.keys records).Nodup
  keyed : ∀ item ∈ records, item.1 = item.2.key

namespace Filed

theorem nil : Filed [] := ⟨List.nodup_nil, List.forall_mem_nil _⟩

variable {records records' : List (String × GuildRecord)}

theorem insert (hfiled : Filed records) (record : GuildRecord) :
    Filed (Assoc.insert record.key record records) := by
  refine ⟨Assoc.nodup_insert hfiled.nodup, fun item hitem => ?_⟩
  rcases Assoc.mem_insert hitem with hold | rfl
  · exact hfiled.keyed item hold
  · rfl

theorem erase (hfiled : Filed records) (key : String) : Filed (Assoc.erase key records) :=
  ⟨Assoc.nodup_erase hfiled.nodup,
    fun item hitem => hfiled.keyed item ((Assoc.erase_sublist key records).subset hitem)⟩

theorem perm (hfiled : Filed records) (hperm : records'.Perm records) : Filed records' :=
  ⟨(hperm.map _).nodup_iff.mpr hfiled.nodup,
    fun item hitem => hfiled.keyed item (hperm.mem_iff.mp hitem)⟩

theorem key_of_lookup (hfiled : Filed records) {key : String} {record : GuildRecord}
    (hlookup : records.lookup key = some record) : record.key = key :=
  (hfiled.keyed _ (Assoc.mem_of_lookup hlookup)).symm

end Filed

/-- What a guild store promises for the records it admits.  `Holds` says which
records a state holds, in which order is left open; reading a record does `f`
to its dicts. -/
structure GuildStore.Lawful {S : Type} (store : GuildStore S) (admits : GuildRecord → Prop)
    (f : Dict → Dict) (Holds : S → List (String × GuildRecord) → Prop) : Prop where
  filed : ∀ {s records}, Holds s records → Filed records
  save : ∀ {s records record}, Holds s records → admits record →
    ∃ s' records', store.save record s = .ok s' ∧ Holds s' records' ∧
      records'.Perm (Assoc.insert record.key record records)
  get : ∀ {s records} (fingerprint), Holds s records →
    store.get fingerprint s = .ok ((records.lookup fingerprint.toKey).map (.mapDicts f))
  list : ∀ {s records} (q), Holds s records →
    store.list q s = .ok (filterGuildRecords q (records.map fun item => item.2.mapDicts f))
  delete : ∀ {s records} (fingerprint), Holds s records →
    ∃ s' records', store.delete fingerprint s =
        .ok (decide (fingerprint.toKey ∈ Assoc.keys records), s') ∧ Holds s' records' ∧
      records'.Perm (Assoc.erase fingerprint.toKey records)
  clear : ∀ {s records}, Holds s records → Holds (store.clear s) []

namespace MemoryGuildStore

/-- The store in memory admits every record and returns it as it was saved. -/
theorem lawful : operations.Lawful (fun _ => True) id
    fun store records => store.records = records ∧ Filed records where
  filed hholds := hholds.2
  save := by
    rintro store records record ⟨rfl, hfiled⟩ -
    exact ⟨_, _, rfl, ⟨rfl, hfiled.insert record⟩, .refl _⟩
  get := by
    rintro store records fingerprint ⟨rfl, hfiled⟩
    change Except.ok (store.records.lookup fingerprint.toKey) = _
    cases store.records.lookup fingerprint.toKey <;> rfl
  list := by
    rintro store records q ⟨rfl, hfiled⟩
    simp [operations, list]
  delete := by
    rintro store records fingerprint ⟨rfl, hfiled⟩
    by_cases hkey : fingerprint.toKey ∈ Assoc.keys store.records
    · refine ⟨_, _, ?_, ⟨rfl, hfiled.erase fingerprint.toKey⟩, .refl _⟩
      simp [operations, delete, hkey]
    · refine ⟨store, _, ?_, ⟨rfl, hfiled⟩, ?_⟩
      · simp [operations, delete, hkey]
      · rw [Assoc.erase_of_not_mem hkey]
  clear _ := ⟨rfl, .nil⟩

end MemoryGuildStore

namespace LocalGuildStore

/-- The file holds these guild records, and reading one does `f` to its dicts. -/
def HoldsAs (p : Pydantic) (f : Dict → Dict) (file : GuildFile)
    (records : List (String × GuildRecord)) : Prop :=
  FileHolds (GuildRecord.codec p) (.mapDicts f) file records ∧ Filed records

/-- The file holds these guild records with the keys of their dicts sorted. -/
def Holds (p : Pydantic) : GuildFile → List (String × GuildRecord) → Prop :=
  HoldsAs p sortedDict

theorem holdsAs_missing (p : Pydantic) (f : Dict → Dict) : HoldsAs p f none [] := ⟨.missing, .nil⟩

theorem holds_missing (p : Pydantic) : Holds p none [] := holdsAs_missing p _

section

variable {p : Pydantic} {f : Dict → Dict} {file : GuildFile}
variable {records : List (String × GuildRecord)}

/-- A record is saved, and the file is in the order of the keys. -/
theorem HoldsAs.saved {record : GuildRecord} (hholds : HoldsAs p f file records)
    (hrecord : (GuildRecord.codec p).RoundTrips (.mapDicts f) record) :
    ∃ file', (operations p).save record file = .ok file' ∧
      HoldsAs p f file' (byKey (Assoc.insert record.key record records)) := by
  obtain ⟨hfile, hfiled⟩ := hholds
  obtain ⟨text, htext, hfile'⟩ := hfile.saved hrecord
  refine ⟨some text, ?_, hfile', (hfiled.insert record).perm (byKey_perm _)⟩
  change (savedText _ record.key record file).map some = _
  rw [htext]
  rfl

/-- A record that is there is deleted, and the file is in the order of the keys. -/
theorem HoldsAs.deleted {fingerprint : FailureFingerprint} (hholds : HoldsAs p f file records)
    (hkey : fingerprint.toKey ∈ Assoc.keys records) :
    ∃ file', (operations p).delete fingerprint file = .ok (true, file') ∧
      HoldsAs p f file' (byKey (Assoc.erase fingerprint.toKey records)) := by
  obtain ⟨hfile, hfiled⟩ := hholds
  obtain ⟨text, htext, hfile'⟩ := hfile.deleted hkey
  refine ⟨some text, ?_, hfile', (hfiled.erase _).perm (byKey_perm _)⟩
  change (deletedText fingerprint.toKey file).map _ = _
  rw [htext]
  rfl

theorem HoldsAs.not_deleted {fingerprint : FailureFingerprint}
    (hholds : HoldsAs p f file records) (hkey : fingerprint.toKey ∉ Assoc.keys records) :
    (operations p).delete fingerprint file = .ok (false, file) := by
  change (deletedText fingerprint.toKey file).map _ = _
  rw [hholds.1.not_deleted hkey]
  rfl

/-- The store in a file admits the records that come back from their dumps. -/
theorem lawfulAs {admits : GuildRecord → Prop}
    (hback : ∀ record, admits record → (GuildRecord.codec p).RoundTrips (.mapDicts f) record) :
    (operations p).Lawful admits f (HoldsAs p f) where
  filed hholds := hholds.2
  save hholds hrecord := by
    obtain ⟨file', hsave, hholds'⟩ := hholds.saved (hback _ hrecord)
    exact ⟨file', _, hsave, hholds', byKey_perm _⟩
  get := by
    rintro file records fingerprint ⟨⟨hnodup, payload, hread, hitems⟩, hfiled⟩
    change get p fingerprint file = _
    unfold get
    rw [bind_of_ok hread]
    change validated p (payload.lookup fingerprint.toKey) = _
    cases hlookup : records.lookup fingerprint.toKey with
    | none =>
        rw [lookup_none_of_forall₂ hitems hlookup]
        rfl
    | some record =>
        obtain ⟨raw, hraw, hstands⟩ := lookup_of_forall₂ hitems hlookup
        obtain ⟨items, -, -, -, rfl⟩ := hstands.dump
        rw [hraw]
        have hvalidated : GuildRecord.modelValidate p (.dict (sortedDict items)) = _ :=
          hstands.validate
        change (GuildRecord.modelValidate p (.dict (sortedDict items))).map some = _
        rw [hvalidated]
        rfl
  list := by
    rintro file records q ⟨⟨hnodup, payload, hread, hitems⟩, hfiled⟩
    change list p q file = _
    have hitemsOf : (Value.dict payload).items = .ok payload := rfl
    have hvalidated : payload.mapM (fun entry => GuildRecord.modelValidate p entry.2) = _ :=
      validate_of_forall₂ hitems
    unfold list
    rw [bind_of_ok hread, bind_of_ok hitemsOf, bind_of_ok hvalidated]
    rfl
  delete fingerprint hholds := by
    rename_i file records
    by_cases hkey : fingerprint.toKey ∈ Assoc.keys records
    · obtain ⟨file', hdelete, hholds'⟩ := hholds.deleted hkey
      rw [decide_eq_true hkey]
      exact ⟨file', _, hdelete, hholds', byKey_perm _⟩
    · rw [decide_eq_false hkey, Assoc.erase_of_not_mem hkey]
      exact ⟨file, records, hholds.not_deleted hkey, hholds, .refl _⟩
  clear _ := holdsAs_missing p f

end

/-- What JSON can carry is returned with the keys of its dicts sorted. -/
theorem lawful {p : Pydantic} (hp : p.Lawful) :
    (operations p).Lawful GuildRecord.Serialisable sortedDict (Holds p) :=
  lawfulAs fun _ hrecord => GuildRecord.roundTrips hp hrecord

/-- What can be dumped is returned as it was dumped. -/
theorem lawful_dumped {p : Pydantic} (hp : p.Lawful) :
    (operations p).Lawful (GuildRecord.Dumpable p) p.dumped (HoldsAs p p.dumped) :=
  lawfulAs fun _ hrecord => GuildRecord.roundTrips_dumped hp hrecord

/-- The file holds these records in the order of their keys. -/
structure HoldsInOrder (p : Pydantic) (file : GuildFile) (records : List (String × GuildRecord)) :
    Prop where
  holds : Holds p file records
  inOrder : records.Pairwise fun item item' => item.1 ≤ item'.1

theorem holdsInOrder_missing (p : Pydantic) : HoldsInOrder p none [] :=
  ⟨holds_missing p, List.Pairwise.nil⟩

/-- The store keeps the order. -/
theorem lawful_inOrder {p : Pydantic} (hp : p.Lawful) :
    (operations p).Lawful GuildRecord.Serialisable sortedDict (HoldsInOrder p) where
  filed hholds := hholds.holds.2
  save hholds hrecord := by
    obtain ⟨file', hsave, hholds'⟩ := hholds.holds.saved (GuildRecord.roundTrips hp hrecord)
    exact ⟨file', _, hsave, ⟨hholds', byKey_pairwise _⟩, byKey_perm _⟩
  get fingerprint hholds := (lawful hp).get fingerprint hholds.holds
  list q hholds := (lawful hp).list q hholds.holds
  delete fingerprint hholds := by
    rename_i file records
    by_cases hkey : fingerprint.toKey ∈ Assoc.keys records
    · obtain ⟨file', hdelete, hholds'⟩ := hholds.holds.deleted hkey
      rw [decide_eq_true hkey]
      exact ⟨file', _, hdelete, ⟨hholds', byKey_pairwise _⟩, byKey_perm _⟩
    · rw [decide_eq_false hkey, Assoc.erase_of_not_mem hkey]
      exact ⟨file, records, hholds.holds.not_deleted hkey, hholds, .refl _⟩
  clear _ := holdsInOrder_missing p

end LocalGuildStore

end Conductor
