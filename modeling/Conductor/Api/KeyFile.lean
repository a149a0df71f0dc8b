/-
The file behind a key store, which other processes may replace or delete
before each of the store's looks at it, and what loading, reloading and looking
up a key make of the file as they find it.
-/
import Conductor.Api.KeyStore

namespace Conductor

open Effects Block

/-- A file; `content` is `none` where its bytes are no UTF-8. -/
structure KeyFile where
  content : Option String
  mtime : Mtime

/-- The key file and the temporary file beside it. -/
structure KeyDisk where
  file : Option KeyFile
  tmp : Option KeyFile

abbrev KeyHistory := History KeyCall KeyAnswer

abbrev KeyConfig := Config KeyDisk KeyCall KeyAnswer

/-- What is outside the process.  The other processes act before each look at
the file. -/
structure KeyEnv where
  others : KeyHistory → KeyDisk → KeyDisk
  nowIso : KeyHistory → String
  tokenHex : KeyHistory → String
  mtime : KeyHistory → Mtime

def fileNotFound : PyExc := .exception "FileNotFoundError" "No such file or directory"

def notUtf8 : PyExc := .exception "UnicodeDecodeError" "'utf-8' codec can't decode bytes"

namespace KeyDisk

def stat (disk : KeyDisk) : Except PyExc Mtime :=
  match disk.file with
  | some file => .ok file.mtime
  | none => .error fileNotFound

def readText (disk : KeyDisk) : Except PyExc String :=
  match disk.file with
  | some file =>
      match file.content with
      | some text => .ok text
      | none => .error notUtf8
  | none => .error fileNotFound

/-- `tmp.replace(path)`. -/
def replaceTmp (disk : KeyDisk) : Except PyExc Unit × KeyDisk :=
  match disk.tmp with
  | some file => (.ok (), ⟨some file, none⟩)
  | none => (.error fileNotFound, disk)

end KeyDisk

namespace KeyEnv

def machine (env : KeyEnv) : Machine KeyDisk KeyCall KeyAnswer where
  respond h disk
    | .pathExists =>
        let disk := env.others h disk
        (.ok disk.file.isSome, disk)
    | .stat =>
        let disk := env.others h disk
        (disk.stat, disk)
    | .readText =>
        let disk := env.others h disk
        (disk.readText, disk)
    | .mkdir => (.ok (), disk)
    | .writeTmp text => (.ok (), { disk with tmp := some ⟨some text, env.mtime h⟩ })
    | .replaceTmp => (env.others h disk).replaceTmp
    | .nowIso => (.ok (env.nowIso h), disk)
    | .tokenHex => (.ok (env.tokenHex h), disk)

end KeyEnv

/-- The modification times that were answered, the newest first. -/
def statTimes (h : KeyHistory) : List Mtime :=
  h.filterMap fun
    | ⟨.stat, .ok mtime⟩ => some mtime
    | _ => none

/-- For each hash, whether its key is active. -/
abbrev Standing := List (String × Bool)

namespace Standing

/-- The hash is there with `revoked` false. -/
def Active (standing : Standing) (keyHash : String) : Prop :=
  standing.lookup keyHash = some true

instance (standing : Standing) (keyHash : String) : Decidable (standing.Active keyHash) :=
  inferInstanceAs (Decidable (_ = _))

/-- At least one key is active. -/
def AnyActive (standing : Standing) : Prop := standing.any (·.2) = true

instance (standing : Standing) : Decidable standing.AnyActive :=
  inferInstanceAs (Decidable (_ = _))

end Standing

def Entries.standing (entries : Entries) : Standing :=
  entries.map fun item => (item.1, item.2.active)

/-- The standing of the keys of a JSON object. -/
def standingOf (items : Dict) : Standing :=
  items.map fun item => (item.1, !(item.2.get "revoked" (.bool false)).truthy)

/-- What the first entry without a prefix raises. -/
def firstFault : Dict → Option PyExc
  | [] => none
  | (_, data) :: rest =>
      match data.subscript "prefix" with
      | .error e => some e
      | .ok _ => firstFault rest

/-- The items of a file's content, or what it raises when they are read. -/
def readItems (content : Option String) : Except PyExc Dict :=
  match content with
  | none => .error notUtf8
  | some text =>
      match Json.loads text with
      | .error e => .error e
      | .ok data =>
          match data.items with
          | .error e => .error e
          | .ok items =>
              match firstFault items with
              | some e => .error e
              | none => .ok items

namespace KeyFile

/-- The file holds a key map. -/
def Valid (file : KeyFile) : Prop := ∃ items, readItems file.content = .ok items

def standing (file : KeyFile) : Standing :=
  match readItems file.content with
  | .ok items => standingOf items
  | .error _ => []

end KeyFile

namespace KeyDisk

/-- The file, if there is one, holds a key map. -/
def Valid (disk : KeyDisk) : Prop := ∀ file, disk.file = some file → file.Valid

/-- The keys in the file; a missing file has none. -/
def standing (disk : KeyDisk) : Standing :=
  match disk.file with
  | some file => file.standing
  | none => []

end KeyDisk

/-- A stretch of calls that leaves the file alone and does not ask for its
modification time. -/
structure FileKept (k k' : KeyConfig) : Prop where
  state : k'.state = k.state
  times : statTimes k'.history = statTimes k.history

theorem FileKept.refl (k : KeyConfig) : FileKept k k := ⟨rfl, rfl⟩

theorem FileKept.trans {k₁ k₂ k₃ : KeyConfig} (h₁₂ : FileKept k₁ k₂)
    (h₂₃ : FileKept k₂ k₃) : FileKept k₁ k₃ :=
  ⟨h₂₃.state.trans h₁₂.state, h₂₃.times.trans h₁₂.times⟩

/-- The file after the other processes have acted on it, once or more often. -/
inductive Later (env : KeyEnv) (disk : KeyDisk) : KeyDisk → Prop
  | once (h : KeyHistory) : Later env disk (env.others h disk)
  | more {disk' : KeyDisk} (hlater : Later env disk disk') (h : KeyHistory) :
      Later env disk (env.others h disk')

/-- The logic of a run beside other processes. -/
abbrev KeyEnv.logic (env : KeyEnv) : Logic KeyConfig KeyCall KeyAnswer :=
  env.machine.logic fun _ => False

theorem KeyEnv.logic_monotone (env : KeyEnv) : env.logic.Monotone :=
  env.machine.logic_monotone _

namespace ApiKeyStore

variable {env : KeyEnv} {store : ApiKeyStore} {k : KeyConfig}

theorem wp_createdAtOrNow (createdAt : Value) :
    (createdAtOrNow createdAt).wp env.logic
      (fun outcome store' k' => store' = store ∧ FileKept k k' ∧ ∃ value, outcome = .ok value)
      store k := by
  unfold createdAtOrNow
  split
  · exact ⟨rfl, .refl k, _, rfl⟩
  · exact ⟨rfl, ⟨rfl, rfl⟩, _, rfl⟩

theorem wp_fromDict (keyHash : String) (data : Value) :
    (fromDict keyHash data).wp env.logic
      (fun outcome store' k' => store' = store ∧ FileKept k k' ∧
        match data.subscript "prefix" with
        | .error e => outcome = .error e
        | .ok _ => ∃ entry, outcome = .ok entry ∧
            entry.active = !(data.get "revoked" (.bool false)).truthy) store k := by
  unfold fromDict
  rw [wp_bind, wp_ofExcept]
  cases hkeyed : data.subscript "prefix" with
  | error e => exact ⟨rfl, .refl k, rfl⟩
  | ok keyPrefix =>
      dsimp only
      rw [wp_bind]
      refine wp_mono env.logic_monotone ?_ (wp_createdAtOrNow _)
      rintro _ _ k' ⟨rfl, hkept, value, rfl⟩
      exact ⟨rfl, hkept, _, rfl, rfl⟩

/-- The items become entries of the same standing, up to the first fault. -/
theorem wp_fromItems (items : Dict) :
    (fromItems items).wp env.logic
      (fun outcome store' k' => store' = store ∧ FileKept k k' ∧
        match firstFault items with
        | some e => outcome = .error e
        | none => ∃ entries, outcome = .ok entries ∧ entries.standing = standingOf items)
      store k := by
  induction items generalizing k with
  | nil => exact ⟨rfl, .refl k, [], rfl, rfl⟩
  | cons item rest ih =>
      obtain ⟨keyHash, data⟩ := item
      rw [fromItems, wp_bind]
      refine wp_mono env.logic_monotone ?_ (wp_fromDict keyHash data)
      rintro outcome _ k₁ ⟨rfl, hfirst, houtcome⟩
      rw [firstFault]
      cases hkeyed : data.subscript "prefix" with
      | error e =>
          rw [hkeyed] at houtcome
          rw [houtcome]
          exact ⟨rfl, hfirst, rfl⟩
      | ok keyPrefix =>
          rw [hkeyed] at houtcome
          obtain ⟨entry, rfl, hactive⟩ := houtcome
          dsimp only
          rw [wp_bind]
          refine wp_mono env.logic_monotone ?_ ih
          rintro outcome _ k₂ ⟨rfl, hrest, houtcome⟩
          cases hfault : firstFault rest with
          | some e =>
              rw [hfault] at houtcome
              rw [houtcome]
              exact ⟨rfl, hfirst.trans hrest, rfl⟩
          | none =>
              rw [hfault] at houtcome
              obtain ⟨entries, rfl, hstanding⟩ := houtcome
              refine ⟨rfl, hfirst.trans hrest, _, rfl, ?_⟩
              rw [standingOf, List.map_cons, ← hactive, Entries.standing, List.map_cons]
              exact congrArg _ hstanding

/-- How reading the entries ends on the file as it is read. -/
inductive ReadEnds (entries : Entries) (disk : KeyDisk) : Except PyExc Unit → Entries → Prop
  | vanished (hmissing : disk.file = none) : ReadEnds entries disk (.error fileNotFound) entries
  | read {file : KeyFile} {items : Dict} {entries' : Entries} (hfile : disk.file = some file)
      (hitems : readItems file.content = .ok items)
      (hstanding : entries'.standing = standingOf items) :
      ReadEnds entries disk (.ok ()) entries'
  | failed {file : KeyFile} {e : PyExc} (hfile : disk.file = some file)
      (hfault : readItems file.content = .error e) : ReadEnds entries disk (.error e) entries

theorem wp_readEntries :
    (do
        let raw ← perform KeyCall.readText
        let data ← ofExcept (Json.loads raw)
        let items ← ofExcept data.items
        let entries ← fromItems items
        mutate fun store => { store with entries := entries } : KeyBlock Unit).wp env.logic
      (fun outcome store' k' => statTimes k'.history = statTimes k.history ∧
        k'.state = env.others k.history k.state ∧
        ∃ entries', store' = { store with entries := entries' } ∧
          ReadEnds store.entries k'.state outcome entries') store k := by
  let disk := env.others k.history k.state
  have hread : env.machine.step k .readText = (disk.readText, _) := rfl
  rw [wp_bind, wp_perform]
  refine Machine.call_of_step hread ?_
  rw [KeyDisk.readText]
  cases hfile : disk.file with
  | none => exact ⟨rfl, rfl, _, rfl, .vanished hfile⟩
  | some file =>
      dsimp only
      cases hcontent : file.content with
      | none => exact ⟨rfl, rfl, _, rfl, .failed hfile (by rw [hcontent]; rfl)⟩
      | some text =>
          dsimp only
          rw [wp_bind, wp_ofExcept]
          cases hdata : Json.loads text with
          | error e =>
              have hfault : readItems file.content = .error e := by
                rw [hcontent, readItems]
                simp only [hdata]
              exact ⟨rfl, rfl, _, rfl, .failed hfile hfault⟩
          | ok data =>
              dsimp only
              rw [wp_bind, wp_ofExcept]
              cases hitems : data.items with
              | error e =>
                  have hfault : readItems file.content = .error e := by
                    rw [hcontent, readItems]
                    simp only [hdata, hitems]
                  exact ⟨rfl, rfl, _, rfl, .failed hfile hfault⟩
              | ok items =>
                  dsimp only
                  rw [wp_bind]
                  refine wp_mono env.logic_monotone ?_ (wp_fromItems items)
                  rintro outcome _ k' ⟨rfl, hkept, houtcome⟩
                  have hreadItems : readItems file.content =
                      match firstFault items with
                      | some e => .error e
                      | none => .ok items := by
                    rw [hcontent, readItems]
                    simp only [hdata, hitems]
                  have hfile' : k'.state.file = some file := by rw [hkept.state]; exact hfile
                  cases hfault : firstFault items with
                  | some e =>
                      rw [hfault] at houtcome hreadItems
                      rw [houtcome]
                      exact ⟨hkept.times, hkept.state, _, rfl, .failed hfile' hreadItems⟩
                  | none =>
                      rw [hfault] at houtcome hreadItems
                      obtain ⟨entries, rfl, hstanding⟩ := houtcome
                      exact ⟨hkept.times, hkept.state, _, rfl, .read hfile' hreadItems hstanding⟩

/-- How loading ends on the file that it found at its last look. -/
inductive LoadEnds (entries : Entries) (disk : KeyDisk) : Except PyExc Unit → Entries → Prop
  | missing (hmissing : disk.file = none) : LoadEnds entries disk (.ok ()) []
  | read {outcome : Except PyExc Unit} {entries' : Entries}
      (hread : ReadEnds entries disk outcome entries')
      (hescapes : ∀ e, outcome = .error e → catchesLoad e = false) :
      LoadEnds entries disk outcome entries'
  | swallowed {file : KeyFile} {e : PyExc} (hfile : disk.file = some file)
      (hfault : readItems file.content = .error e) (hcaught : catchesLoad e = true) :
      LoadEnds entries disk (.ok ()) []

theorem wp_load :
    load.wp env.logic
      (fun outcome store' k' => statTimes k'.history = statTimes k.history ∧
        Later env k.state k'.state ∧ ∃ entries', store' = { store with entries := entries' } ∧
          LoadEnds store.entries k'.state outcome entries') store k := by
  let disk := env.others k.history k.state
  have hexists : env.machine.step k .pathExists = (.ok disk.file.isSome, _) := rfl
  unfold load
  rw [wp_bind, wp_perform]
  refine Machine.call_of_step hexists ?_
  dsimp only
  cases hfile : disk.file with
  | none => exact ⟨rfl, .once _, _, rfl, .missing hfile⟩
  | some file =>
      rw [Option.isSome_some, if_pos rfl, wp_tryExcept]
      refine wp_mono env.logic_monotone ?_ wp_readEntries
      rintro outcome _ k' ⟨htimes, hdisk, entries', rfl, hends⟩
      have hlater : Later env k.state k'.state := hdisk ▸ .more (.once _) _
      cases outcome with
      | ok value => exact ⟨htimes, hlater, _, rfl, .read hends (by simp)⟩
      | error e =>
          dsimp only
          by_cases hcaught : catchesLoad e = true
          · rw [if_pos hcaught]
            cases hends with
            | vanished hmissing => exact absurd hcaught (by decide)
            | failed hfile hfault => exact ⟨htimes, hlater, _, rfl, .swallowed hfile hfault hcaught⟩
          · rw [if_neg hcaught]
            have hescapes : ∀ e', Except.error e = (Except.error e' : Except PyExc Unit) →
                catchesLoad e' = false := by
              rintro _ ⟨⟩
              exact Bool.eq_false_of_not_eq_true hcaught
            exact ⟨htimes, hlater, _, rfl, .read hends hescapes⟩

/-- The file as the store glances at it before it decides whether to load it:
it asks whether it exists, and if so for its modification time. -/
def glance (env : KeyEnv) (k : KeyConfig) : KeyDisk :=
  let disk := env.others k.history k.state
  if disk.file.isSome then env.others (⟨.pathExists, .ok true⟩ :: k.history) disk else disk

/-- The modification time of the file that was loaded last. -/
def mark (store : ApiKeyStore) : Mtime := store.lastMtime.getD 0

/-- The glance shows a file that is newer than the one loaded last. -/
def Newer (env : KeyEnv) (store : ApiKeyStore) (k : KeyConfig) : Prop :=
  ∃ file, (glance env k).file = some file ∧ store.mark < file.mtime

/-- How a reload ends: nothing is loaded, or the file that looked newer is. -/
inductive ReloadEnds (env : KeyEnv) (store : ApiKeyStore) (k : KeyConfig) :
    Except PyExc Unit → ApiKeyStore → KeyConfig → Prop
  | kept {store' : ApiKeyStore} {k' : KeyConfig} (hnewer : ¬ Newer env store k)
      (hdisk : k'.state = glance env k) (hentries : store'.entries = store.entries)
      (hmark : store'.mark = store.mark) : ReloadEnds env store k (.ok ()) store' k'
  | loaded {store' : ApiKeyStore} {k' : KeyConfig} {file : KeyFile}
      (hfile : (glance env k).file = some file) (hnewer : store.mark < file.mtime)
      (hlater : Later env (glance env k) k'.state)
      (hends : LoadEnds store.entries k'.state (.ok ()) store'.entries)
      (hmark : store'.mark = file.mtime) (hasked : file.mtime ∈ statTimes k'.history) :
      ReloadEnds env store k (.ok ()) store' k'
  | failed {store' : ApiKeyStore} {k' : KeyConfig} {e : PyExc} (hnewer : Newer env store k)
      (hlater : Later env (glance env k) k'.state)
      (hends : LoadEnds store.entries k'.state (.error e) store'.entries)
      (hmark : store'.mark = store.mark) : ReloadEnds env store k (.error e) store' k'

/-- How the modification time is asked for, after the file was seen. -/
theorem wp_currentMtime :
    currentMtime.wp env.logic
      (fun outcome store' k' => store' = store ∧ k'.state = env.others k.history k.state ∧
        match k'.state.file with
        | none => outcome = .ok none ∧ statTimes k'.history = statTimes k.history
        | some file => outcome = .ok (some file.mtime) ∧
            statTimes k'.history = file.mtime :: statTimes k.history) store k := by
  let disk := env.others k.history k.state
  have hstat : env.machine.step k .stat =
      (disk.stat, ⟨⟨.stat, disk.stat⟩ :: k.history, disk⟩) := rfl
  unfold currentMtime
  rw [wp_tryExcept, wp_bind, wp_perform]
  refine Machine.call_of_step hstat ?_
  rw [KeyDisk.stat]
  cases hfile : disk.file with
  | none => exact ⟨rfl, rfl, by rw [hfile]; exact ⟨rfl, rfl⟩⟩
  | some file => exact ⟨rfl, rfl, by rw [hfile]; exact ⟨rfl, rfl⟩⟩

theorem wp_reloadIfChanged (hpath : store.hasPath = true) :
    reloadIfChanged.wp env.logic
      (fun outcome store' k' => store'.hasPath = true ∧
        statTimes k.history ⊆ statTimes k'.history ∧
        ReloadEnds env store k outcome store' k') store k := by
  let disk := env.others k.history k.state
  have hexists : env.machine.step k .pathExists =
      (.ok disk.file.isSome, ⟨⟨.pathExists, .ok disk.file.isSome⟩ :: k.history, disk⟩) := rfl
  unfold reloadIfChanged
  rw [wp_bind, wp_object]
  dsimp only
  rw [if_pos hpath, wp_bind, wp_perform]
  refine Machine.call_of_step hexists ?_
  dsimp only
  cases hfile : disk.file with
  | none =>
      have hmissing : ¬ disk.file.isSome = true := by
        rw [hfile]
        exact Bool.false_ne_true
      have hglance : glance env k = disk := if_neg hmissing
      have hold : ¬ Newer env store k := by
        rintro ⟨file, hsome, -⟩
        rw [hglance, hfile] at hsome
        cases hsome
      exact ⟨hpath, List.Subset.refl _, .kept hold hglance.symm rfl rfl⟩
  | some file =>
      have hfound : disk.file.isSome = true := by rw [hfile]; rfl
      have hglance : glance env k = env.others (⟨.pathExists, .ok true⟩ :: k.history) disk :=
        if_pos hfound
      rw [Option.isSome_some, if_pos rfl, wp_bind]
      refine wp_mono env.logic_monotone ?_ wp_currentMtime
      rintro outcome store₁ k₁ ⟨hstore, hdisk, houtcome⟩
      obtain rfl := hstore.symm
      rw [← hglance] at hdisk
      rw [hdisk] at houtcome
      cases hseen : (glance env k).file with
      | none =>
          rw [hseen] at houtcome
          obtain ⟨rfl, htimes⟩ := houtcome
          have hold : ¬ Newer env store k := by
            rintro ⟨file, hsome, -⟩
            rw [hseen] at hsome
            cases hsome
          exact ⟨hpath, htimes ▸ List.Subset.refl _, .kept hold hdisk rfl rfl⟩
      | some seen =>
          rw [hseen] at houtcome
          obtain ⟨rfl, htimes⟩ := houtcome
          have hsubset : statTimes k.history ⊆ statTimes k₁.history := by
            rw [htimes]
            exact List.subset_cons_self _ _
          dsimp only
          rw [wp_bind, wp_mutate]
          change wp env.logic (if store.mark < seen.mtime then _ else _) _ _ _
          by_cases hnewer : store.mark < seen.mtime
          · rw [if_pos hnewer, wp_bind]
            refine wp_mono env.logic_monotone ?_ wp_load
            rintro outcome _ k₂ ⟨htimes₂, hlater, entries', rfl, hends⟩
            rw [← htimes₂] at hsubset
            rw [hdisk] at hlater
            cases outcome with
            | error e => exact ⟨hpath, hsubset, .failed ⟨seen, hseen, hnewer⟩ hlater hends rfl⟩
            | ok value =>
                have hasked : seen.mtime ∈ statTimes k₂.history := by
                  rw [htimes₂, htimes]
                  exact List.mem_cons_self
                exact ⟨hpath, hsubset, .loaded hseen hnewer hlater hends rfl hasked⟩
          · have hold : ¬ Newer env store k := by
              rintro ⟨file, hsome, hlt⟩
              rw [hseen] at hsome
              cases hsome
              exact hnewer hlt
            rw [if_neg hnewer]
            exact ⟨hpath, hsubset, .kept hold hdisk rfl rfl⟩

/-- A lookup that gave an entry. -/
def Found (outcome : Except PyExc (Option ApiKeyEntry)) : Prop :=
  ∃ entry, outcome = .ok (some entry)

/-- How a lookup ends: it reloads, and answers from the entries it then has. -/
structure LookupEnds (env : KeyEnv) (store : ApiKeyStore) (k : KeyConfig) (keyHash : String)
    (outcome : Except PyExc (Option ApiKeyEntry)) (store' : ApiKeyStore) (k' : KeyConfig) :
    Prop where
  hasPath : store'.hasPath = true
  times : statTimes k.history ⊆ statTimes k'.history
  reload : ∃ reloaded store₁ k₁, ReloadEnds env store k reloaded store₁ k₁ ∧
    FileKept k₁ k' ∧ store'.mark = store₁.mark ∧
    store'.entries.standing = store₁.entries.standing ∧
    match reloaded with
    | .error e => outcome = .error e
    | .ok _ => ∃ found?, outcome = .ok found? ∧
        (found?.isSome ↔ store₁.entries.standing.Active keyHash)

theorem standing_modify (entries : Entries) (keyHash : String) (f : ApiKeyEntry → ApiKeyEntry)
    (hf : ∀ entry, (f entry).active = entry.active) :
    (entries.modify keyHash f).standing = entries.standing := by
  unfold Entries.modify Entries.standing
  rw [List.map_map]
  apply List.map_congr_left
  intro item hitem
  dsimp only [Function.comp]
  split
  · rw [hf]
  · rfl

theorem lookup_standing (entries : Entries) (keyHash : String) :
    entries.standing.lookup keyHash = (entries.lookup keyHash).map ApiKeyEntry.active := by
  unfold Entries.standing
  induction entries with
  | nil => rfl
  | cons item rest ih =>
      rw [List.map_cons, List.lookup_cons, List.lookup_cons, ih]
      cases keyHash == item.1 <;> rfl

theorem wp_lookup (sha256Hex : String → String) (rawKey : String)
    (hpath : store.hasPath = true) :
    (lookup sha256Hex rawKey).wp env.logic
      (LookupEnds env store k (sha256Hex rawKey)) store k := by
  unfold lookup
  rw [wp_bind]
  refine wp_mono env.logic_monotone ?_ (wp_reloadIfChanged hpath)
  rintro outcome store₁ k₁ ⟨hpath₁, htimes, hreload⟩
  cases outcome with
  | error e => exact ⟨hpath₁, htimes, _, _, _, hreload, .refl k₁, rfl, rfl, rfl⟩
  | ok value =>
      dsimp only
      rw [wp_bind, wp_object]
      dsimp only
      cases hentry : store₁.entries.lookup (sha256Hex rawKey) with
      | none =>
          refine ⟨hpath₁, htimes, _, _, _, hreload, .refl k₁, rfl, rfl, none, rfl, ?_⟩
          rw [Standing.Active, lookup_standing, hentry]
          simp
      | some entry =>
          have hactive : store₁.entries.standing.Active (sha256Hex rawKey) ↔
              entry.active = true := by
            rw [Standing.Active, lookup_standing, hentry, Option.map_some, Option.some.injEq]
          dsimp only
          by_cases hrevoked : entry.active = true
          · rw [if_pos hrevoked]
            refine ⟨hpath₁, htimes, _, _, _, hreload, ⟨rfl, rfl⟩, rfl, ?_, some _, rfl, ?_⟩
            · dsimp only
              exact standing_modify _ _ _ fun entry => rfl
            · rw [hactive]
              exact ⟨fun _ => hrevoked, fun _ => rfl⟩
          · rw [if_neg hrevoked]
            refine ⟨hpath₁, htimes, _, _, _, hreload, .refl k₁, rfl, rfl, none, rfl, ?_⟩
            rw [hactive]
            exact ⟨fun h => absurd h Bool.false_ne_true, fun h => absurd h hrevoked⟩

end ApiKeyStore

end Conductor
