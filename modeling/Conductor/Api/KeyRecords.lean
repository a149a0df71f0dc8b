/-
The entries of the key store and the file that it writes.  Loading the file
gives the entries back, so on a file that nobody else touches every call of the
store can be said in terms of the entries it holds and the entries it saved.
-/
import Conductor.Api.Auth
import Conductor.Effects.Invariant
import Conductor.Python.JsonRoundTrip

namespace Conductor

open Effects Block

/-- An entry as the store builds it: `json` gives its fields back, and loading
puts no default in place of any. -/
structure ApiKeyEntry.Settled (entry : ApiKeyEntry) : Prop where
  faithful : Json.Faithful entry.toDict
  scopes : entry.scopes.truthy = true
  createdAt : entry.createdAt.truthy = true

namespace ApiKeyEntry

theorem faithful_toDict {entry : ApiKeyEntry} :
    Json.Faithful entry.toDict ↔ Json.Faithful entry.keyPrefix ∧ Json.Faithful entry.actor ∧
      Json.Faithful entry.scopes ∧ Json.Faithful entry.createdAt ∧
      Json.Faithful entry.lastUsedAt ∧ Json.Faithful entry.revoked := by
  simp [toDict, Json.Faithful, Json.FaithfulItems]

/-- `entry.last_used_at = now`. -/
def usedAt (now : String) (entry : ApiKeyEntry) : ApiKeyEntry :=
  { entry with lastUsedAt := .str now }

/-- `entry.revoked = True`. -/
def withdrawn (entry : ApiKeyEntry) : ApiKeyEntry := { entry with revoked := .bool true }

theorem Settled.usedAt {entry : ApiKeyEntry} (hsettled : entry.Settled) (now : String) :
    (entry.usedAt now).Settled := by
  obtain ⟨hlead, hactor, hscopes, hcreated, -, hrevoked⟩ := faithful_toDict.mp hsettled.faithful
  have hnow : Json.Faithful (.str now) := trivial
  exact ⟨faithful_toDict.mpr ⟨hlead, hactor, hscopes, hcreated, hnow, hrevoked⟩,
    hsettled.scopes, hsettled.createdAt⟩

theorem Settled.withdrawn {entry : ApiKeyEntry} (hsettled : entry.Settled) :
    entry.withdrawn.Settled := by
  obtain ⟨hlead, hactor, hscopes, hcreated, hused, -⟩ := faithful_toDict.mp hsettled.faithful
  have hrevoked : Json.Faithful (.bool true) := trivial
  exact ⟨faithful_toDict.mpr ⟨hlead, hactor, hscopes, hcreated, hused, hrevoked⟩,
    hsettled.scopes, hsettled.createdAt⟩

end ApiKeyEntry

namespace Entries

/-- `{kh: e.to_dict() for kh, e in entries.items()}`. -/
def toDict (entries : Entries) : Dict := entries.map fun item => (item.1, item.2.toDict)

/-- Each entry is settled and filed once, under its own hash. -/
structure Settled (entries : Entries) : Prop where
  nodup : (Assoc.keys entries).Nodup
  own : ∀ item ∈ entries, item.2.keyHash = item.1
  settled : ∀ item ∈ entries, item.2.Settled

theorem settled_nil : Settled [] :=
  ⟨List.nodup_nil, by simp, by simp⟩

theorem insert_eq (keyHash : String) (entry : ApiKeyEntry) (entries : Entries) :
    entries.insert keyHash entry = Assoc.insert keyHash entry entries := by
  induction entries with
  | nil => rfl
  | cons item rest ih => rw [insert, Assoc.insert, ih]

theorem lookup_modify (keyHash other : String) (f : ApiKeyEntry → ApiKeyEntry)
    (entries : Entries) :
    (entries.modify keyHash f).lookup other =
      (entries.lookup other).map (if other = keyHash then f else id) := by
  have hmodify : entries.modify keyHash f =
      entries.map fun item => (item.1, (if item.1 = keyHash then f else id) item.2) := by
    apply List.map_congr_left
    intro item _
    split <;> rfl
  rw [hmodify, Assoc.lookup_map fun h : String => if h = keyHash then f else id]

theorem keys_modify (keyHash : String) (f : ApiKeyEntry → ApiKeyEntry) (entries : Entries) :
    Assoc.keys (entries.modify keyHash f) = Assoc.keys entries := by
  rw [modify, Assoc.keys, List.map_map]
  apply List.map_congr_left
  intro item _
  dsimp only [Function.comp]
  split <;> rfl

theorem mem_modify {keyHash : String} {f : ApiKeyEntry → ApiKeyEntry} {entries : Entries}
    {item : String × ApiKeyEntry} :
    item ∈ entries.modify keyHash f ↔
      ∃ old ∈ entries, item = (old.1, if old.1 = keyHash then f old.2 else old.2) := by
  rw [modify, List.mem_map]
  apply exists_congr
  intro old
  apply and_congr_right
  intro _
  split <;> exact eq_comm

/-- A change that keeps each entry settled keeps the dict settled. -/
theorem Settled.modify {entries : Entries} (hsettled : entries.Settled) (keyHash : String)
    {f : ApiKeyEntry → ApiKeyEntry} (hown : ∀ entry, (f entry).keyHash = entry.keyHash)
    (hf : ∀ entry, entry.Settled → (f entry).Settled) : (entries.modify keyHash f).Settled := by
  constructor
  · rw [keys_modify]
    exact hsettled.nodup
  · intro item hmem
    obtain ⟨old, hold, heq⟩ := mem_modify.mp hmem
    rw [heq, ← hsettled.own old hold]
    dsimp only
    split
    · exact hown old.2
    · rfl
  · intro item hmem
    obtain ⟨old, hold, heq⟩ := mem_modify.mp hmem
    rw [heq]
    dsimp only
    split
    · exact hf _ (hsettled.settled old hold)
    · exact hsettled.settled old hold

theorem Settled.insert {entries : Entries} (hsettled : entries.Settled) {entry : ApiKeyEntry}
    (hentry : entry.Settled) : (entries.insert entry.keyHash entry).Settled := by
  rw [insert_eq]
  constructor
  · exact Assoc.nodup_insert hsettled.nodup
  · intro item hmem
    rcases Assoc.mem_insert hmem with hmem | heq
    · exact hsettled.own item hmem
    · rw [heq]
  · intro item hmem
    rcases Assoc.mem_insert hmem with hmem | heq
    · exact hsettled.settled item hmem
    · rw [heq]
      exact hentry

theorem Settled.faithful {entries : Entries} (hsettled : entries.Settled) :
    Json.Faithful (.dict entries.toDict) := by
  have hkeys : entries.toDict.map (·.1) = Assoc.keys entries := List.map_map
  rw [Json.Faithful, Json.faithfulItems_iff, hkeys]
  constructor
  · exact hsettled.nodup
  · intro item hmem
    obtain ⟨old, hold, heq⟩ := List.mem_map.mp hmem
    rw [← heq]
    exact (hsettled.settled old hold).faithful

end Entries

namespace ApiKeyStore

theorem createdAtOrNow_truthy {createdAt : Value} (htruthy : createdAt.truthy = true) :
    createdAtOrNow createdAt = pure createdAt := if_pos htruthy

/-- `from_dict` undoes `to_dict`. -/
theorem fromDict_toDict {entry : ApiKeyEntry} (hentry : entry.Settled) :
    fromDict entry.keyHash entry.toDict = pure entry := by
  have hlead : entry.toDict.subscript "prefix" = .ok entry.keyPrefix := rfl
  have hcreated : entry.toDict.get "created_at" .none = entry.createdAt := rfl
  have hscopes : (entry.toDict.get "scopes" (.list [.str "*"])).orElse (.list [.str "*"]) =
      entry.scopes := if_pos hentry.scopes
  rw [fromDict, hlead, hcreated, hscopes, createdAtOrNow_truthy hentry.createdAt]
  rfl

theorem fromItems_toDict {entries : Entries} (hown : ∀ item ∈ entries, item.2.keyHash = item.1)
    (hsettled : ∀ item ∈ entries, item.2.Settled) :
    fromItems entries.toDict = pure entries := by
  induction entries with
  | nil => rfl
  | cons item rest ih =>
      have hrest := ih (fun other hmem => hown other (List.mem_cons_of_mem _ hmem))
        (fun other hmem => hsettled other (List.mem_cons_of_mem _ hmem))
      have hitem := fromDict_toDict (hsettled item List.mem_cons_self)
      rw [hown item List.mem_cons_self] at hitem
      rw [Entries.toDict, List.map_cons, fromItems, hitem]
      change fromItems (Entries.toDict rest) >>= _ = _
      rw [hrest]
      rfl

end ApiKeyStore

/-- Loading the file gives these entries; a missing file gives none. -/
def KeyDisk.Reads (disk : KeyDisk) (saved : Entries) : Prop :=
  match disk.file with
  | none => saved = []
  | some file => ∃ text, file.content = some text ∧ Json.loads text = .ok (.dict saved.toDict)

/-- The items of the key file; none if it is missing or holds no key map. -/
def KeyDisk.items (disk : KeyDisk) : Dict :=
  match disk.file with
  | none => []
  | some file => (readItems file.content).toOption.getD []

theorem firstFault_toDict (entries : Entries) : firstFault entries.toDict = none := by
  induction entries with
  | nil => rfl
  | cons item rest ih => exact ih

theorem items_of_reads {disk : KeyDisk} {saved : Entries} (hreads : disk.Reads saved) :
    disk.items = saved.toDict := by
  rw [KeyDisk.items]
  cases hfile : disk.file with
  | none =>
      rw [KeyDisk.Reads, hfile] at hreads
      rw [hreads]
      rfl
  | some file =>
      rw [KeyDisk.Reads, hfile] at hreads
      obtain ⟨text, hcontent, hloads⟩ := hreads
      have hitems : readItems file.content = .ok saved.toDict := by
        rw [hcontent, readItems]
        simp only [hloads, Value.items, firstFault_toDict]
      dsimp only
      rw [hitems]
      rfl

/-- Nobody else touches the key file, and the clock gives a text. -/
structure KeyEnv.Alone (env : KeyEnv) : Prop where
  calm : env.Calm
  dated : ∀ h, env.nowIso h ≠ ""

namespace ApiKeyStore

/-- What a reload leaves: the entries the store had, or those of the file. -/
inductive Reloaded (store : ApiKeyStore) (saved : Entries) : ApiKeyStore → Prop
  | kept (mark : Option Mtime) : Reloaded store saved { store with lastMtime := mark }
  | loaded (mark : Option Mtime) :
      Reloaded store saved { store with entries := saved, lastMtime := mark }

/-- What a lookup returns and leaves. -/
inductive LookedUp (store : ApiKeyStore) (saved : Entries) (keyHash : String) :
    Option ApiKeyEntry → ApiKeyStore → Prop
  | unknown {store₁ : ApiKeyStore} (hreload : Reloaded store saved store₁)
      (hinactive : ∀ entry, store₁.entries.lookup keyHash = some entry → entry.active = false) :
      LookedUp store saved keyHash none store₁
  | found {store₁ : ApiKeyStore} {entry : ApiKeyEntry} (now : String)
      (hreload : Reloaded store saved store₁)
      (hentry : store₁.entries.lookup keyHash = some entry) (hactive : entry.active = true) :
      LookedUp store saved keyHash (some (entry.usedAt now))
        { store₁ with entries := store₁.entries.modify keyHash (·.usedAt now) }

section

variable {env : KeyEnv} {store : ApiKeyStore} {k : KeyConfig} {saved : Entries}

theorem step_pathExists (hcalm : env.Calm) (k : KeyConfig) :
    env.machine.step k .pathExists = (.ok k.state.file.isSome,
      ⟨⟨.pathExists, .ok k.state.file.isSome⟩ :: k.history, k.state⟩) := by
  simp only [Machine.step, KeyEnv.machine, hcalm k.history k.state]

theorem step_stat (hcalm : env.Calm) (k : KeyConfig) :
    env.machine.step k .stat = (k.state.stat, ⟨⟨.stat, k.state.stat⟩ :: k.history, k.state⟩) := by
  simp only [Machine.step, KeyEnv.machine, hcalm k.history k.state]

theorem step_readText (hcalm : env.Calm) (k : KeyConfig) :
    env.machine.step k .readText = (k.state.readText,
      ⟨⟨.readText, k.state.readText⟩ :: k.history, k.state⟩) := by
  simp only [Machine.step, KeyEnv.machine, hcalm k.history k.state]

theorem step_replaceTmp (hcalm : env.Calm) (k : KeyConfig) :
    env.machine.step k .replaceTmp = (k.state.replaceTmp.1,
      ⟨⟨.replaceTmp, k.state.replaceTmp.1⟩ :: k.history, k.state.replaceTmp.2⟩) := by
  simp only [Machine.step, KeyEnv.machine, hcalm k.history k.state]

theorem wp_load_reads (hcalm : env.Calm) (hsaved : saved.Settled) (hreads : k.state.Reads saved) :
    load.wp env.logic (fun outcome store' k' => outcome = .ok () ∧
      store' = { store with entries := saved } ∧ k'.state = k.state) store k := by
  unfold load
  rw [wp_bind, wp_perform]
  refine Machine.call_of_step (step_pathExists hcalm k) ?_
  dsimp only
  cases hfile : k.state.file with
  | none =>
      rw [KeyDisk.Reads, hfile] at hreads
      rw [hreads]
      exact ⟨rfl, rfl, rfl⟩
  | some file =>
      rw [KeyDisk.Reads, hfile] at hreads
      obtain ⟨text, hcontent, hloads⟩ := hreads
      have hread : k.state.readText = .ok text := by
        rw [KeyDisk.readText, hfile]
        simp only [hcontent]
      rw [Option.isSome_some, if_pos rfl, wp_tryExcept, wp_bind, wp_perform]
      refine Machine.call_of_step (step_readText hcalm _) ?_
      dsimp only
      rw [hread]
      dsimp only
      rw [wp_bind, wp_ofExcept, hloads]
      dsimp only
      rw [wp_bind, wp_ofExcept]
      change wp env.logic (fromItems saved.toDict >>= _) _ _ _
      rw [fromItems_toDict hsaved.own hsaved.settled]
      exact ⟨rfl, rfl, rfl⟩

theorem wp_currentMtime_calm (hcalm : env.Calm) :
    currentMtime.wp env.logic (fun outcome store' k' => store' = store ∧ k'.state = k.state ∧
      ∃ mtime?, outcome = .ok mtime?) store k := by
  unfold currentMtime
  rw [wp_tryExcept, wp_bind, wp_perform]
  refine Machine.call_of_step (step_stat hcalm k) ?_
  rw [KeyDisk.stat]
  cases hfile : k.state.file with
  | none => exact ⟨rfl, rfl, _, rfl⟩
  | some file => exact ⟨rfl, rfl, _, rfl⟩

theorem wp_reload_reads (hcalm : env.Calm) (hsaved : saved.Settled)
    (hreads : k.state.Reads saved) :
    reloadIfChanged.wp env.logic (fun outcome store' k' => outcome = .ok () ∧
      Reloaded store saved store' ∧ k'.state = k.state) store k := by
  unfold reloadIfChanged
  rw [wp_bind, wp_object]
  dsimp only
  by_cases hpath : store.hasPath = true
  · rw [if_pos hpath, wp_bind, wp_perform]
    refine Machine.call_of_step (step_pathExists hcalm k) ?_
    dsimp only
    by_cases hfound : k.state.file.isSome = true
    · rw [if_pos hfound, wp_bind]
      refine wp_mono env.logic_monotone ?_ (wp_currentMtime_calm hcalm)
      intro outcome store₁ k₁ hmtime
      obtain ⟨hstore, hstate, mtime?, houtcome⟩ := hmtime
      rw [houtcome, hstore]
      cases mtime? with
      | none => exact ⟨rfl, .kept store.lastMtime, hstate⟩
      | some mtime =>
          dsimp only
          rw [wp_bind, wp_mutate]
          dsimp only
          by_cases hnewer : store.lastMtime.getD 0 < mtime
          · rw [if_pos hnewer, wp_bind]
            have hreads₁ : k₁.state.Reads saved := by
              rw [hstate]
              exact hreads
            refine wp_mono env.logic_monotone ?_ (wp_load_reads hcalm hsaved hreads₁)
            intro outcome store₂ k₂ hload
            obtain ⟨houtcome, hstore₂, hstate₂⟩ := hload
            rw [houtcome, hstore₂]
            exact ⟨rfl, .loaded (some mtime), hstate₂.trans hstate⟩
          · rw [if_neg hnewer]
            exact ⟨rfl, .kept _, hstate⟩
    · rw [if_neg hfound]
      exact ⟨rfl, .kept store.lastMtime, rfl⟩
  · rw [if_neg hpath]
    exact ⟨rfl, .kept store.lastMtime, rfl⟩

theorem wp_lookup_reads (hcalm : env.Calm) (hsaved : saved.Settled) (hreads : k.state.Reads saved)
    (sha256Hex : String → String) (rawKey : String) :
    (lookup sha256Hex rawKey).wp env.logic (fun outcome store' k' => ∃ found?,
      outcome = .ok found? ∧ LookedUp store saved (sha256Hex rawKey) found? store' ∧
        k'.state = k.state) store k := by
  unfold lookup
  rw [wp_bind]
  refine wp_mono env.logic_monotone ?_ (wp_reload_reads hcalm hsaved hreads)
  intro outcome store₁ k₁ hreloaded
  obtain ⟨houtcome, hreload, hstate⟩ := hreloaded
  rw [houtcome]
  dsimp only
  rw [wp_bind, wp_object]
  dsimp only
  cases hentry : store₁.entries.lookup (sha256Hex rawKey) with
  | none =>
      have hinactive : ∀ entry, store₁.entries.lookup (sha256Hex rawKey) = some entry →
          entry.active = false := by simp [hentry]
      exact ⟨none, rfl, .unknown hreload hinactive, hstate⟩
  | some entry =>
      dsimp only
      by_cases hactive : entry.active = true
      · rw [if_pos hactive]
        exact ⟨_, rfl, .found _ hreload hentry hactive, hstate⟩
      · rw [if_neg hactive]
        have hinactive : ∀ entry, store₁.entries.lookup (sha256Hex rawKey) = some entry →
            entry.active = false := by simpa [hentry] using hactive
        exact ⟨none, rfl, .unknown hreload hinactive, hstate⟩

/-- What was saved is what the store has. -/
theorem wp_save_reads (hcalm : env.Calm) (hpath : store.hasPath = true)
    (hsettled : store.entries.Settled) :
    save.wp env.logic (fun outcome store' k' => outcome = .ok () ∧ store' = store ∧
      k'.state.Reads store.entries) store k := by
  obtain ⟨text, htext, hloads⟩ := Json.loads_dumps (.indented 2) false hsettled.faithful
  have hread : Json.loads text = .ok (.dict store.entries.toDict) := by
    have hplain := hloads "" (by simp)
    rwa [String.append_empty] at hplain
  unfold save
  rw [wp_bind, wp_object]
  dsimp only
  rw [if_pos hpath, wp_bind, wp_perform]
  refine Machine.call_of_step rfl ?_
  change wp env.logic (ofExcept (Json.dumps (.indented 2) false (.dict store.entries.toDict)) >>=
    _) _ _ _
  rw [htext, wp_bind, wp_ofExcept]
  dsimp only
  rw [wp_bind, wp_perform]
  refine Machine.call_of_step rfl ?_
  dsimp only
  rw [wp_perform]
  refine Machine.call_of_step (step_replaceTmp hcalm _) ?_
  exact ⟨rfl, rfl, text, rfl, hread⟩

theorem wp_flush_reads (hcalm : env.Calm) (hpath : store.hasPath = true)
    (hsettled : store.entries.Settled) (hreads : k.state.Reads saved) :
    flushUsage.wp env.logic (fun outcome store' k' => outcome = .ok () ∧
      store' = { store with dirty := false } ∧
        k'.state.Reads (if store.dirty then store.entries else saved)) store k := by
  unfold flushUsage
  rw [wp_bind, wp_object]
  dsimp only
  cases hdirty : store.dirty with
  | false =>
      have hstore : store = { store with dirty := false } := by
        rw [← hdirty]
      exact ⟨rfl, hstore, hreads⟩
  | true =>
      rw [if_pos rfl, if_pos rfl, wp_bind]
      refine wp_mono env.logic_monotone ?_ (wp_save_reads hcalm hpath hsettled)
      intro outcome store₁ k₁ hsave
      obtain ⟨houtcome, hstore, hsaved⟩ := hsave
      rw [houtcome, hstore]
      exact ⟨rfl, rfl, hsaved⟩

/-- A revocation is saved at once. -/
theorem wp_revoke_reads (hcalm : env.Calm) (hpath : store.hasPath = true)
    (hsettled : store.entries.Settled) (hreads : k.state.Reads saved) (keyHash : String) :
    (revoke keyHash).wp env.logic (fun outcome store' k' =>
      match store.entries.lookup keyHash with
      | none => outcome = .ok false ∧ store' = store ∧ k'.state.Reads saved
      | some _ => outcome = .ok true ∧ store' = { store with
          entries := store.entries.modify keyHash (·.withdrawn), dirty := true } ∧
          k'.state.Reads store'.entries) store k := by
  unfold revoke
  rw [wp_bind, wp_object]
  dsimp only
  cases hentry : store.entries.lookup keyHash with
  | none => exact ⟨rfl, rfl, hreads⟩
  | some entry =>
      dsimp only
      rw [wp_mutate_bind, wp_mutate_bind, wp_bind]
      have hsettled' : (store.entries.modify keyHash (·.withdrawn)).Settled :=
        hsettled.modify keyHash (fun _ => rfl) fun _ hentry => hentry.withdrawn
      refine wp_mono env.logic_monotone ?_ (wp_save_reads hcalm hpath hsettled')
      intro outcome store₁ k₁ hsave
      obtain ⟨houtcome, hstore, hsaved⟩ := hsave
      rw [houtcome, hstore]
      exact ⟨rfl, rfl, hsaved⟩

/-- Find a single entry by key prefix. -/
def findByPrefix (keyPrefix : String) (entries : Entries) : Option ApiKeyEntry :=
  (entries.find? fun item => item.2.keyPrefix.isStr keyPrefix).map (·.2)

/-- `cond api-key revoke`, a process of its own, with its exit code. -/
def apiKeyRevoke (keyPrefix : String) : KeyBlock Nat := do
  mutate fun _ => blank
  load
  let store ← object
  match findByPrefix keyPrefix store.entries with
  | none => pure 1
  | some entry => do
      let _ ← revoke entry.keyHash
      pure 0

theorem lookup_of_findByPrefix (hsaved : saved.Settled) {keyPrefix : String} {entry : ApiKeyEntry}
    (hfind : findByPrefix keyPrefix saved = some entry) :
    saved.lookup entry.keyHash = some entry := by
  obtain ⟨item, hitem, hentry⟩ := Option.map_eq_some_iff.mp hfind
  have hmem := List.mem_of_find?_eq_some hitem
  rw [← hentry, hsaved.own item hmem]
  exact Assoc.lookup_of_mem hsaved.nodup hmem

theorem wp_apiKeyRevoke_reads (hcalm : env.Calm) (hsaved : saved.Settled)
    (hreads : k.state.Reads saved) (keyPrefix : String) :
    (apiKeyRevoke keyPrefix).wp env.logic (fun outcome store' k' => store'.hasPath = true ∧
      match findByPrefix keyPrefix saved with
      | none => outcome = .ok 1 ∧ store'.entries = saved ∧ k'.state.Reads saved
      | some entry => outcome = .ok 0 ∧
          store'.entries = saved.modify entry.keyHash (·.withdrawn) ∧
            k'.state.Reads store'.entries) store k := by
  unfold apiKeyRevoke
  rw [wp_mutate_bind, wp_bind]
  refine wp_mono env.logic_monotone ?_ (wp_load_reads hcalm hsaved hreads)
  intro outcome store₁ k₁ hload
  obtain ⟨houtcome, hstore, hdisk⟩ := hload
  have hreads₁ : k₁.state.Reads saved := hdisk ▸ hreads
  rw [houtcome, hstore]
  dsimp only
  rw [wp_object_bind]
  dsimp only
  cases hfind : findByPrefix keyPrefix saved with
  | none => exact ⟨rfl, rfl, rfl, hreads₁⟩
  | some entry =>
      have hlookup := lookup_of_findByPrefix hsaved hfind
      dsimp only
      rw [wp_bind]
      refine wp_mono env.logic_monotone ?_
        (wp_revoke_reads hcalm rfl hsaved hreads₁ entry.keyHash)
      intro outcome store₂ k₂ hrevoke
      simp only [hlookup] at hrevoke
      obtain ⟨houtcome, hstore, hreads₂⟩ := hrevoke
      rw [hstore] at hreads₂
      rw [houtcome, hstore]
      exact ⟨rfl, rfl, rfl, hreads₂⟩

/-- The scopes of a new key: the wildcard where none were given. -/
def grantedScopes (scopes : Option (List String)) : List String :=
  match scopes with
  | none | some [] => ["*"]
  | some scopes => scopes

/-- The entry of a new key. -/
def newEntry (keyHash raw actor : String) (scopes : Option (List String)) (createdAt : String) :
    ApiKeyEntry :=
  ⟨keyHash, .str (String.ofList (raw.toList.take 12)), .str actor,
    .list ((grantedScopes scopes).map .str), .str createdAt, .none, .bool false⟩

theorem grantedScopes_eq (scopes : Option (List String)) :
    Value.orElse (match scopes with
      | some scopes => .list (scopes.map .str)
      | none => .none) (.list [.str "*"]) = .list ((grantedScopes scopes).map .str) := by
  rcases scopes with _ | _ | ⟨scope, rest⟩ <;> rfl

theorem grantedScopes_ne_nil (scopes : Option (List String)) : grantedScopes scopes ≠ [] := by
  rcases scopes with _ | _ | ⟨scope, rest⟩ <;> exact List.cons_ne_nil _ _

theorem truthy_strs {texts : List String} (hne : texts ≠ []) :
    (Value.list (texts.map .str)).truthy = true := by
  cases texts with
  | nil => exact absurd rfl hne
  | cons text rest => rfl

theorem truthy_str {text : String} (hne : text ≠ "") : (Value.str text).truthy = true :=
  bne_iff_ne.mpr hne

theorem newEntry_settled (keyHash raw actor : String) (scopes : Option (List String))
    {createdAt : String} (hdated : createdAt ≠ "") :
    (newEntry keyHash raw actor scopes createdAt).Settled := by
  constructor
  · rw [ApiKeyEntry.faithful_toDict]
    have hscopes : Json.Faithful (.list ((grantedScopes scopes).map .str)) := by
      rw [Json.Faithful, Json.faithfulList_iff]
      intro value hmem
      obtain ⟨scope, -, hvalue⟩ := List.mem_map.mp hmem
      rw [← hvalue]
      trivial
    exact ⟨trivial, trivial, hscopes, trivial, trivial, trivial⟩
  · exact truthy_strs (grantedScopes_ne_nil scopes)
  · exact truthy_str hdated

theorem settled_generate {entries : Entries} (hsettled : entries.Settled)
    {keyHash raw actor : String} {scopes : Option (List String)} {entry : ApiKeyEntry}
    (hentry : ∃ createdAt, createdAt ≠ "" ∧ entry = newEntry keyHash raw actor scopes createdAt) :
    (entries.insert keyHash entry).Settled := by
  obtain ⟨createdAt, hdated, heq⟩ := hentry
  rw [heq]
  exact hsettled.insert (newEntry_settled keyHash raw actor scopes hdated)

/-- The next key that is generated. -/
def nextKey (env : KeyEnv) (k : KeyConfig) : String := "cond_" ++ env.tokenHex k.history

/-- A new key is saved at once. -/
theorem wp_generate_reads (halone : env.Alone) (hpath : store.hasPath = true)
    (hsettled : store.entries.Settled) (sha256Hex : String → String) (actor : String)
    (scopes : Option (List String)) :
    (generate sha256Hex actor scopes).wp env.logic (fun outcome store' k' => ∃ raw entry,
      raw = nextKey env k ∧ outcome = .ok (raw, entry) ∧
        (∃ createdAt, createdAt ≠ "" ∧
          entry = newEntry (sha256Hex raw) raw actor scopes createdAt) ∧
        store' = { store with
          entries := store.entries.insert (sha256Hex raw) entry, dirty := true } ∧
        k'.state.Reads store'.entries) store k := by
  have hstamp : createdAtOrNow .none = (do
      let now ← perform KeyCall.nowIso
      pure (.str now)) := if_neg (by decide)
  have htoken : env.machine.step k .tokenHex = (.ok (env.tokenHex k.history), _) := rfl
  unfold generate
  rw [wp_bind, wp_perform]
  refine Machine.call_of_step htoken ?_
  dsimp only
  generalize (⟨_, _⟩ : KeyConfig) = k₁
  have hnow : env.machine.step k₁ .nowIso = (.ok (env.nowIso k₁.history), _) := rfl
  rw [hstamp, bind_assoc, wp_bind, wp_perform]
  refine Machine.call_of_step hnow ?_
  generalize hgranted : Value.orElse _ (.list [.str "*"]) = granted
  have hscopes : granted = .list ((grantedScopes scopes).map .str) :=
    hgranted.symm.trans (grantedScopes_eq scopes)
  rw [hscopes]
  dsimp only
  rw [wp_bind, wp_pure]
  dsimp only
  rw [wp_mutate_bind, wp_mutate_bind, wp_bind]
  generalize hraw : "cond_" ++ env.tokenHex k.history = raw
  have hentry : (newEntry (sha256Hex raw) raw actor scopes (env.nowIso k₁.history)).Settled :=
    newEntry_settled _ _ _ _ (halone.dated k₁.history)
  refine wp_mono env.logic_monotone ?_ (wp_save_reads halone.calm hpath (hsettled.insert hentry))
  intro outcome store₂ k₂ hsave
  obtain ⟨houtcome, hstore, hsaved⟩ := hsave
  rw [houtcome, hstore]
  exact ⟨raw, _, hraw.symm, rfl, ⟨env.nowIso k₁.history, halone.dated _, rfl⟩, rfl, hsaved⟩

end

end ApiKeyStore

end Conductor
