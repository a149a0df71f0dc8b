/-
The times at which keys were last used.  A lookup notes them in memory, and the
server flushes its key store when it shuts down.
-/
import Conductor.Api.KeyRights

namespace Conductor

open Effects Block ApiKeyStore

/-- The store has nothing to flush, and the disk is this one. -/
def Clean (disk : KeyDisk) (store : ApiKeyStore) (k : KeyConfig) : Prop :=
  store.dirty = false ∧ k.state = disk

/-- The calls by which a store only looks at its file and at the clock. -/
def KeyCall.Looks : KeyCall → Prop
  | .pathExists | .stat | .readText | .nowIso => True
  | _ => False

namespace ApiKeyStore

section

variable {env : KeyEnv} {disk : KeyDisk}

theorem clean_perform (hcalm : env.Calm) (c : KeyCall) (hlooks : c.Looks) :
    Keeps env.logic (Clean disk) (perform c) := by
  apply Keeps.perform
  intro store k hclean
  have hstate : (env.machine.step k c).2.state = k.state := by
    cases c with
    | pathExists => rw [step_pathExists hcalm]
    | stat => rw [step_stat hcalm]
    | readText => rw [step_readText hcalm]
    | nowIso => rfl
    | mkdir => cases hlooks
    | writeTmp text => cases hlooks
    | replaceTmp => cases hlooks
    | tokenHex => cases hlooks
  exact ⟨hclean.1, hstate.trans hclean.2⟩

theorem clean_mutate {f : ApiKeyStore → ApiKeyStore} (hf : ∀ store, (f store).dirty = store.dirty) :
    Keeps env.logic (Clean disk) (mutate f : KeyBlock Unit) :=
  Keeps.mutate fun store _ hclean => ⟨(hf store).trans hclean.1, hclean.2⟩

theorem clean_createdAtOrNow (hcalm : env.Calm) (createdAt : Value) :
    Keeps env.logic (Clean disk) (createdAtOrNow createdAt) := by
  unfold createdAtOrNow
  split
  · exact Keeps.pure _
  · exact Keeps.bind env.logic_monotone (clean_perform hcalm .nowIso trivial) fun _ => Keeps.pure _

theorem clean_fromItems (hcalm : env.Calm) (items : Dict) :
    Keeps env.logic (Clean disk) (fromItems items) := by
  induction items with
  | nil => exact Keeps.pure _
  | cons item rest ih =>
      apply Keeps.bind env.logic_monotone
      · apply Keeps.bind env.logic_monotone (Keeps.ofExcept _)
        intro keyPrefix
        apply Keeps.bind env.logic_monotone (clean_createdAtOrNow hcalm _)
        exact fun _ => Keeps.pure _
      · intro entry
        exact Keeps.bind env.logic_monotone ih fun _ => Keeps.pure _

theorem clean_load (hcalm : env.Calm) : Keeps env.logic (Clean disk) load := by
  apply Keeps.bind env.logic_monotone (clean_perform hcalm .pathExists trivial)
  intro found
  split
  · apply Keeps.tryExcept env.logic_monotone
    · apply Keeps.bind env.logic_monotone (clean_perform hcalm .readText trivial)
      intro raw
      apply Keeps.bind env.logic_monotone (Keeps.ofExcept _)
      intro data
      apply Keeps.bind env.logic_monotone (Keeps.ofExcept _)
      intro items
      apply Keeps.bind env.logic_monotone (clean_fromItems hcalm items)
      exact fun _ => clean_mutate fun _ => rfl
    · exact fun _ => clean_mutate fun _ => rfl
  · exact clean_mutate fun _ => rfl

theorem clean_currentMtime (hcalm : env.Calm) : Keeps env.logic (Clean disk) currentMtime := by
  apply Keeps.tryExcept env.logic_monotone
  · apply Keeps.bind env.logic_monotone (clean_perform hcalm .stat trivial)
    exact fun _ => Keeps.pure _
  · exact fun _ => Keeps.pure _

theorem clean_reload (hcalm : env.Calm) : Keeps env.logic (Clean disk) reloadIfChanged := by
  apply Keeps.bind env.logic_monotone Keeps.object
  intro store
  split
  · apply Keeps.bind env.logic_monotone (clean_perform hcalm .pathExists trivial)
    intro found
    split
    · apply Keeps.bind env.logic_monotone (clean_currentMtime hcalm)
      intro mtime?
      cases mtime? with
      | none => exact Keeps.pure _
      | some mtime =>
          apply Keeps.bind env.logic_monotone
          · exact clean_mutate fun _ => rfl
          intro _
          split
          · apply Keeps.bind env.logic_monotone (clean_load hcalm)
            exact fun _ => clean_mutate fun _ => rfl
          · exact Keeps.pure _
    · exact Keeps.pure _
  · exact Keeps.pure _

theorem clean_lookup (hcalm : env.Calm) (sha256Hex : String → String) (rawKey : String) :
    Keeps env.logic (Clean disk) (lookup sha256Hex rawKey) := by
  apply Keeps.bind env.logic_monotone (clean_reload hcalm)
  intro _
  apply Keeps.bind env.logic_monotone Keeps.object
  intro store
  split
  · exact Keeps.pure _
  · split
    · apply Keeps.bind env.logic_monotone (clean_perform hcalm .nowIso trivial)
      intro now
      apply Keeps.bind env.logic_monotone
      · exact clean_mutate fun _ => rfl
      · exact fun _ => Keeps.pure _
    · exact Keeps.pure _

/-- A store that is clean flushes nothing. -/
theorem clean_flush : Keeps env.logic (Clean disk) flushUsage := by
  apply Keeps.bind_object
  intro store k hclean
  rw [hclean.1]
  exact hclean

end

end ApiKeyStore

/-- The field of the entry with this hash in the key file. -/
def KeyDisk.field (disk : KeyDisk) (keyHash name : String) : Option Value :=
  match disk.items.lookup keyHash with
  | some (.dict fields) => fields.lookup name
  | _ => none

namespace Server

/-- The store looks the keys up one after another. -/
def lookAll (env : KeyEnv) (sha256Hex : String → String) (rawKeys : List String)
    (server : Server) : Server :=
  rawKeys.foldl (fun server rawKey => (server.call env (lookup sha256Hex rawKey)).2) server

/-- The keys that were found, each with the time that the lookup noted, the
newest first. -/
def uses (env : KeyEnv) (sha256Hex : String → String) :
    List String → Server → List (String × Value)
  | [], _ => []
  | rawKey :: rest, server =>
      let (outcome, server) := server.call env (lookup sha256Hex rawKey)
      match outcome with
      | some (.ok (some entry)) =>
          uses env sha256Hex rest server ++ [(sha256Hex rawKey, entry.lastUsedAt)]
      | _ => uses env sha256Hex rest server

end Server

/-- The file tells of each key when it was used last, and is otherwise as it was. -/
structure UsagePersisted (uses : List (String × Value)) (before after : KeyDisk) : Prop where
  used : ∀ keyHash now, uses.lookup keyHash = some now →
    after.field keyHash "last_used_at" = some now
  unused : ∀ keyHash, uses.lookup keyHash = none →
    after.field keyHash "last_used_at" = before.field keyHash "last_used_at"
  others : ∀ keyHash name, name ≠ "last_used_at" →
    after.field keyHash name = before.field keyHash name

section

variable {env : KeyEnv} {disk : KeyDisk} {server : Server}

theorem Server.clean_call {α : Type} {block : KeyBlock α}
    (hkeeps : Keeps env.logic (Clean disk) block) (hclean : Clean disk server.store server.world) :
    Clean disk (server.call env block).2.store (server.call env block).2.world := by
  obtain ⟨outcome, store', k', hcall, hclean'⟩ := call_of_wp (hkeeps hclean)
  rw [hcall]
  exact hclean'

theorem Server.clean_lookAll (hcalm : env.Calm) (sha256Hex : String → String)
    (rawKeys : List String) (hclean : Clean disk server.store server.world) :
    Clean disk (server.lookAll env sha256Hex rawKeys).store
      (server.lookAll env sha256Hex rawKeys).world := by
  induction rawKeys generalizing server with
  | nil => exact hclean
  | cons rawKey rest ih => exact ih (clean_call (clean_lookup hcalm sha256Hex rawKey) hclean)

theorem clean_construct (hcalm : env.Calm) {store : ApiKeyStore} {k : KeyConfig}
    (hstart : construct env disk = some (store, k)) : Clean disk store k := by
  have hblank : Clean disk blank ⟨[], disk⟩ := ⟨rfl, rfl⟩
  obtain ⟨⟨outcome, store'⟩, k', hexec, hclean⟩ := Machine.exec_of_wp (clean_load hcalm hblank)
  rw [construct, hexec] at hstart
  cases outcome with
  | error e => cases hstart
  | ok value =>
      cases hstart
      exact hclean

end

/-- A server that only looks keys up writes nothing when it shuts down. -/
theorem shutdown_disk {env : KeyEnv} (hcalm : env.Calm) (sha256Hex : String → String)
    {disk : KeyDisk} {store : ApiKeyStore} {k : KeyConfig}
    (hstart : construct env disk = some (store, k)) (rawKeys : List String) :
    (((Server.mk store k).lookAll env sha256Hex rawKeys).call env flushUsage).2.disk = disk := by
  have hstarted : Clean disk (Server.mk store k).store (Server.mk store k).world :=
    clean_construct hcalm hstart
  have hlooked := Server.clean_lookAll hcalm sha256Hex rawKeys hstarted
  have hflushed := Server.clean_call (clean_flush : Keeps env.logic _ _) hlooked
  exact hflushed.2

/-- After the shutdown the file tells of the usage just where it did so before. -/
theorem usage_persisted_iff {env : KeyEnv} (hcalm : env.Calm) (sha256Hex : String → String)
    {disk : KeyDisk} {store : ApiKeyStore} {k : KeyConfig}
    (hstart : construct env disk = some (store, k)) (rawKeys : List String) :
    UsagePersisted (Server.uses env sha256Hex rawKeys ⟨store, k⟩) disk
        (((Server.mk store k).lookAll env sha256Hex rawKeys).call env flushUsage).2.disk ↔
      ∀ keyHash now, (Server.uses env sha256Hex rawKeys ⟨store, k⟩).lookup keyHash = some now →
        disk.field keyHash "last_used_at" = some now := by
  rw [shutdown_disk hcalm sha256Hex hstart rawKeys]
  constructor
  · exact fun hpersisted => hpersisted.used
  · exact fun hused => ⟨hused, fun _ _ => rfl, fun _ _ _ => rfl⟩

/-- One active key, never used. -/
def unusedKey : Entries :=
  [("hash", newEntry "hash" "cond_secret" "bot" none "2026-06-17T12:00:00+00:00")]

theorem unusedKey_settled : unusedKey.Settled where
  nodup := by decide
  own := by simp [unusedKey, newEntry]
  settled := by
    intro item hmem
    rw [List.mem_singleton.mp hmem]
    exact newEntry_settled _ _ _ _ (by decide)

/-- A store is started on a file that holds the key. -/
theorem unusedKey_started : ∃ disk store k, disk.Reads unusedKey ∧
    construct keyDesk disk = some (store, k) ∧ store.entries = unusedKey ∧ k.state = disk := by
  obtain ⟨text, -, hloads⟩ := Json.loads_dumps (.indented 2) false unusedKey_settled.faithful
  have hread : Json.loads text = .ok (.dict unusedKey.toDict) := by
    have hplain := hloads "" (by simp)
    rwa [String.append_empty] at hplain
  have hreads : (KeyDisk.mk (some ⟨some text, 1⟩) none).Reads unusedKey := ⟨text, rfl, hread⟩
  let start : KeyConfig := ⟨[], ⟨some ⟨some text, 1⟩, none⟩⟩
  have hwp : load.wp keyDesk.logic _ blank start :=
    wp_load_reads keyDesk_alone.calm unusedKey_settled hreads
  obtain ⟨⟨outcome, store⟩, k, hexec, houtcome, hstore, hdisk⟩ := Machine.exec_of_wp hwp
  change outcome = _ at houtcome
  change store = _ at hstore
  rw [houtcome] at hexec
  refine ⟨_, store, k, hreads, ?_, by rw [hstore], hdisk⟩
  rw [construct, hexec]

/-- One lookup, by what it finds. -/
theorem uses_of_lookedUp {disk : KeyDisk} {store : ApiKeyStore} {k : KeyConfig}
    (hreads : disk.Reads unusedKey) (hdisk : k.state = disk) (rawKey : String) :
    ∃ found? store', LookedUp store unusedKey rawKey found? store' ∧
      Server.uses keyDesk id [rawKey] ⟨store, k⟩ =
        found?.toList.map fun entry => (rawKey, entry.lastUsedAt) := by
  have hwp : (lookup id rawKey).wp keyDesk.logic _ (Server.mk store k).store
      (Server.mk store k).world :=
    wp_lookup_reads keyDesk_alone.calm unusedKey_settled (hdisk ▸ hreads) id rawKey
  obtain ⟨outcome, store', k', hcall, found?, houtcome, hlooked, -⟩ := Server.call_of_wp hwp
  rw [houtcome] at hcall
  refine ⟨found?, store', hlooked, ?_⟩
  rw [Server.uses, hcall]
  cases found? with
  | none => rfl
  | some entry => rfl

/-- A key that the file does not hold is not used. -/
theorem usage_persisted_iff_unknown : ∃ disk store k, construct keyDesk disk = some (store, k) ∧
    UsagePersisted (Server.uses keyDesk id ["unknown"] ⟨store, k⟩) disk
      (((Server.mk store k).lookAll keyDesk id ["unknown"]).call keyDesk flushUsage).2.disk := by
  obtain ⟨disk, store, k, hreads, hstart, hentries, hdisk⟩ := unusedKey_started
  refine ⟨disk, store, k, hstart, ?_⟩
  apply (usage_persisted_iff keyDesk_alone.calm id hstart ["unknown"]).mpr
  obtain ⟨found?, store', hlooked, huses⟩ := uses_of_lookedUp hreads hdisk "unknown"
  rw [huses]
  cases hlooked with
  | unknown hreload hinactive => simp
  | found now hreload hentry hactive =>
      have hboth := hreload.either (I := fun entries => entries.lookup "unknown" = none)
        (by rw [hentries]; rfl) rfl
      rw [hboth] at hentry
      cases hentry

/-- The key was found, and its file says nothing of it. -/
theorem usage_forgotten : ¬ ∀ (env : KeyEnv) (_ : env.Calm) (sha256Hex : String → String)
    (disk : KeyDisk) (store : ApiKeyStore) (k : KeyConfig)
    (_ : construct env disk = some (store, k)) (rawKeys : List String),
    UsagePersisted (Server.uses env sha256Hex rawKeys ⟨store, k⟩) disk
      (((Server.mk store k).lookAll env sha256Hex rawKeys).call env flushUsage).2.disk := by
  intro hall
  obtain ⟨disk, store, k, hreads, hstart, hentries, hdisk⟩ := unusedKey_started
  have hpersisted := hall keyDesk keyDesk_alone.calm id disk store k hstart ["hash"]
  have hfield : disk.field "hash" "last_used_at" = some .none := by
    rw [KeyDisk.field, items_of_reads hreads]
    rfl
  obtain ⟨found?, store', hlooked, huses⟩ := uses_of_lookedUp hreads hdisk "hash"
  rw [shutdown_disk keyDesk_alone.calm id hstart, huses] at hpersisted
  cases hlooked with
  | unknown hreload hinactive =>
      have hboth := hreload.either (I := fun entries => entries = unusedKey) hentries rfl
      rw [hboth] at hinactive
      cases hinactive _ rfl
  | found now hreload hentry hactive =>
      have hused := hpersisted.used "hash" (.str now) rfl
      rw [hfield] at hused
      cases hused

end Conductor
