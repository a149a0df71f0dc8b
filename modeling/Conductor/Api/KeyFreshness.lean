/-
How fresh a lookup is.  Other processes rewrite or delete the key file before
any of the store's looks at it.  A lookup is right when its answer fits the file
as it stood at the lookup's last look.
-/
import Conductor.Api.KeyFile

namespace Conductor

open Effects Block

/-- One lookup of a run, with the store and the world before and after it. -/
structure Lookup where
  rawKey : String
  store : ApiKeyStore
  before : KeyConfig
  outcome : Except PyExc (Option ApiKeyEntry)
  store' : ApiKeyStore
  after : KeyConfig

namespace ApiKeyStore

/-- `__init__`, up to the loading. -/
def blank : ApiKeyStore := ⟨true, [], false, none⟩

/-- `ApiKeyStore(path)` on this disk, if it does not raise. -/
def construct (env : KeyEnv) (disk : KeyDisk) : Option (ApiKeyStore × KeyConfig) :=
  match (load.run blank).exec env.machine ⟨[], disk⟩ with
  | (some (.ok _, store), k) => some (store, k)
  | _ => none

/-- The keys are looked up one after another. -/
def lookups (env : KeyEnv) (sha256Hex : String → String) :
    List String → ApiKeyStore → KeyConfig → List Lookup
  | [], _, _ => []
  | rawKey :: rest, store, k =>
      match ((lookup sha256Hex rawKey).run store).exec env.machine k with
      | (some (outcome, store'), k') =>
          ⟨rawKey, store, k, outcome, store', k'⟩ :: lookups env sha256Hex rest store' k'
      | (none, _) => []

end ApiKeyStore

open ApiKeyStore

instance (outcome : Except PyExc (Option ApiKeyEntry)) : Decidable (Found outcome) :=
  match outcome with
  | .ok (some entry) => .isTrue ⟨entry, rfl⟩
  | .ok none => .isFalse (by rintro ⟨entry, ⟨⟩⟩)
  | .error _ => .isFalse (by rintro ⟨entry, ⟨⟩⟩)

namespace Lookup

/-- It returned an entry if and only if the file holds the hash of the key with
`revoked` false. -/
def Right (sha256Hex : String → String) (looked : Lookup) : Prop :=
  Found looked.outcome ↔ looked.after.state.standing.Active (sha256Hex looked.rawKey)

instance (sha256Hex : String → String) (looked : Lookup) : Decidable (looked.Right sha256Hex) :=
  inferInstanceAs (Decidable (_ ↔ _))

/-- The store glances at a file that is newer than the one loaded last, or one
on which it agrees about the key anyway. -/
def Forewarned (env : KeyEnv) (sha256Hex : String → String) (looked : Lookup) : Prop :=
  Newer env looked.store looked.before ∨
    (looked.store.entries.standing.Active (sha256Hex looked.rawKey) ↔
      (glance env looked.before).standing.Active (sha256Hex looked.rawKey))

end Lookup

/-- The other processes replace key maps by key maps, or delete them. -/
def KeyEnv.WritesKeyMaps (env : KeyEnv) : Prop :=
  ∀ h disk, disk.Valid → (env.others h disk).Valid

/-- The modification time of a file that is replaced does not decrease. -/
def KeyEnv.NeverBack (env : KeyEnv) : Prop :=
  ∀ h disk file file', disk.file = some file → (env.others h disk).file = some file' →
    file.mtime ≤ file'.mtime

/-- The other processes never delete the file, and each rewrite is newer than
every modification time that was asked for so far. -/
def KeyEnv.Forward (env : KeyEnv) : Prop :=
  ∀ h disk, env.others h disk = disk ∨
    ∃ file, (env.others h disk).file = some file ∧ ∀ mtime ∈ 0 :: statTimes h, mtime < file.mtime

section Endings

variable {env : KeyEnv} {store store' : ApiKeyStore} {k k' : KeyConfig}

theorem Later.valid (hmaps : env.WritesKeyMaps) {disk disk' : KeyDisk}
    (hlater : Later env disk disk') (hvalid : disk.Valid) : disk'.Valid := by
  induction hlater with
  | once h => exact hmaps h disk hvalid
  | more hlater h ih => exact hmaps h _ ih

theorem later_glance (env : KeyEnv) (k : KeyConfig) : Later env k.state (glance env k) := by
  unfold glance
  dsimp only
  split
  · exact .more (.once _) _
  · exact .once _

/-- Loading a key map, or finding no file, leaves the store with the keys of the
file. -/
theorem ApiKeyStore.LoadEnds.standing {entries entries' : Entries} {disk : KeyDisk}
    (hvalid : disk.Valid) (hends : LoadEnds entries disk (.ok ()) entries') :
    entries'.standing = disk.standing := by
  cases hends with
  | missing hmissing =>
      rw [KeyDisk.standing, hmissing]
      rfl
  | read hread hescapes =>
      cases hread with
      | read hfile hitems hstanding =>
          rw [KeyDisk.standing, hfile, hstanding]
          dsimp only
          rw [KeyFile.standing, hitems]
  | swallowed hfile hfault hcaught =>
      obtain ⟨items, hitems⟩ := hvalid _ hfile
      rw [hfault] at hitems
      cases hitems

/-- Loading raises on no key map: the file must have gone. -/
theorem ApiKeyStore.LoadEnds.missing_of_error {entries entries' : Entries} {disk : KeyDisk}
    {e : PyExc} (hvalid : disk.Valid) (hends : LoadEnds entries disk (.error e) entries') :
    disk.file = none := by
  cases hends with
  | read hread hescapes =>
      cases hread with
      | vanished hmissing => exact hmissing
      | failed hfile hfault =>
          obtain ⟨items, hitems⟩ := hvalid _ hfile
          rw [hfault] at hitems
          cases hitems

theorem KeyDisk.not_active_of_missing {disk : KeyDisk} (hmissing : disk.file = none)
    (keyHash : String) : ¬ disk.standing.Active keyHash := by
  rw [KeyDisk.standing, hmissing]
  simp [Standing.Active]

theorem glance_valid (hmaps : env.WritesKeyMaps) (hvalid : k.state.Valid) :
    (glance env k).Valid :=
  (later_glance env k).valid hmaps hvalid

/-- A lookup leaves a key map behind where it found one. -/
theorem ApiKeyStore.LookupEnds.valid (hmaps : env.WritesKeyMaps) (hvalid : k.state.Valid)
    {keyHash : String} {outcome : Except PyExc (Option ApiKeyEntry)}
    (hends : LookupEnds env store k keyHash outcome store' k') : k'.state.Valid := by
  obtain ⟨reloaded, store₁, k₁, hreload, hkept, -⟩ := hends.reload
  rw [hkept.state]
  cases hreload with
  | kept hnewer hdisk hentries hmark =>
      rw [hdisk]
      exact glance_valid hmaps hvalid
  | loaded hfile hnewer hlater hload hmark hasked =>
      exact hlater.valid hmaps (glance_valid hmaps hvalid)
  | failed hnewer hlater hload hmark => exact hlater.valid hmaps (glance_valid hmaps hvalid)

/-- A lookup is right exactly if the store was forewarned. -/
theorem ApiKeyStore.LookupEnds.right_iff (hmaps : env.WritesKeyMaps) (hvalid : k.state.Valid)
    {keyHash : String}
    {outcome : Except PyExc (Option ApiKeyEntry)}
    (hends : LookupEnds env store k keyHash outcome store' k') :
    (Found outcome ↔ k'.state.standing.Active keyHash) ↔
      Newer env store k ∨ (store.entries.standing.Active keyHash ↔
        (glance env k).standing.Active keyHash) := by
  obtain ⟨reloaded, store₁, k₁, hreload, hkept, -, -, houtcome⟩ := hends.reload
  rw [hkept.state]
  have hfound : ∀ {found? : Option ApiKeyEntry}, outcome = .ok found? →
      (Found outcome ↔ found?.isSome) := by
    rintro found? rfl
    cases found? <;> simp [Found]
  cases hreload with
  | kept hnewer hdisk hentries hmark =>
      obtain ⟨found?, hok, hactive⟩ := houtcome
      rw [hfound hok, hactive, hentries, hdisk]
      exact (or_iff_right hnewer).symm
  | loaded hfile hnewer hlater hload hmark hasked =>
      obtain ⟨found?, hok, hactive⟩ := houtcome
      rw [hfound hok, hactive, hload.standing (hlater.valid hmaps (glance_valid hmaps hvalid))]
      exact iff_of_true Iff.rfl (.inl ⟨_, hfile, hnewer⟩)
  | failed hnewer hlater hload hmark =>
      have hmissing := hload.missing_of_error (hlater.valid hmaps (glance_valid hmaps hvalid))
      have hnotFound : ¬ Found outcome := by
        rintro ⟨entry, hentry⟩
        rw [houtcome] at hentry
        cases hentry
      exact iff_of_true (iff_of_false hnotFound (KeyDisk.not_active_of_missing hmissing _))
        (.inl hnewer)

end Endings

/-- A lookup comes to an end. -/
theorem lookup_ran (env : KeyEnv) (sha256Hex : String → String) (rawKey : String)
    {store : ApiKeyStore} (hpath : store.hasPath = true) (k : KeyConfig) :
    ∃ outcome store' k',
      ((lookup sha256Hex rawKey).run store).exec env.machine k = (some (outcome, store'), k') ∧
        LookupEnds env store k (sha256Hex rawKey) outcome store' k' := by
  have hwp : (lookup sha256Hex rawKey).wp env.logic
      (LookupEnds env store k (sha256Hex rawKey)) store k := wp_lookup sha256Hex rawKey hpath
  obtain ⟨⟨outcome, store'⟩, k', hexec, hends⟩ := Machine.exec_of_wp hwp
  exact ⟨outcome, store', k', hexec, hends⟩

/-- A property of the store and the world that every lookup keeps. -/
theorem lookups_invariant {env : KeyEnv} {sha256Hex : String → String}
    {I : ApiKeyStore → KeyConfig → Prop}
    (hstep : ∀ {store store' k k' keyHash outcome}, I store k →
      LookupEnds env store k keyHash outcome store' k' → I store' k')
    {keys : List String} {store : ApiKeyStore} {k : KeyConfig} (hpath : store.hasPath = true)
    (hI : I store k) {looked : Lookup} (hlooked : looked ∈ lookups env sha256Hex keys store k) :
    I looked.store looked.before ∧ LookupEnds env looked.store looked.before
      (sha256Hex looked.rawKey) looked.outcome looked.store' looked.after := by
  induction keys generalizing store k with
  | nil => cases hlooked
  | cons rawKey rest ih =>
      obtain ⟨outcome, store', k', hexec, hends⟩ := lookup_ran env sha256Hex rawKey hpath k
      rw [lookups, hexec] at hlooked
      rcases List.mem_cons.mp hlooked with rfl | hrest
      · exact ⟨hI, hends⟩
      · exact ih hends.hasPath (hstep hI hends) hrest

theorem lookup_right_iff {env : KeyEnv} (hmaps : env.WritesKeyMaps)
    {sha256Hex : String → String} {keys : List String} {store : ApiKeyStore} {k : KeyConfig}
    (hpath : store.hasPath = true) (hvalid : k.state.Valid) {looked : Lookup}
    (hlooked : looked ∈ lookups env sha256Hex keys store k) :
    looked.Right sha256Hex ↔ looked.Forewarned env sha256Hex := by
  have hkept := lookups_invariant (I := fun _ k => k.state.Valid)
    (fun hvalid hends => hends.valid hmaps hvalid) hpath hvalid hlooked
  exact hkept.2.right_iff hmaps hkept.1

/-- The store knows what the file says, or will notice that it does not. -/
structure InStep (store : ApiKeyStore) (k : KeyConfig) : Prop where
  valid : k.state.Valid
  asked : store.mark ∈ 0 :: statTimes k.history
  current : (∀ keyHash, store.entries.standing.Active keyHash ↔
      k.state.standing.Active keyHash) ∨
    ∃ file, k.state.file = some file ∧ store.mark < file.mtime

section Forward

variable {env : KeyEnv} {store store' : ApiKeyStore} {k k' : KeyConfig}

/-- What the store knows of one state of the file it knows of the next. -/
theorem InStep.others (hmaps : env.WritesKeyMaps) (hforward : env.Forward)
    (hin : InStep store k) {h : KeyHistory} (htimes : statTimes k.history ⊆ statTimes h) :
    InStep store ⟨h, env.others h k.state⟩ := by
  have hasked : store.mark ∈ 0 :: statTimes h := List.cons_subset_cons 0 htimes hin.asked
  refine ⟨hmaps h _ hin.valid, hasked, ?_⟩
  rcases hforward h k.state with hsame | ⟨file, hfile, hnewer⟩
  · dsimp only
    rw [hsame]
    exact hin.current
  · exact .inr ⟨file, hfile, hnewer _ hasked⟩

theorem InStep.glance (hmaps : env.WritesKeyMaps) (hforward : env.Forward)
    (hin : InStep store k) :
    InStep store ⟨k.history, ApiKeyStore.glance env k⟩ := by
  have hfirst := hin.others hmaps hforward (List.Subset.refl _)
  unfold ApiKeyStore.glance
  dsimp only
  split
  · have hsecond := hfirst.others hmaps hforward (h := ⟨.pathExists, .ok true⟩ :: k.history)
      (List.Subset.refl _)
    exact ⟨hsecond.valid, hin.asked, hsecond.current⟩
  · exact hfirst

/-- A file that is never deleted stays. -/
theorem Later.exists (hforward : env.Forward) {disk disk' : KeyDisk} (hlater : Later env disk disk')
    (hfile : disk.file.isSome) : disk'.file.isSome := by
  have hothers : ∀ h {disk : KeyDisk}, disk.file.isSome → (env.others h disk).file.isSome := by
    intro h disk hfile
    rcases hforward h disk with hsame | ⟨file, hnew, -⟩
    · rw [hsame]
      exact hfile
    · rw [hnew]
      rfl
  induction hlater with
  | once h => exact hothers h hfile
  | more hlater h ih => exact hothers h ih

/-- A lookup leaves the store up to date. -/
theorem InStep.lookup (hmaps : env.WritesKeyMaps) (hforward : env.Forward)
    (hin : InStep store k) {keyHash : String} {outcome : Except PyExc (Option ApiKeyEntry)}
    (hends : LookupEnds env store k keyHash outcome store' k') : InStep store' k' := by
  obtain ⟨reloaded, store₁, k₁, hreload, hkept, hmark', hstanding', -⟩ := hends.reload
  have hglance := hin.glance hmaps hforward
  have hvalid := hends.valid hmaps hin.valid
  cases hreload with
  | kept hnewer hdisk hentries hmark =>
      have hasked : store'.mark ∈ 0 :: statTimes k'.history := by
        rw [hmark', hmark]
        exact List.cons_subset_cons 0 hends.times hin.asked
      refine ⟨hvalid, hasked, ?_⟩
      rw [hmark', hmark, hstanding', hentries, hkept.state, hdisk]
      exact hglance.current
  | loaded hfile hnewer hlater hload hmark hasked =>
      refine ⟨hvalid, ?_, .inl fun keyHash => ?_⟩
      · rw [hmark', hmark, hkept.times]
        exact List.mem_cons_of_mem _ hasked
      · rw [hstanding', hload.standing (hlater.valid hmaps hglance.valid), hkept.state]
  | failed hnewer hlater hload hmark =>
      obtain ⟨file, hfile, -⟩ := hnewer
      have hexists := hlater.exists hforward (by rw [hfile]; rfl)
      rw [hload.missing_of_error (hlater.valid hmaps hglance.valid)] at hexists
      cases hexists

/-- An up-to-date store is forewarned. -/
theorem InStep.forewarned (hmaps : env.WritesKeyMaps) (hforward : env.Forward)
    (hin : InStep store k) (keyHash : String) :
    Newer env store k ∨ (store.entries.standing.Active keyHash ↔
      (ApiKeyStore.glance env k).standing.Active keyHash) := by
  rcases (hin.glance hmaps hforward).current with hsame | hnewer
  · exact .inr (hsame keyHash)
  · exact .inl hnewer

/-- A store that was constructed has what the file said, and has not yet looked
at a modification time. -/
theorem construct_loaded (hmaps : env.WritesKeyMaps) {disk : KeyDisk} (hvalid : disk.Valid)
    (hstart : construct env disk = some (store, k)) :
    store.hasPath = true ∧ store.mark = 0 ∧ k.state.Valid ∧
      store.entries.standing = k.state.standing := by
  have hwp : load.wp env.logic _ blank ⟨[], disk⟩ := wp_load
  obtain ⟨⟨outcome, store₁⟩, k₁, hexec, htimes, hlater, entries, hstore, hends⟩ :=
    Machine.exec_of_wp hwp
  rw [construct, hexec] at hstart
  cases outcome with
  | error e => cases hstart
  | ok value =>
      cases hstart
      have hfields : store = { blank with entries := entries } := hstore
      subst hfields
      have hvalid' := hlater.valid hmaps hvalid
      exact ⟨rfl, rfl, hvalid', hends.standing hvalid'⟩

theorem construct_inStep (hmaps : env.WritesKeyMaps) {disk : KeyDisk} (hvalid : disk.Valid)
    (hstart : construct env disk = some (store, k)) : InStep store k := by
  obtain ⟨-, hmark, hvalid', hstanding⟩ := construct_loaded hmaps hvalid hstart
  refine ⟨hvalid', ?_, .inl fun keyHash => ?_⟩
  · rw [hmark]
    exact List.mem_cons_self
  · rw [hstanding]

end Forward

/-- From the `after`-th call on the disk has been rewritten. -/
def rewriting (after : Nat) (rewrite : KeyDisk → KeyDisk) : KeyEnv where
  others h disk := if after ≤ h.length then rewrite disk else disk
  nowIso _ := "2026-06-17T12:00:00+00:00"
  tokenHex _ := ""
  mtime _ := 0

/-- The content of a file with one key, which is active or revoked. -/
def oneKey (revoked : Bool) : Option String :=
  some ("\x7b\"hash\": \x7b\"prefix\": \"cond_abc\", \"revoked\": " ++
    (if revoked then "true" else "false") ++ "\x7d\x7d")

theorem oneKey_valid (revoked : Bool) (mtime : Mtime) :
    (KeyFile.mk (oneKey revoked) mtime).Valid := by
  have hread : (readItems (oneKey revoked)).toOption.isSome = true := by
    cases revoked <;> decide +kernel
  unfold KeyFile.Valid
  cases hitems : readItems (oneKey revoked) with
  | error e =>
      rw [hitems] at hread
      cases hread
  | ok items => exact ⟨items, rfl⟩

theorem rewriting_others (h : KeyHistory) (disk : KeyDisk) :
    (rewriting 0 id).others h disk = disk := by
  simp [rewriting]

/-- Over every run of lookups on a store that was constructed from the file: a
lookup is right exactly if it was forewarned, and if every rewrite moves the
modification time forward and nothing is deleted, all lookups are right. -/
theorem lookup_fresh {env : KeyEnv} {sha256Hex : String → String} {disk : KeyDisk}
    {store : ApiKeyStore} {k : KeyConfig} (hmaps : env.WritesKeyMaps) (hvalid : disk.Valid)
    (hstart : construct env disk = some (store, k)) (keys : List String) :
    (∀ looked ∈ lookups env sha256Hex keys store k,
        (looked.Right sha256Hex ↔ looked.Forewarned env sha256Hex)) ∧
      (env.Forward → ∀ looked ∈ lookups env sha256Hex keys store k,
        looked.Right sha256Hex) := by
  have hpath := (construct_loaded hmaps hvalid hstart).1
  have hin := construct_inStep hmaps hvalid hstart
  have hiff : ∀ looked ∈ lookups env sha256Hex keys store k,
      (looked.Right sha256Hex ↔ looked.Forewarned env sha256Hex) :=
    fun looked hlooked => lookup_right_iff hmaps hpath hin.valid hlooked
  refine ⟨hiff, fun hforward looked hlooked => ?_⟩
  have hkept := lookups_invariant (I := InStep)
    (fun hin hends => hin.lookup hmaps hforward hends) hpath hin hlooked
  exact (hiff looked hlooked).mpr (hkept.1.forewarned hmaps hforward _)

theorem lookup_fresh_untouched :
    ∃ store k, construct (rewriting 0 id) ⟨some ⟨oneKey false, 1⟩, none⟩ = some (store, k) ∧
      ∀ looked ∈ lookups (rewriting 0 id) id ["hash", "other"] store k, looked.Right id := by
  have hvalid : (KeyDisk.mk (some ⟨oneKey false, 1⟩) none).Valid := by
    rintro file ⟨⟩
    exact oneKey_valid false 1
  have hmaps : (rewriting 0 id).WritesKeyMaps := fun h disk hvalid => by
    rw [rewriting_others]
    exact hvalid
  have hforward : (rewriting 0 id).Forward := fun h disk => .inl (rewriting_others h disk)
  have hstarts : (construct (rewriting 0 id) ⟨some ⟨oneKey false, 1⟩, none⟩).isSome = true := by
    decide +kernel
  obtain ⟨⟨store, k⟩, hstart⟩ := Option.isSome_iff_exists.mp hstarts
  exact ⟨store, k, hstart, (lookup_fresh hmaps hvalid hstart _).2 hforward⟩

theorem rewriting_writesKeyMaps {after : Nat} {rewrite : KeyDisk → KeyDisk}
    (hrewrite : ∀ disk, (rewrite disk).Valid) : (rewriting after rewrite).WritesKeyMaps := by
  intro h disk hvalid
  dsimp only [rewriting]
  split
  · exact hrewrite disk
  · exact hvalid

/-- The file is deleted. -/
def deleted (_ : KeyDisk) : KeyDisk := ⟨none, none⟩

/-- The key is revoked within the tick in which the file was written. -/
def revokedAtOnce (disk : KeyDisk) : KeyDisk :=
  ⟨disk.file.map fun file => ⟨oneKey true, file.mtime⟩, none⟩

/-- Some lookup of the run is wrong. -/
def someWrong (env : KeyEnv) (disk : KeyDisk) (keys : List String) : Bool :=
  match construct env disk with
  | some (store, k) => (lookups env id keys store k).any fun looked => !decide (looked.Right id)
  | none => false

theorem wrong_of_someWrong {env : KeyEnv} {disk : KeyDisk} {keys : List String}
    (hwrong : someWrong env disk keys = true) :
    ∃ store k, construct env disk = some (store, k) ∧
      ∃ looked ∈ lookups env id keys store k, ¬ looked.Right id := by
  unfold someWrong at hwrong
  split at hwrong
  · rename_i store k hstart
    obtain ⟨looked, hmem, hlooked⟩ := List.any_eq_true.mp hwrong
    exact ⟨store, k, hstart, looked, hmem, by simpa using hlooked⟩
  · cases hwrong

theorem rewriting_neverBack {after : Nat} {rewrite : KeyDisk → KeyDisk}
    (hrewrite : ∀ disk file file', disk.file = some file → (rewrite disk).file = some file' →
      file.mtime ≤ file'.mtime) : (rewriting after rewrite).NeverBack := by
  intro h disk file file' hfile hfile'
  dsimp only [rewriting] at hfile'
  split at hfile'
  · exact hrewrite disk file file' hfile hfile'
  · rw [hfile] at hfile'
    cases hfile'
    exact Nat.le_refl _

/-- Some run of lookups goes wrong on a file that is so rewritten. -/
def GoesStale (rewrite : KeyDisk → KeyDisk) : Prop :=
  ∃ after disk store k,
    (rewriting after rewrite).WritesKeyMaps ∧ (rewriting after rewrite).NeverBack ∧
      disk.Valid ∧ construct (rewriting after rewrite) disk = some (store, k) ∧
      ∃ looked ∈ lookups (rewriting after rewrite) id ["hash", "hash"] store k,
        ¬ looked.Right id

/-- A key is found though its file was deleted, and though it was revoked in a
rewrite that kept the modification time. -/
theorem lookup_stale : GoesStale deleted ∧ GoesStale revokedAtOnce := by
  let disk : KeyDisk := ⟨some ⟨oneKey false, 1⟩, none⟩
  have hvalid : disk.Valid := by
    rintro file ⟨⟩
    exact oneKey_valid false 1
  have hrevoked : ∀ disk, (revokedAtOnce disk).Valid := by
    intro disk file hfile
    obtain ⟨file, -, rfl⟩ := Option.map_eq_some_iff.mp hfile
    exact oneKey_valid true _
  constructor
  · have hwrong : someWrong (rewriting 9 deleted) disk ["hash", "hash"] = true := by
      decide +kernel
    obtain ⟨store, k, hstart, hlooked⟩ := wrong_of_someWrong hwrong
    exact ⟨9, disk, store, k, rewriting_writesKeyMaps (by rintro disk file ⟨⟩),
      rewriting_neverBack (by rintro disk file file' hfile ⟨⟩), hvalid, hstart, hlooked⟩
  · have hwrong : someWrong (rewriting 9 revokedAtOnce) disk ["hash", "hash"] = true := by
      decide +kernel
    obtain ⟨store, k, hstart, hlooked⟩ := wrong_of_someWrong hwrong
    refine ⟨9, disk, store, k, rewriting_writesKeyMaps hrevoked, rewriting_neverBack ?_, hvalid,
      hstart, hlooked⟩
    intro disk file file' hfile hfile'
    rw [revokedAtOnce, hfile] at hfile'
    cases hfile'
    exact Nat.le_refl _

end Conductor
