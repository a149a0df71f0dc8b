/-
The trim of the knowledge base on a store in memory: how many records are left,
which are removed, and what becomes of the records that a call returns.
-/
import Conductor.Guild.Ledger

namespace Conductor

open Effects Block

/-- The records that are removed so that `n` are left: the oldest by creation. -/
def oldest (n : Nat) (records : List GuildRecord) : List GuildRecord :=
  (records.insertionSort fun r r' => r.createdAt ≤ r'.createdAt).take (records.length - n)

/-- The records left when the oldest are removed by their keys. -/
def trimmed (n : Nat) (records : List (String × GuildRecord)) : List (String × GuildRecord) :=
  records.filter fun item => item.1 ∉ (oldest n (records.map (·.2))).map (·.key)

theorem erase_eq_filter {records : List (String × GuildRecord)} (hfiled : Filed records)
    (key : String) : Assoc.erase key records = records.filter fun item => item.1 ≠ key := by
  have hnodup := hfiled.nodup
  clear hfiled
  induction records with
  | nil => rfl
  | cons item rest ih =>
      obtain ⟨hitem, hrest⟩ := List.nodup_cons.mp hnodup
      rw [Assoc.erase]
      by_cases hkey : item.1 = key
      · have hothers : rest.filter (fun item => item.1 ≠ key) = rest := by
          apply List.filter_eq_self.mpr
          intro other hother
          have hne : other.1 ≠ key := by
            intro heq
            have hagain : item.1 ∈ Assoc.keys rest := by
              rw [hkey, ← heq]
              exact Assoc.mem_keys_of_mem hother
            exact hitem hagain
          simpa using hne
        rw [if_pos hkey, List.filter_cons_of_neg (by simpa using hkey), hothers]
      · rw [if_neg hkey, List.filter_cons_of_pos (by simpa using hkey), ih hrest]

section

variable {n : Nat} {records : List (String × GuildRecord)}

theorem oldest_sublist (n : Nat) (records : List GuildRecord) :
    ∃ youngest, (oldest n records ++ youngest).Perm records ∧
      (oldest n records).length = records.length - n ∧
      ∀ r ∈ oldest n records, ∀ r' ∈ youngest, r.createdAt ≤ r'.createdAt := by
  let sorted := records.insertionSort fun r r' => r.createdAt ≤ r'.createdAt
  have hperm : sorted.Perm records := List.perm_insertionSort _ records
  have hpairs : (sorted.take (records.length - n) ++ sorted.drop (records.length - n)).Pairwise
      fun r r' => r.createdAt ≤ r'.createdAt := by
    have htotal : Std.Total fun r r' : GuildRecord => r.createdAt ≤ r'.createdAt :=
      ⟨fun r r' => Nat.le_total r.createdAt r'.createdAt⟩
    have htrans : IsTrans GuildRecord fun r r' => r.createdAt ≤ r'.createdAt :=
      ⟨fun _ _ _ => Nat.le_trans⟩
    rw [List.take_append_drop]
    exact List.pairwise_insertionSort _ records
  refine ⟨sorted.drop (records.length - n), ?_, ?_, ?_⟩
  · have hsplit : oldest n records ++ sorted.drop (records.length - n) = sorted :=
      List.take_append_drop _ sorted
    rw [hsplit]
    exact hperm
  · change (sorted.take (records.length - n)).length = _
    rw [List.length_take, hperm.length_eq]
    omega
  · exact (List.pairwise_append.mp hpairs).2.2

theorem trimmed_of_le (hle : records.length ≤ n) : trimmed n records = records := by
  have hnone : oldest n (records.map (·.2)) = [] := by
    unfold oldest
    rw [List.length_map, Nat.sub_eq_zero_of_le hle, List.take_zero]
  rw [trimmed, hnone]
  exact List.filter_eq_self.mpr (by simp)

theorem map_key (hfiled : Filed records) :
    (records.map (·.2)).map (·.key) = Assoc.keys records := by
  rw [List.map_map, Assoc.keys]
  exact List.map_congr_left fun item hitem => (hfiled.keyed item hitem).symm

/-- What is removed was there, and no younger than anything that is kept. -/
theorem oldest_le (hfiled : Filed records) {item item' : String × GuildRecord}
    (hitem : item ∈ records) (hremoved : item ∉ trimmed n records)
    (hkept : item' ∈ trimmed n records) : item.2.createdAt ≤ item'.2.createdAt := by
  obtain ⟨youngest, hperm, -, hle⟩ := oldest_sublist n (records.map (·.2))
  obtain ⟨hmem', hnot'⟩ := List.mem_filter.mp hkept
  have hold : item.1 ∈ (oldest n (records.map (·.2))).map (·.key) := by
    by_contra hnot
    exact hremoved (List.mem_filter.mpr ⟨hitem, by simpa using hnot⟩)
  obtain ⟨r, hr, hkey⟩ := List.mem_map.mp hold
  have hrecord : r = item.2 := by
    have hr' : r ∈ records.map (·.2) := hperm.subset (List.mem_append_left _ hr)
    obtain ⟨found, hfound, rfl⟩ := List.mem_map.mp hr'
    have hsame : found.1 = item.1 := (hfiled.keyed found hfound).trans hkey
    rw [Assoc.eq_of_key hfiled.nodup hfound hitem hsame]
  have hyoung : item'.2 ∈ youngest := by
    have hboth := hperm.symm.subset (List.mem_map_of_mem hmem')
    rcases List.mem_append.mp hboth with hin | hin
    · have hkey' := List.mem_map_of_mem (f := GuildRecord.key) hin
      rw [← hfiled.keyed item' hmem'] at hkey'
      simp [hkey'] at hnot'
    · exact hin
  exact hrecord ▸ hle r hr item'.2 hyoung

theorem length_trimmed (hfiled : Filed records) : (trimmed n records).length ≤ n := by
  obtain ⟨youngest, hperm, hlength, -⟩ := oldest_sublist n (records.map (·.2))
  have hkeys : ((oldest n (records.map (·.2)) ++ youngest).map (·.key)).Perm (Assoc.keys records) :=
    (hperm.map _).trans (by rw [map_key hfiled])
  rw [List.map_append] at hkeys
  have hnodup := hkeys.nodup_iff.mpr hfiled.nodup
  have hsubset : Assoc.keys (trimmed n records) ⊆ youngest.map (·.key) := by
    intro key hkey
    obtain ⟨item, hitem, rfl⟩ := List.mem_map.mp hkey
    obtain ⟨hmem, hnot⟩ := List.mem_filter.mp hitem
    have hboth := hkeys.symm.subset (List.mem_map_of_mem hmem)
    rcases List.mem_append.mp hboth with hin | hin
    · simp [hin] at hnot
    · exact hin
  have hkept : (Assoc.keys (trimmed n records)).Nodup :=
    (List.filter_sublist.map _).nodup hfiled.nodup
  have hle := (hkept.subperm hsubset).length_le
  have htotal := hperm.length_eq
  rw [List.length_append, hlength, List.length_map] at htotal
  rw [Assoc.keys, List.length_map, List.length_map] at hle
  omega

end

/-! ### The calls of the knowledge base -/

namespace MemoryGuildStore

variable {clock : GuildHistory → Time} {k : GuildState MemoryGuildStore}

theorem wp_save (record : GuildRecord)
    {post : Except PyExc Unit → Unit → GuildState MemoryGuildStore → Prop}
    (hpost : ∀ k', k'.state = save record k.state → post (.ok ()) () k') :
    (askGuild (.save record)).wp (operations.logic clock) post () k :=
  hpost _ rfl

theorem wp_get (fingerprint : FailureFingerprint)
    {post : Except PyExc (Option GuildRecord) → Unit → GuildState MemoryGuildStore → Prop}
    (hpost : ∀ k', k'.state = k.state →
      post (.ok (k.state.records.lookup fingerprint.toKey)) () k') :
    (askGuild (.get fingerprint)).wp (operations.logic clock) post () k :=
  hpost _ rfl

theorem wp_list {post : Except PyExc (List GuildRecord) → Unit → GuildState MemoryGuildStore → Prop}
    (hpost : ∀ k', k'.state = k.state → post (.ok (k.state.records.map (·.2))) () k') :
    (askGuild (.list .all)).wp (operations.logic clock) post () k :=
  hpost _ rfl

theorem wp_delete (hfiled : Filed k.state.records) (fingerprint : FailureFingerprint)
    {post : Except PyExc Bool → Unit → GuildState MemoryGuildStore → Prop}
    (hpost : ∀ deleted k', k'.state.records =
      (k.state.records.filter fun item => item.1 ≠ fingerprint.toKey) → post (.ok deleted) () k') :
    (askGuild (.delete fingerprint)).wp (operations.logic clock) post () k := by
  refine hpost (delete fingerprint k.state).1 _ ?_
  change (delete fingerprint k.state).2.records = _
  rw [← erase_eq_filter hfiled, delete]
  split
  · rfl
  · rename_i hkey
    exact (Assoc.erase_of_not_mem hkey).symm

end MemoryGuildStore

namespace FailureKnowledgeBase

variable {kb : FailureKnowledgeBase} {clock : GuildHistory → Time}
variable {k : GuildState MemoryGuildStore}

abbrev memory (clock : GuildHistory → Time) :
    Logic (GuildState MemoryGuildStore) GuildCall GuildAnswer :=
  MemoryGuildStore.operations.logic clock

theorem memory_monotone (clock : GuildHistory → Time) : (memory clock).Monotone :=
  MemoryGuildStore.operations.logic_monotone clock

/-- The records are removed by their keys, one after the other. -/
theorem wp_deleteAll (hfiled : Filed k.state.records) (removed : List GuildRecord) :
    (deleteAll removed).wp (memory clock)
      (fun outcome _ k' => outcome = .ok () ∧ k'.state.records =
        k.state.records.filter fun item => item.1 ∉ removed.map (·.key)) () k := by
  induction removed generalizing k with
  | nil => exact ⟨rfl, (List.filter_eq_self.mpr (by simp)).symm⟩
  | cons record rest ih =>
      rw [deleteAll, wp_bind]
      refine MemoryGuildStore.wp_delete hfiled record.fingerprint fun deleted k₁ hk₁ => ?_
      have hfiled₁ : Filed k₁.state.records := by
        rw [hk₁, ← erase_eq_filter hfiled]
        exact hfiled.erase _
      refine wp_mono (memory_monotone clock) ?_ (ih hfiled₁)
      intro outcome _ k₂ ⟨houtcome, hk₂⟩
      refine ⟨houtcome, ?_⟩
      rw [hk₂, hk₁, List.filter_filter]
      apply List.filter_congr
      intro item _
      simp [GuildRecord.key, Bool.and_comm]

/-- The trim leaves the records without the oldest. -/
theorem wp_trim (clock : GuildHistory → Time) (hpos : 0 < kb.config.maxRecords)
    (hfiled : Filed k.state.records) :
    kb.enforceLimit.wp (memory clock)
      (fun outcome _ k' => outcome = .ok () ∧
        k'.state.records = trimmed kb.config.maxRecords.toNat k.state.records) () k := by
  rw [enforceLimit, if_neg (by omega), wp_bind]
  refine MemoryGuildStore.wp_list fun k₁ hk₁ => ?_
  dsimp only
  by_cases hfits : ((k.state.records.map (·.2)).length : Int) ≤ kb.config.maxRecords
  · rw [if_pos hfits]
    refine ⟨rfl, ?_⟩
    rw [List.length_map] at hfits
    rw [hk₁, trimmed_of_le (by omega)]
  · have holdest : oldest kb.config.maxRecords.toNat (k.state.records.map (·.2)) =
        ((k.state.records.map (·.2)).insertionSort fun r r' => r.createdAt ≤ r'.createdAt).take
          (((k.state.records.map (·.2)).insertionSort
            fun r r' => r.createdAt ≤ r'.createdAt).length - kb.config.maxRecords.toNat) := by
      rw [oldest, List.length_insertionSort]
    rw [if_neg hfits, ← holdest]
    rw [← hk₁] at hfiled
    refine wp_mono (memory_monotone clock) ?_ (wp_deleteAll hfiled _)
    intro outcome _ k₂ ⟨houtcome, hk₂⟩
    rw [hk₁] at hk₂
    exact ⟨houtcome, hk₂⟩

/-- The records hold those from before, each as old as it was. -/
def Keeps (before records : List (String × GuildRecord)) : Prop :=
  ∀ key record, before.lookup key = some record →
    ∃ record', records.lookup key = some record' ∧ record'.createdAt = record.createdAt

theorem Keeps.refl (records : List (String × GuildRecord)) : Keeps records records :=
  fun _ record hlookup => ⟨record, hlookup, rfl⟩

/-- A record may be replaced by one that is as old. -/
theorem Keeps.saved {before records : List (String × GuildRecord)} (hkeeps : Keeps before records)
    {record : GuildRecord}
    (hage : ∀ old, records.lookup record.key = some old → record.createdAt = old.createdAt) :
    Keeps before (Assoc.insert record.key record records) := by
  intro key found hfound
  obtain ⟨found', hfound', hsame⟩ := hkeeps key found hfound
  rw [Assoc.lookup_insert]
  by_cases hkey : key = record.key
  · rw [if_pos hkey]
    exact ⟨record, rfl, (hage found' (hkey ▸ hfound')).trans hsame⟩
  · rw [if_neg hkey]
    exact ⟨found', hfound', hsame⟩

/-- The record of the fingerprint is updated or created, and saved. -/
theorem wp_upserted (clock : GuildHistory → Time) (hfiled : Filed k.state.records)
    (fingerprint : FailureFingerprint)
    (update : GuildRecord → Time → GuildRecord) (create : Time → Time → GuildRecord)
    (hupdate : ∀ r now, (update r now).key = r.key ∧ (update r now).createdAt = r.createdAt)
    (hcreate : ∀ createdAt updatedAt, (create createdAt updatedAt).key = fingerprint.toKey) :
    (upsert fingerprint update create).wp (memory clock)
      (fun outcome _ k' => ∃ record, outcome = .ok record ∧ record.key = fingerprint.toKey ∧
        (∀ old, k.state.records.lookup fingerprint.toKey = some old →
          record.createdAt = old.createdAt) ∧
        k'.state = k.state.save record) () k := by
  rw [upsert, wp_bind]
  refine MemoryGuildStore.wp_get fingerprint fun k₁ hk₁ => ?_
  cases hlookup : k.state.records.lookup fingerprint.toKey with
  | none =>
      dsimp only
      rw [wp_bind]
      refine GuildTerms.wp_now fun createdAt k₂ hk₂ => ?_
      dsimp only
      rw [wp_bind]
      refine GuildTerms.wp_now fun updatedAt k₃ hk₃ => ?_
      dsimp only
      rw [wp_bind]
      refine MemoryGuildStore.wp_save _ fun k₄ hk₄ => ?_
      rw [hk₃, hk₂, hk₁] at hk₄
      refine ⟨_, rfl, hcreate createdAt updatedAt, ?_, hk₄⟩
      intro old hold
      cases hold
  | some existing =>
      dsimp only
      rw [wp_bind]
      refine GuildTerms.wp_now fun now k₂ hk₂ => ?_
      dsimp only
      rw [wp_bind]
      refine MemoryGuildStore.wp_save _ fun k₃ hk₃ => ?_
      rw [hk₂, hk₁] at hk₃
      obtain ⟨hkey, hage⟩ := hupdate existing now
      refine ⟨_, rfl, hkey.trans (hfiled.key_of_lookup hlookup), ?_, hk₃⟩
      intro old hold
      rw [hage, Option.some.inj hold]

/-- In the midst of a call of `publish`: nothing that was stored is lost, and
the records in hand are stored as they are. -/
structure Recorded (before : List (String × GuildRecord)) (batch : Batch)
    (records : List (String × GuildRecord)) : Prop where
  filed : Filed records
  keeps : Keeps before records
  seen : ∀ key, key ∈ batch.seen ↔ key ∈ batch.published.map (·.key)
  nodup : (batch.published.map (·.key)).Nodup
  stored : ∀ record ∈ batch.published, records.lookup record.key = some record

variable {pub : Publication} {before : List (String × GuildRecord)} {batch : Batch}

theorem wp_recordContext (ctx : FailureContext)
    (hrecorded : Recorded before batch k.state.records) :
    (kb.publishContext pub ctx batch).wp (memory clock)
      (fun outcome _ k' => ∃ batch', outcome = .ok batch' ∧
        Recorded before batch' k'.state.records) () k := by
  rw [publishContext]
  by_cases hseen : (kb.fingerprintOf pub.capability ctx).toKey ∈ batch.seen
  · obtain ⟨old, hmem, hold⟩ := List.mem_map.mp ((hrecorded.seen _).mp hseen)
    have hstored := hrecorded.stored old hmem
    rw [if_pos hseen, wp_bind, ← hold, countAgain_eq hmem hrecorded.nodup, wp_bind]
    refine GuildTerms.wp_now fun now k₁ hk₁ => ?_
    dsimp only
    rw [wp_bind]
    refine MemoryGuildStore.wp_save _ fun k₂ hk₂ => ?_
    rw [hk₁] at hk₂
    refine ⟨_, rfl, ?_⟩
    rw [hk₂]
    constructor
    · exact hrecorded.filed.insert _
    · apply hrecorded.keeps.saved
      intro found hfound
      have hsame : old = found := Option.some.inj (hstored.symm.trans hfound)
      rw [← hsame]
      rfl
    · intro key
      change key ∈ batch.seen ↔ key ∈ (counted old.key now batch.published).map (·.key)
      rw [keys_counted]
      exact hrecorded.seen key
    · change ((counted old.key now batch.published).map (·.key)).Nodup
      rw [keys_counted]
      exact hrecorded.nodup
    · intro record hrecord
      obtain ⟨record₀, hrecord₀, rfl⟩ := List.mem_map.mp hrecord
      change (Assoc.insert old.key (again old now) k.state.records).lookup _ = _
      rw [Assoc.lookup_insert]
      by_cases hkey : record₀.key = old.key
      · have hsame : record₀ = old := by
          have hlookup := hrecorded.stored record₀ hrecord₀
          rw [hkey, hstored] at hlookup
          exact (Option.some.inj hlookup).symm
        rw [if_pos hkey, hsame]
        exact if_pos rfl
      · rw [if_neg hkey, if_neg hkey]
        exact hrecorded.stored record₀ hrecord₀
  · rw [if_neg hseen, wp_bind]
    refine wp_mono (memory_monotone clock) ?_ (wp_upserted clock hrecorded.filed _ _ _
      (fun r now => ⟨rfl, rfl⟩) (fun createdAt updatedAt => rfl))
    intro outcome _ k₁ hupserted
    obtain ⟨record, houtcome, hkey, hage, hk₁⟩ := hupserted
    subst houtcome
    refine ⟨_, rfl, ?_⟩
    have hnew : record.key ∉ batch.published.map (·.key) := by
      rw [hkey]
      exact fun hmem => hseen ((hrecorded.seen _).mpr hmem)
    rw [hk₁]
    constructor
    · exact hrecorded.filed.insert record
    · apply hrecorded.keeps.saved
      rw [hkey]
      exact hage
    · intro key
      rw [List.mem_cons, List.map_append, List.mem_append, hrecorded.seen, ← hkey]
      simp [or_comm]
    · rw [List.map_append]
      exact List.nodup_append'.mpr ⟨hrecorded.nodup, List.nodup_singleton _, by simpa using hnew⟩
    · intro found hfound
      change (Assoc.insert record.key record k.state.records).lookup found.key = _
      rw [Assoc.lookup_insert]
      rcases List.mem_append.mp hfound with hold | hlast
      · have hne : found.key ≠ record.key := by
          intro heq
          exact hnew (heq ▸ List.mem_map_of_mem hold)
        rw [if_neg hne]
        exact hrecorded.stored found hold
      · rw [List.mem_singleton.mp hlast, if_pos rfl]

theorem wp_recordContexts (kb : FailureKnowledgeBase) (clock : GuildHistory → Time)
    (pub : Publication) (contexts : List FailureContext)
    (hrecorded : Recorded before batch k.state.records) :
    (kb.publishContexts pub contexts batch).wp (memory clock)
      (fun outcome _ k' => ∃ batch', outcome = .ok batch' ∧
        Recorded before batch' k'.state.records) () k := by
  induction contexts generalizing batch k with
  | nil => exact ⟨batch, rfl, hrecorded⟩
  | cons ctx rest ih =>
      rw [publishContexts, wp_bind]
      refine wp_mono (memory_monotone clock) ?_ (wp_recordContext ctx hrecorded)
      intro outcome _ k₁ hnext
      obtain ⟨batch₁, houtcome, hrecorded₁⟩ := hnext
      subst houtcome
      exact ih hrecorded₁

/-! ### Whole calls -/

/-- The same knowledge base without a limit. -/
def unlimited (kb : FailureKnowledgeBase) : FailureKnowledgeBase :=
  { kb with config := { kb.config with maxRecords := 0 } }

theorem publishContexts_unlimited (pub : Publication) (contexts : List FailureContext)
    (batch : Batch) :
    kb.unlimited.publishContexts pub contexts batch = kb.publishContexts pub contexts batch := by
  induction contexts generalizing batch with
  | nil => rfl
  | cons ctx rest ih =>
      rw [publishContexts, publishContexts]
      simp only [ih]
      rfl

theorem enforceLimit_unlimited : kb.unlimited.enforceLimit = pure () := if_pos (Int.le_refl 0)

/-- The machine of a store in memory. -/
abbrev memoryMachine (clock : GuildHistory → Time) :
    Machine MemoryGuildStore GuildCall GuildAnswer :=
  MemoryGuildStore.operations.machine clock

theorem exec_of_wp {α : Type} {m : GuildBlock α}
    {post : Except PyExc α → Unit → GuildState MemoryGuildStore → Prop}
    (hm : m.wp (memory clock) post () k) :
    ∃ outcome k', m.exec (memoryMachine clock) () k = (some (outcome, ()), k') ∧
      post outcome () k' := by
  obtain ⟨⟨outcome, _⟩, k', hexec, hpost⟩ := Machine.exec_of_wp hm
  exact ⟨outcome, k', hexec, hpost⟩

/-- A trim, and what is returned after it. -/
theorem trim_exec {α : Type} (clock : GuildHistory → Time) (hpos : 0 < kb.config.maxRecords)
    (hfiled : Filed k.state.records) (value : α) :
    ∃ k', (do
        kb.enforceLimit
        return value : GuildBlock α).exec (memoryMachine clock) () k = (some (.ok value, ()), k') ∧
      k'.state.records = trimmed kb.config.maxRecords.toNat k.state.records := by
  obtain ⟨outcome, k', hexec, houtcome, hrecords⟩ := exec_of_wp (wp_trim clock hpos hfiled)
  subst houtcome
  refine ⟨k', ?_, hrecords⟩
  rw [exec_bind, hexec]
  rfl

theorem publish_exec (henabled : kb.config.enabled = true) (hpos : 0 < kb.config.maxRecords)
    (clock : GuildHistory → Time) (hfiled : Filed k.state.records) (pub : Publication) :
    ∃ batch grown after, Recorded k.state.records batch grown.state.records ∧
      (kb.unlimited.publish pub).exec (memoryMachine clock) () k =
        (some (.ok batch.published, ()), grown) ∧
      (kb.publish pub).exec (memoryMachine clock) () k = (some (.ok batch.published, ()), after) ∧
      after.state.records = trimmed kb.config.maxRecords.toNat grown.state.records := by
  have hrecorded : Recorded k.state.records ⟨[], []⟩ k.state.records :=
    ⟨hfiled, Keeps.refl _, fun key => Iff.rfl, List.nodup_nil, List.forall_mem_nil _⟩
  obtain ⟨outcome, grown, hcontexts, batch, houtcome, hgrown⟩ :=
    exec_of_wp (wp_recordContexts kb clock pub pub.failureContexts hrecorded)
  subst houtcome
  obtain ⟨after, htrim, hafter⟩ :=
    trim_exec clock hpos hgrown.filed batch.published
  refine ⟨batch, grown, after, hgrown, ?_, ?_, hafter⟩
  · have hon : kb.unlimited.config.enabled = true := henabled
    rw [publish, if_pos hon, publishContexts_unlimited, enforceLimit_unlimited, exec_bind,
      hcontexts]
    rfl
  · rw [publish, if_pos henabled, exec_bind, hcontexts]
    exact htrim

theorem publishSuccess_exec (henabled : kb.config.enabled = true)
    (hpos : 0 < kb.config.maxRecords) (clock : GuildHistory → Time)
    (hfiled : Filed k.state.records) (report : SuccessReport) :
    (∃ e, kb.successFingerprint report = .error e ∧
      (kb.publishSuccess report).exec (memoryMachine clock) () k = (some (.error e, ()), k)) ∨
    ∃ record grown after, Recorded k.state.records ⟨[record.key], [record]⟩ grown.state.records ∧
      (kb.unlimited.publishSuccess report).exec (memoryMachine clock) () k =
        (some (.ok (some record), ()), grown) ∧
      (kb.publishSuccess report).exec (memoryMachine clock) () k =
        (some (.ok (some record), ()), after) ∧
      after.state.records = trimmed kb.config.maxRecords.toNat grown.state.records := by
  have hon : kb.unlimited.config.enabled = true := henabled
  have hsame : kb.unlimited.successFingerprint report = kb.successFingerprint report := rfl
  rw [publishSuccess, publishSuccess, if_pos henabled, if_pos hon, hsame]
  cases hfingerprint : kb.successFingerprint report with
  | error e => exact .inl ⟨e, rfl, rfl⟩
  | ok fingerprint =>
      obtain ⟨outcome, grown, hupsert, record, houtcome, hkey, hage, hgrown⟩ :=
        exec_of_wp (wp_upserted clock hfiled fingerprint (kb.renewedSuccess report)
          (kb.createdSuccess report fingerprint) (fun r now => ⟨rfl, rfl⟩)
          (fun createdAt updatedAt => rfl))
      subst houtcome
      have hrecorded : Recorded k.state.records ⟨[record.key], [record]⟩ grown.state.records := by
        rw [hgrown]
        refine ⟨hfiled.insert record, (Keeps.refl _).saved (hkey ▸ hage), by simp, by simp, ?_⟩
        intro found hfound
        rw [List.mem_singleton.mp hfound]
        change (Assoc.insert record.key record k.state.records).lookup record.key = _
        rw [Assoc.lookup_insert, if_pos rfl]
      obtain ⟨after, htrim, hafter⟩ := trim_exec clock hpos hrecorded.filed (some record)
      refine .inr ⟨record, grown, after, hrecorded, ?_, ?_, hafter⟩
      · rw [enforceLimit_unlimited]
        have hstep : (ofExcept (.ok fingerprint) >>= fun fingerprint =>
            upsert fingerprint (kb.unlimited.renewedSuccess report)
              (kb.unlimited.createdSuccess report fingerprint) >>= fun record =>
                pure () >>= fun _ => pure (some record) : GuildBlock (Option GuildRecord)).exec
              (memoryMachine clock) () k =
            ((upsert fingerprint (kb.renewedSuccess report)
              (kb.createdSuccess report fingerprint)).exec (memoryMachine clock) () k).next
              fun record x k => (pure (some record) : GuildBlock (Option GuildRecord)).exec
                (memoryMachine clock) x k := by
          rw [exec_bind, exec_ofExcept]
          change (upsert fingerprint (kb.renewedSuccess report)
            (kb.createdSuccess report fingerprint) >>= _ : GuildBlock _).exec
              (memoryMachine clock) () k = _
          rw [exec_bind]
          rfl
        refine hstep.trans ?_
        rw [hupsert]
        rfl
      · rw [exec_bind, exec_ofExcept]
        change (upsert fingerprint (kb.renewedSuccess report)
          (kb.createdSuccess report fingerprint) >>= _ : GuildBlock _).exec
            (memoryMachine clock) () k = _
        rw [exec_bind, hupsert]
        exact htrim

/-- A knowledge base with room for so many records. -/
def withRoom (n : Int) : FailureKnowledgeBase where
  config := ⟨true, none, n⟩
  sha256Hex _ := "44136fa355b3678a1146ad16f7e8649e94fb4fc21fe77e8310c060f61caaff8a"

/-- A failure of an echo with this type of error. -/
def failureOf (errorType : String) : FailureContext where
  taskId := "t"
  capability := "echo"
  attempt := 1
  maxRetries := 1
  errorType := errorType
  errorMessage := "message must be non-empty"
  inputFingerprint := some "44136fa355b3678a"
  metadata := []

def reportOf (errorTypes : List String) : Publication :=
  ⟨"echo", errorTypes.map failureOf, none, none, none, none⟩

/-- The record of one such failure. -/
def recordAt (errorType : String) (createdAt : Time) : GuildRecord :=
  (withRoom 0).created (reportOf [errorType])
    ((withRoom 0).fingerprintOf "echo" (failureOf errorType)) createdAt createdAt

/-- An older and a newer record. -/
def twoRecords : GuildState MemoryGuildStore :=
  ⟨[], ⟨[("echo:ValueError:44136fa355b3678a", recordAt "ValueError" 0),
    ("echo:TypeError:44136fa355b3678a", recordAt "TypeError" 1)]⟩⟩

theorem twoRecords_filed : Filed twoRecords.state.records := by
  constructor
  · decide
  · simp only [twoRecords, List.forall_mem_cons, List.not_mem_nil, false_implies, implies_true,
      and_true]
    decide

/-- A clock that has gone on since. -/
def laterClock (h : GuildHistory) : Time := 10 + h.length

/-! ### What is removed -/

/-- What a call with room for `n` records leaves, where it would have left
`grown` without a limit. -/
structure Bounded (n : Nat) (before grown after : List (String × GuildRecord)) : Prop where
  bound : after.length ≤ n
  keeps : Keeps before grown
  rest : after.Sublist grown
  removed : ∀ item ∈ grown, item ∉ after → ∀ item' ∈ after, item.2.createdAt ≤ item'.2.createdAt
  lost : ∀ item ∈ before, item.1 ∉ Assoc.keys after →
    ∀ item' ∈ after, item.2.createdAt ≤ item'.2.createdAt
  needed : grown.length ≤ n → after = grown

theorem Recorded.bounded {grown : List (String × GuildRecord)} (n : Nat)
    (hgrown : Recorded before batch grown) (hbefore : Filed before) :
    Bounded n before grown (trimmed n grown) := by
  have hremoved {item : String × GuildRecord} (hitem : item ∈ grown)
      (hgone : item ∉ trimmed n grown) (item' : String × GuildRecord)
      (hkept : item' ∈ trimmed n grown) : item.2.createdAt ≤ item'.2.createdAt :=
    oldest_le hgrown.filed hitem hgone hkept
  constructor
  · exact length_trimmed hgrown.filed
  · exact hgrown.keeps
  · exact List.filter_sublist
  · intro item hitem hgone
    exact hremoved hitem hgone
  · intro item hitem hgone
    obtain ⟨record, hlookup, hage⟩ :=
      hgrown.keeps item.1 item.2 (Assoc.lookup_of_mem hbefore.nodup hitem)
    have hnot : (item.1, record) ∉ trimmed n grown := by
      intro hmem
      exact hgone (List.mem_map.mpr ⟨(item.1, record), hmem, rfl⟩)
    have hle := hremoved (Assoc.mem_of_lookup hlookup) hnot
    rwa [hage] at hle
  · exact trimmed_of_le

/-- The guild is bounded.  A call that publishes leaves at most as many records
as the knowledge base has room for.  It removes the oldest, and only when the
same call without a limit would have left more.  A success whose input cannot
be fingerprinted raises before the store is used. -/
theorem growth_bounded (kb : FailureKnowledgeBase) (clock : GuildHistory → Time)
    (henabled : kb.config.enabled = true) (hpos : 0 < kb.config.maxRecords)
    (k : GuildState MemoryGuildStore) (hfiled : Filed k.state.records) (call : KnowledgeCall) :
    (∃ report e, call = .publishSuccess report ∧ kb.successFingerprint report = .error e ∧
      (kb.block call).exec (memoryMachine clock) () k = (some (.error e, ()), k)) ∨
    ∃ grown after,
      (kb.unlimited.block call).exec (memoryMachine clock) () k = (some (.ok (), ()), grown) ∧
      (kb.block call).exec (memoryMachine clock) () k = (some (.ok (), ()), after) ∧
      Bounded kb.config.maxRecords.toNat k.state.records grown.state.records
        after.state.records := by
  cases call with
  | publish pub =>
      obtain ⟨batch, grown, after, hgrown, hfree, hlimited, hafter⟩ :=
        publish_exec henabled hpos clock hfiled pub
      refine .inr ⟨grown, after, ?_, ?_, hafter ▸ hgrown.bounded _ hfiled⟩
      · rw [block, exec_bind, hfree]
        rfl
      · rw [block, exec_bind, hlimited]
        rfl
  | publishFailure capability failure role resolutionHint approachAdjustment =>
      obtain ⟨batch, grown, after, hgrown, hfree, hlimited, hafter⟩ :=
        publish_exec henabled hpos clock hfiled
          ⟨capability, [failure], role, resolutionHint, approachAdjustment, none⟩
      refine .inr ⟨grown, after, ?_, ?_, hafter ▸ hgrown.bounded _ hfiled⟩
      · rw [block, publishFailure, exec_bind, exec_bind, hfree]
        rfl
      · rw [block, publishFailure, exec_bind, exec_bind, hlimited]
        rfl
  | publishSuccess report =>
      rcases publishSuccess_exec henabled hpos clock hfiled report with
        ⟨e, hfingerprint, hraised⟩ | ⟨record, grown, after, hgrown, hfree, hlimited, hafter⟩
      · refine .inl ⟨report, e, rfl, hfingerprint, ?_⟩
        rw [block, exec_bind, hraised]
        rfl
      · refine .inr ⟨grown, after, ?_, ?_, hafter ▸ hgrown.bounded _ hfiled⟩
        · rw [block, exec_bind, hfree]
          rfl
        · rw [block, exec_bind, hlimited]
          rfl

theorem growth_bounded_failureOf :
    ∃ grown after,
      ((withRoom 2).unlimited.block (.publish (reportOf ["ValueError", "KeyError"]))).exec
        (memoryMachine laterClock) () twoRecords = (some (.ok (), ()), grown) ∧
      ((withRoom 2).block (.publish (reportOf ["ValueError", "KeyError"]))).exec
        (memoryMachine laterClock) () twoRecords = (some (.ok (), ()), after) ∧
      Bounded 2 twoRecords.state.records grown.state.records after.state.records := by
  rcases growth_bounded (withRoom 2) laterClock rfl (by decide) twoRecords twoRecords_filed
    (.publish (reportOf ["ValueError", "KeyError"])) with ⟨_, _, hcall, _⟩ | hbounded
  · cases hcall
  · exact hbounded

/-- A success that cannot be fingerprinted leaves a store with too many records
as it is. -/
theorem unserialisable_success_keeps_all :
    ¬ ∀ (kb : FailureKnowledgeBase) (clock : GuildHistory → Time) (k : GuildState MemoryGuildStore)
        (call : KnowledgeCall), kb.config.enabled = true → 0 < kb.config.maxRecords →
        Filed k.state.records →
        (((kb.block call).exec (memoryMachine clock) () k).2.state.records.length : Int) ≤
          kb.config.maxRecords := by
  intro hbound
  have hlength := hbound (withRoom 1) laterClock twoRecords
    (.publishSuccess ⟨"echo", [("message", .object "object")], none, none⟩) rfl (by decide)
    twoRecords_filed
  revert hlength
  decide

/-- What a call returned is stored as it was returned, or it was removed again
with the oldest to make room. -/
def Reported (n : Nat) (published : List GuildRecord)
    (grown after : List (String × GuildRecord)) : Prop :=
  ∀ record ∈ published, grown.lookup record.key = some record ∧
    (after.lookup record.key = some record ∨
      (n < grown.length ∧ record.key ∉ Assoc.keys after ∧
        ∀ item ∈ after, record.createdAt ≤ item.2.createdAt))

theorem Recorded.reported {grown : List (String × GuildRecord)} (n : Nat)
    (hgrown : Recorded before batch grown) :
    Reported n batch.published grown (trimmed n grown) := by
  intro record hrecord
  have hstored := hgrown.stored record hrecord
  have hmem := Assoc.mem_of_lookup hstored
  refine ⟨hstored, ?_⟩
  by_cases hkept : (record.key, record) ∈ trimmed n grown
  · left
    exact Assoc.lookup_of_mem ((List.filter_sublist.map _).nodup hgrown.filed.nodup) hkept
  · right
    refine ⟨?_, ?_, fun item hitem => oldest_le hgrown.filed hmem hkept hitem⟩
    · by_contra hroom
      rw [trimmed_of_le (Nat.le_of_not_lt hroom)] at hkept
      exact hkept hmem
    · intro hkey
      obtain ⟨item, hitem, hsame⟩ := List.mem_map.mp hkey
      have heq : item = (record.key, record) :=
        Assoc.eq_of_key hgrown.filed.nodup (List.mem_of_mem_filter hitem) hmem hsame
      exact hkept (heq ▸ hitem)

/-- What a call returns is in the store afterwards, with the returned counts,
unless it was among the oldest of more records than there is room for. -/
theorem published_stored (kb : FailureKnowledgeBase) (clock : GuildHistory → Time)
    (henabled : kb.config.enabled = true) (hpos : 0 < kb.config.maxRecords)
    (k : GuildState MemoryGuildStore) (hfiled : Filed k.state.records) :
    (∀ pub, ∃ published grown after,
      (kb.unlimited.publish pub).exec (memoryMachine clock) () k =
        (some (.ok published, ()), grown) ∧
      (kb.publish pub).exec (memoryMachine clock) () k = (some (.ok published, ()), after) ∧
      Reported kb.config.maxRecords.toNat published grown.state.records after.state.records) ∧
    ∀ report,
      (∃ e, kb.successFingerprint report = .error e ∧
        (kb.publishSuccess report).exec (memoryMachine clock) () k = (some (.error e, ()), k)) ∨
      ∃ record grown after,
        (kb.unlimited.publishSuccess report).exec (memoryMachine clock) () k =
          (some (.ok (some record), ()), grown) ∧
        (kb.publishSuccess report).exec (memoryMachine clock) () k =
          (some (.ok (some record), ()), after) ∧
        Reported kb.config.maxRecords.toNat [record] grown.state.records
          after.state.records := by
  constructor
  · intro pub
    obtain ⟨batch, grown, after, hgrown, hfree, hlimited, hafter⟩ :=
      publish_exec henabled hpos clock hfiled pub
    exact ⟨batch.published, grown, after, hfree, hlimited, hafter ▸ hgrown.reported _⟩
  · intro report
    rcases publishSuccess_exec henabled hpos clock hfiled report with
      hraised | ⟨record, grown, after, hgrown, hfree, hlimited, hafter⟩
    · exact .inl hraised
    · exact .inr ⟨record, grown, after, hfree, hlimited, hafter ▸ hgrown.reported _⟩

theorem published_stored_failureOf :
    ∃ published grown after,
      ((withRoom 2).unlimited.publish (reportOf ["ValueError", "KeyError"])).exec
        (memoryMachine laterClock) () twoRecords = (some (.ok published, ()), grown) ∧
      ((withRoom 2).publish (reportOf ["ValueError", "KeyError"])).exec
        (memoryMachine laterClock) () twoRecords = (some (.ok published, ()), after) ∧
      Reported 2 published grown.state.records after.state.records :=
  (published_stored (withRoom 2) laterClock rfl (by decide) twoRecords twoRecords_filed).1
    (reportOf ["ValueError", "KeyError"])

/-- The store is full, and a call of `publish` updates its oldest record and
creates another one.  The updated record is returned, and removed. -/
theorem updated_record_removed :
    ¬ ∀ (kb : FailureKnowledgeBase) (clock : GuildHistory → Time) (k : GuildState MemoryGuildStore)
        (pub : Publication) (published : List GuildRecord) (after : GuildState MemoryGuildStore),
        kb.config.enabled = true → 0 < kb.config.maxRecords → Filed k.state.records →
        (k.state.records.length : Int) ≤ kb.config.maxRecords →
        ((pub.failureContexts.map fun ctx =>
          (kb.fingerprintOf pub.capability ctx).toKey).dedup.length : Int) ≤
            kb.config.maxRecords →
        (kb.publish pub).exec (memoryMachine clock) () k = (some (.ok published, ()), after) →
        ∀ record ∈ published, after.state.records.lookup record.key = some record := by
  intro hstored
  have hlookup := hstored (withRoom 2) laterClock twoRecords (reportOf ["ValueError", "KeyError"])
    _ _ rfl (by decide) twoRecords_filed (by decide) (by decide) rfl
    (again (recordAt "ValueError" 0) 11) (List.mem_cons_self)
  have hnone := congrArg Option.isSome hlookup
  revert hnone
  decide

end FailureKnowledgeBase

end Conductor
