/-
What the calls of a knowledge base leave under each key.  The effect of a call
on a key depends on that key alone, and the store holds after every history
what these effects add up to.
-/
import Mathlib.Data.List.Dedup
import Mathlib.Data.List.Perm.Subperm
import Conductor.Guild.Knowledge

namespace Conductor

open Effects Block

/-- The record without its timestamps. -/
def GuildRecord.timeless (r : GuildRecord) : GuildRecord :=
  { r with createdAt := 0, updatedAt := 0 }

@[simp] theorem GuildRecord.key_timeless (r : GuildRecord) : r.timeless.key = r.key := rfl

/-- One key in the course of a call: whether a context with it was there, and
the record. -/
structure Slot where
  seen : Bool
  record : Option GuildRecord

namespace FailureKnowledgeBase

variable (kb : FailureKnowledgeBase) (f : Dict → Dict)

/-- A record that is updated as it is read back, or created. -/
def upserted (update : GuildRecord → Time → GuildRecord) (create : Time → Time → GuildRecord) :
    Option GuildRecord → GuildRecord
  | some existing => update (existing.mapDicts f) 0
  | none => create 0 0

/-- What a failure context does to the record under a key. -/
def contextEffect (pub : Publication) (key : String) (slot : Slot) (ctx : FailureContext) : Slot :=
  let fingerprint := kb.fingerprintOf pub.capability ctx
  if fingerprint.toKey = key then
    if slot.seen then { slot with record := slot.record.map (again · 0) }
    else ⟨true, some (upserted f (kb.renewed pub) (kb.created pub fingerprint) slot.record)⟩
  else slot

/-- What a call of `publish` does to the record under a key. -/
def publishEffect (pub : Publication) (key : String) (old : Option GuildRecord) :
    Option GuildRecord :=
  (pub.failureContexts.foldl (kb.contextEffect f pub key) ⟨false, old⟩).record

def successEffect (report : SuccessReport) (key : String) (old : Option GuildRecord) :
    Option GuildRecord :=
  match kb.successFingerprint report with
  | .ok fingerprint =>
      if fingerprint.toKey = key then
        some (upserted f (kb.renewedSuccess report) (kb.createdSuccess report fingerprint) old)
      else old
  | .error _ => old

def callEffect : KnowledgeCall → String → Option GuildRecord → Option GuildRecord
  | .publish pub => kb.publishEffect f pub
  | .publishFailure capability failure role resolutionHint approachAdjustment =>
      kb.publishEffect f ⟨capability, [failure], role, resolutionHint, approachAdjustment, none⟩
  | .publishSuccess report => kb.successEffect f report

/-- The record under a key after the calls, without timestamps. -/
def ledger (calls : List KnowledgeCall) (key : String) : Option GuildRecord :=
  calls.foldl (fun old call => kb.callEffect f call key old) none

/-- The keys of the failure contexts of a call, one for each context. -/
def failureKeys : KnowledgeCall → List String
  | .publish pub => pub.failureContexts.map fun ctx => (kb.fingerprintOf pub.capability ctx).toKey
  | .publishFailure capability failure _ _ _ => [(kb.fingerprintOf capability failure).toKey]
  | .publishSuccess _ => []

/-- The key of a success, if its input can be fingerprinted. -/
def successKeys : KnowledgeCall → List String
  | .publish _ | .publishFailure _ _ _ _ _ => []
  | .publishSuccess report =>
      match kb.successFingerprint report with
      | .ok fingerprint => [fingerprint.toKey]
      | .error _ => []

/-- All the keys that a call touches. -/
def touchedKeys (call : KnowledgeCall) : List String := kb.failureKeys call ++ kb.successKeys call

end FailureKnowledgeBase

/-- Dicts that a store takes and that come back as such. -/
structure DictsKept (f : Dict → Dict) (D : Dict → Prop) : Prop where
  nil : D []
  update : ∀ {d other}, D d → D other → D (Dict.update d other)
  read : ∀ {d}, D d → D (f d)

/-- A record with such dicts, and counts of no more than `n` occurrences. -/
structure Modest (D : Dict → Prop) (n : Nat) (r : GuildRecord) : Prop where
  approachAdjustment : D r.approachAdjustment
  metadata : D r.metadata
  counts : r.failureCount.natAbs + r.successCount.natAbs ≤ n

theorem Modest.mono {D : Dict → Prop} {n m : Nat} {r : GuildRecord} (hr : Modest D n r)
    (hle : n ≤ m) : Modest D m r :=
  { hr with counts := hr.counts.trans hle }

theorem Modest.mapDicts {f : Dict → Dict} {D : Dict → Prop} (hD : DictsKept f D) {n : Nat}
    {r : GuildRecord} (hr : Modest D n r) : Modest D n (r.mapDicts f) :=
  { hr with
    approachAdjustment := hD.read hr.approachAdjustment
    metadata := hD.read hr.metadata }

/-- The dicts that a call passes on. -/
def KnowledgeCall.Passes (D : Dict → Prop) : KnowledgeCall → Prop
  | .publish pub => D (pub.approachAdjustment.getD []) ∧ D (pub.metadata.getD [])
  | .publishFailure _ _ _ _ approachAdjustment => D (approachAdjustment.getD [])
  | .publishSuccess report => D (report.metadata.getD [])

theorem KnowledgeCall.passes_true (call : KnowledgeCall) : call.Passes fun _ => True := by
  cases call with
  | publish pub => exact ⟨trivial, trivial⟩
  | publishFailure => trivial
  | publishSuccess => trivial

/-! ### The calls on a store -/

section Run

variable {S : Type} {store : GuildStore S} {clock : GuildHistory → Time}
variable {admits : GuildRecord → Prop} {f : Dict → Dict}
variable {Holds : S → List (String × GuildRecord) → Prop}
variable {D : Dict → Prop} {limit : Nat}

abbrev GuildState (S : Type) := Config S GuildCall GuildAnswer

/-- The logic of a run on a store. -/
abbrev GuildStore.logic (store : GuildStore S) (clock : GuildHistory → Time) :
    Logic (GuildState S) GuildCall GuildAnswer :=
  (store.machine clock).logic fun _ => False

theorem GuildStore.logic_monotone (store : GuildStore S) (clock : GuildHistory → Time) :
    (store.logic clock).Monotone :=
  (store.machine clock).logic_monotone _

@[simp] theorem wp_askGuild {S : Type} {L : Logic S GuildCall GuildAnswer} {x : Unit} {s : S}
    (c : GuildCall) (post : Except PyExc (GuildResponse c) → Unit → S → Prop) :
    @Block.wp GuildCall GuildResponse PyExc Unit (no_index (GuildResponse c)) S L (askGuild c)
      post x s = L.call s c fun reply s' => post reply x s' := rfl

/-- The terms on which a knowledge base uses a store: what the store promises,
and that it admits what the knowledge base saves. -/
structure GuildTerms (store : GuildStore S) (admits : GuildRecord → Prop) (f : Dict → Dict)
    (Holds : S → List (String × GuildRecord) → Prop) (D : Dict → Prop) (limit : Nat) : Prop where
  lawful : store.Lawful admits f Holds
  dicts : DictsKept f D
  admits : ∀ record, Modest D limit record → admits record

/-- The state holds these records; each is modest, and its key is accounted for. -/
structure Stocked (Holds : S → List (String × GuildRecord) → Prop) (D : Dict → Prop)
    (keys : List String) (n : Nat) (s : S) (records : List (String × GuildRecord)) : Prop where
  holds : Holds s records
  modest : ∀ item ∈ records, Modest D n item.2
  keys : ∀ item ∈ records, item.1 ∈ keys

variable {keys : List String} {n : Nat} {k : GuildState S}
variable {records : List (String × GuildRecord)}

theorem Stocked.mono {m : Nat} (hkept : Stocked Holds D keys n k.state records) (hle : n ≤ m) :
    Stocked Holds D keys m k.state records :=
  { hkept with modest := fun item hitem => (hkept.modest item hitem).mono hle }

namespace GuildTerms

/-- The clock is read. -/
theorem wp_now {post : Except PyExc Time → Unit → GuildState S → Prop}
    (hpost : ∀ now k', k'.state = k.state → post (.ok now) () k') :
    (askGuild .now).wp (store.logic clock) post () k :=
  hpost _ _ rfl

section Statements

variable (hterms : GuildTerms store admits f Holds D limit)
include hterms

theorem wp_get (hkept : Stocked Holds D keys n k.state records) (fingerprint : FailureFingerprint)
    {post : Except PyExc (Option GuildRecord) → Unit → GuildState S → Prop}
    (hpost : ∀ k', k'.state = k.state →
      post (.ok ((records.lookup fingerprint.toKey).map (.mapDicts f))) () k') :
    (askGuild (.get fingerprint)).wp (store.logic clock) post () k := by
  have hstep : (store.machine clock).step k (.get fingerprint) =
      (store.get fingerprint k.state,
        ⟨⟨.get fingerprint, store.get fingerprint k.state⟩ :: k.history, k.state⟩) := rfl
  rw [hterms.lawful.get fingerprint hkept.holds] at hstep
  exact Machine.call_of_step hstep (hpost _ rfl)

theorem wp_list (hkept : Stocked Holds D keys n k.state records) (q : GuildQuery)
    {post : Except PyExc (List GuildRecord) → Unit → GuildState S → Prop}
    (hpost : ∀ k', k'.state = k.state →
      post (.ok (filterGuildRecords q (records.map fun item => item.2.mapDicts f))) () k') :
    (askGuild (.list q)).wp (store.logic clock) post () k := by
  have hstep : (store.machine clock).step k (.list q) =
      (store.list q k.state, ⟨⟨.list q, store.list q k.state⟩ :: k.history, k.state⟩) := rfl
  rw [hterms.lawful.list q hkept.holds] at hstep
  exact Machine.call_of_step hstep (hpost _ rfl)

/-- A modest record is saved under its key. -/
theorem wp_save (hkept : Stocked Holds D keys n k.state records) (hlimit : n + 1 ≤ limit)
    {record : GuildRecord} (hrecord : Modest D (n + 1) record) (hkey : record.key ∈ keys)
    {post : Except PyExc Unit → Unit → GuildState S → Prop}
    (hpost : ∀ k' records', Stocked Holds D keys (n + 1) k'.state records' →
      records'.Perm (Assoc.insert record.key record records) → post (.ok ()) () k') :
    (askGuild (.save record)).wp (store.logic clock) post () k := by
  obtain ⟨s', records', hsave, hholds, hperm⟩ :=
    hterms.lawful.save hkept.holds (hterms.admits record (hrecord.mono hlimit))
  have hstep : (store.machine clock).step k (.save record) =
      (.ok (), ⟨⟨.save record, .ok ()⟩ :: k.history, s'⟩) := by
    unfold Machine.step
    simp only [GuildStore.machine, hsave]
  refine Machine.call_of_step hstep (hpost _ records' ⟨hholds, ?_, ?_⟩ hperm)
  · intro item hitem
    rcases Assoc.mem_insert (hperm.mem_iff.mp hitem) with hold | rfl
    · exact (hkept.modest item hold).mono (Nat.le_succ n)
    · exact hrecord
  · intro item hitem
    rcases Assoc.mem_insert (hperm.mem_iff.mp hitem) with hold | rfl
    · exact hkept.keys item hold
    · exact hkey

/-- Update or create: the record is saved, and nothing else changes. -/
theorem wp_upsert (hkept : Stocked Holds D keys n k.state records) (hlimit : n + 1 ≤ limit)
    {fingerprint : FailureFingerprint} (hkey : fingerprint.toKey ∈ keys)
    {update : GuildRecord → Time → GuildRecord} {create : Time → Time → GuildRecord}
    (hupdate : ∀ r now, Modest D n r → Modest D (n + 1) (update r now) ∧
      (update r now).key = r.key ∧ (update r now).timeless = update r.timeless 0)
    (hcreate : ∀ createdAt updatedAt, Modest D (n + 1) (create createdAt updatedAt) ∧
      (create createdAt updatedAt).key = fingerprint.toKey ∧
        (create createdAt updatedAt).timeless = create 0 0) :
    (FailureKnowledgeBase.upsert fingerprint update create).wp (store.logic clock)
      (fun outcome _ k' => ∃ record records', outcome = .ok record ∧
        record.key = fingerprint.toKey ∧
        record.timeless = FailureKnowledgeBase.upserted f update create
          ((records.lookup fingerprint.toKey).map .timeless) ∧
        Stocked Holds D keys (n + 1) k'.state records' ∧
        records'.Perm (Assoc.insert fingerprint.toKey record records)) () k := by
  unfold FailureKnowledgeBase.upsert
  rw [wp_bind]
  refine wp_get hterms hkept fingerprint fun k₁ hk₁ => ?_
  rw [← hk₁] at hkept
  cases hlookup : records.lookup fingerprint.toKey with
  | none =>
      rw [Option.map_none]
      dsimp only
      rw [wp_bind]
      refine wp_now fun createdAt k₂ hk₂ => ?_
      rw [← hk₂] at hkept
      dsimp only
      rw [wp_bind]
      refine wp_now fun updatedAt k₃ hk₃ => ?_
      rw [← hk₃] at hkept
      obtain ⟨hmodest, hrecord, htimeless⟩ := hcreate createdAt updatedAt
      dsimp only
      rw [wp_bind]
      refine wp_save hterms hkept hlimit hmodest (by rwa [hrecord])
        fun k₄ records' hkept' hperm => ?_
      rw [hrecord] at hperm
      exact ⟨_, records', rfl, hrecord, htimeless, hkept', hperm⟩
  | some existing =>
      rw [Option.map_some]
      dsimp only
      rw [wp_bind]
      refine wp_now fun now k₂ hk₂ => ?_
      rw [← hk₂] at hkept
      have hold := Assoc.mem_of_lookup hlookup
      obtain ⟨hmodest, hrecord, htimeless⟩ :=
        hupdate (existing.mapDicts f) now ((hkept.modest _ hold).mapDicts hterms.dicts)
      rw [GuildRecord.key_mapDicts,
        (hterms.lawful.filed hkept.holds).key_of_lookup hlookup] at hrecord
      dsimp only
      rw [wp_bind]
      refine wp_save hterms hkept hlimit hmodest (by rwa [hrecord])
        fun k₃ records' hkept' hperm => ?_
      rw [hrecord] at hperm
      exact ⟨_, records', rfl, hrecord, htimeless, hkept', hperm⟩

/-- The copy in hand that has the key is counted once more and saved. -/
theorem wp_countAgain (hkept : Stocked Holds D keys n k.state records) (hlimit : n + 1 ≤ limit)
    {key : String} {old : GuildRecord} (hold : records.lookup key = some old)
    {published : List GuildRecord} (hmem : old ∈ published)
    (hnodup : (published.map (·.key)).Nodup) :
    (FailureKnowledgeBase.countAgain key published).wp (store.logic clock)
      (fun outcome _ k' => ∃ now records',
        outcome = .ok (FailureKnowledgeBase.counted key now published) ∧
        Stocked Holds D keys (n + 1) k'.state records' ∧
        records'.Perm (Assoc.insert key (FailureKnowledgeBase.again old now) records)) () k := by
  have hkey : old.key = key := (hterms.lawful.filed hkept.holds).key_of_lookup hold
  have hitem := Assoc.mem_of_lookup hold
  subst hkey
  have hmodest : ∀ now, Modest D (n + 1) (FailureKnowledgeBase.again old now) := by
    intro now
    have hold := hkept.modest _ hitem
    have hcounts : old.failureCount.natAbs + old.successCount.natAbs ≤ n := hold.counts
    refine ⟨hold.approachAdjustment, hold.metadata, ?_⟩
    simp only [FailureKnowledgeBase.again]
    omega
  have hknown (now : Time) : (FailureKnowledgeBase.again old now).key ∈ keys :=
    hkept.keys _ hitem
  rw [FailureKnowledgeBase.countAgain_eq hmem hnodup, wp_bind]
  refine wp_now fun now k₁ hk₁ => ?_
  rw [← hk₁] at hkept
  dsimp only
  rw [wp_bind]
  refine wp_save hterms hkept hlimit (hmodest now) (hknown now) fun k₂ records' hkept' hperm => ?_
  exact ⟨now, records', rfl, hkept', hperm⟩

end Statements

end GuildTerms

open GuildTerms

/-! ### A call of `publish` -/

namespace FailureKnowledgeBase

variable {kb : FailureKnowledgeBase} {pub : Publication}

/-- In the course of a call: the slots say what the store holds and what the
call has seen, and the copies in hand are the records in the store. -/
structure Working (Holds : S → List (String × GuildRecord) → Prop) (D : Dict → Prop)
    (keys : List String) (n : Nat) (s : S) (batch : Batch) (slots : String → Slot)
    (records : List (String × GuildRecord)) : Prop where
  kept : Stocked Holds D keys n s records
  record : ∀ key, (slots key).record = (records.lookup key).map .timeless
  seen : ∀ key, (slots key).seen = decide (key ∈ batch.seen)
  inHand : ∀ record ∈ batch.published, records.lookup record.key = some record
  nodup : (batch.published.map (·.key)).Nodup
  published : ∀ key, key ∈ batch.seen ↔ key ∈ batch.published.map (·.key)

theorem modest_renewed {f : Dict → Dict} (hD : DictsKept f D)
    (hpub : D (pub.approachAdjustment.getD [])) {r : GuildRecord} (hr : Modest D n r)
    (now : Time) : Modest D (n + 1) (kb.renewed pub r now) := by
  refine ⟨?_, hr.metadata, ?_⟩
  · cases hadjustment : pub.approachAdjustment with
    | none =>
        simp only [renewed, hadjustment]
        exact hr.approachAdjustment
    | some adjustment =>
        rw [hadjustment] at hpub
        simp only [renewed, hadjustment]
        exact hD.update hr.approachAdjustment hpub
  · have hcounts := hr.counts
    simp only [renewed]
    omega

theorem modest_created (hadjustment : D (pub.approachAdjustment.getD []))
    (hmetadata : D (pub.metadata.getD [])) (fingerprint : FailureFingerprint)
    (createdAt updatedAt : Time) :
    Modest D (n + 1) (kb.created pub fingerprint createdAt updatedAt) := by
  refine ⟨hadjustment, hmetadata, ?_⟩
  simp only [created]
  omega

section Effect

variable {key : String} {slot : Slot} {ctx : FailureContext}

theorem contextEffect_of_ne (hkey : (kb.fingerprintOf pub.capability ctx).toKey ≠ key) :
    kb.contextEffect f pub key slot ctx = slot := if_neg hkey

theorem contextEffect_again (hkey : (kb.fingerprintOf pub.capability ctx).toKey = key)
    (hseen : slot.seen = true) :
    kb.contextEffect f pub key slot ctx = { slot with record := slot.record.map (again · 0) } := by
  rw [contextEffect, if_pos hkey, if_pos hseen]

theorem contextEffect_first (hkey : (kb.fingerprintOf pub.capability ctx).toKey = key)
    (hseen : slot.seen = false) :
    kb.contextEffect f pub key slot ctx = ⟨true, some (upserted f (kb.renewed pub)
      (kb.created pub (kb.fingerprintOf pub.capability ctx)) slot.record)⟩ := by
  rw [contextEffect, if_pos hkey, hseen]
  rfl

end Effect

/-- A context whose key the call has not seen yet. -/
theorem Working.first {batch : Batch} {slots : String → Slot} {s s' : S}
    (hworking : Working Holds D keys n s batch slots records) {ctx : FailureContext}
    {fingerprint : FailureFingerprint}
    (hfingerprint : kb.fingerprintOf pub.capability ctx = fingerprint)
    (hseen : fingerprint.toKey ∉ batch.seen) {record : GuildRecord}
    {records' : List (String × GuildRecord)} (hrecord : record.key = fingerprint.toKey)
    (htimeless : record.timeless = upserted f (kb.renewed pub) (kb.created pub fingerprint)
      ((records.lookup fingerprint.toKey).map .timeless))
    (hkept : Stocked Holds D keys (n + 1) s' records')
    (hlookup : ∀ key, records'.lookup key =
      if key = fingerprint.toKey then some record else records.lookup key) :
    Working Holds D keys (n + 1) s' ⟨fingerprint.toKey :: batch.seen, batch.published ++ [record]⟩
      (fun key => kb.contextEffect f pub key (slots key) ctx) records' := by
  have hnew : fingerprint.toKey ∉ batch.published.map (·.key) :=
    fun hmem => hseen ((hworking.published _).mpr hmem)
  refine ⟨hkept, fun key => ?_, fun key => ?_, ?_, ?_, fun key => ?_⟩
  · rw [hlookup]
    by_cases hkey : fingerprint.toKey = key
    · have hslot : (slots key).seen = false := by
        rw [hworking.seen, ← hkey, decide_eq_false hseen]
      rw [contextEffect_first (by rw [hfingerprint, hkey]) hslot, if_pos hkey.symm,
        hworking.record, ← hkey, Option.map_some, htimeless, hfingerprint]
    · rw [contextEffect_of_ne (by rw [hfingerprint]; exact hkey), if_neg (Ne.symm hkey),
        hworking.record]
  · by_cases hkey : fingerprint.toKey = key
    · have hslot : (slots key).seen = false := by
        rw [hworking.seen, ← hkey, decide_eq_false hseen]
      rw [contextEffect_first (by rw [hfingerprint, hkey]) hslot, ← hkey]
      simp
    · rw [contextEffect_of_ne (by rw [hfingerprint]; exact hkey), hworking.seen]
      simp [Ne.symm hkey]
  · intro copy hcopy
    rw [hlookup]
    rcases List.mem_append.mp hcopy with hold | hlast
    · have hne : copy.key ≠ fingerprint.toKey := by
        intro heq
        exact hnew (heq ▸ List.mem_map_of_mem hold)
      rw [if_neg hne]
      exact hworking.inHand copy hold
    · rw [List.mem_singleton.mp hlast, if_pos hrecord]
  · rw [List.map_append, List.map_singleton, hrecord]
    exact List.nodup_append'.mpr ⟨hworking.nodup, List.nodup_singleton _, by simpa using hnew⟩
  · rw [List.mem_cons, hworking.published, List.map_append, List.mem_append, List.map_singleton,
      hrecord, List.mem_singleton, or_comm]

/-- A context whose key the call has seen. -/
theorem Working.again {batch : Batch} {slots : String → Slot} {s s' : S}
    (hworking : Working Holds D keys n s batch slots records) {ctx : FailureContext}
    {fingerprint : FailureFingerprint}
    (hfingerprint : kb.fingerprintOf pub.capability ctx = fingerprint)
    (hseen : fingerprint.toKey ∈ batch.seen) {old : GuildRecord} {now : Time}
    {records' : List (String × GuildRecord)} (hold : records.lookup fingerprint.toKey = some old)
    (hkept : Stocked Holds D keys (n + 1) s' records')
    (hlookup : ∀ key, records'.lookup key =
      if key = fingerprint.toKey then some (again old now) else records.lookup key) :
    Working Holds D keys (n + 1) s' ⟨batch.seen, counted fingerprint.toKey now batch.published⟩
      (fun key => kb.contextEffect f pub key (slots key) ctx) records' := by
  have hkeys := keys_counted fingerprint.toKey now batch.published
  refine ⟨hkept, fun key => ?_, fun key => ?_, ?_, ?_, fun key => ?_⟩
  · rw [hlookup]
    by_cases hkey : fingerprint.toKey = key
    · have hslot : (slots key).seen = true := by
        rw [hworking.seen, ← hkey, decide_eq_true hseen]
      rw [contextEffect_again (by rw [hfingerprint, hkey]) hslot, if_pos hkey.symm,
        hworking.record, ← hkey, hold]
      rfl
    · rw [contextEffect_of_ne (by rw [hfingerprint]; exact hkey), if_neg (Ne.symm hkey),
        hworking.record]
  · by_cases hkey : fingerprint.toKey = key
    · have hslot : (slots key).seen = true := by
        rw [hworking.seen, ← hkey, decide_eq_true hseen]
      rw [contextEffect_again (by rw [hfingerprint, hkey]) hslot, hworking.seen]
    · rw [contextEffect_of_ne (by rw [hfingerprint]; exact hkey), hworking.seen]
  · intro copy hcopy
    obtain ⟨record, hrecord, rfl⟩ := List.mem_map.mp hcopy
    rw [hlookup]
    have hstored := hworking.inHand record hrecord
    by_cases hkey : record.key = fingerprint.toKey
    · rw [hkey, hold] at hstored
      cases hstored
      rw [if_pos hkey]
      exact if_pos hkey
    · rw [if_neg hkey, if_neg hkey]
      exact hstored
  · rw [hkeys]
    exact hworking.nodup
  · rw [hkeys]
    exact hworking.published key

/-- One turn of the loop has the effect of its context on every key. -/
theorem wp_publishContext (hterms : GuildTerms store admits f Holds D limit)
    {batch : Batch} {slots : String → Slot}
    (hworking : Working Holds D keys n k.state batch slots records) (hlimit : n + 1 ≤ limit)
    {ctx : FailureContext} (hkey : (kb.fingerprintOf pub.capability ctx).toKey ∈ keys)
    (hpub : (KnowledgeCall.publish pub).Passes D) :
    (kb.publishContext pub ctx batch).wp (store.logic clock)
      (fun outcome _ k' => ∃ batch' records', outcome = .ok batch' ∧
        Working Holds D keys (n + 1) k'.state batch'
          (fun key => kb.contextEffect f pub key (slots key) ctx) records') () k := by
  have hlookup {s' : S} {records' : List (String × GuildRecord)} {record : GuildRecord}
      (hkept' : Stocked Holds D keys (n + 1) s' records')
      (hperm : records'.Perm
        (Assoc.insert (kb.fingerprintOf pub.capability ctx).toKey record records)) (key : String) :
      records'.lookup key = if key = (kb.fingerprintOf pub.capability ctx).toKey then some record
        else records.lookup key := by
    rw [Assoc.lookup_perm hperm (hterms.lawful.filed hkept'.holds).nodup, Assoc.lookup_insert]
  rw [publishContext]
  by_cases hseen : (kb.fingerprintOf pub.capability ctx).toKey ∈ batch.seen
  · obtain ⟨old, hmem, hold⟩ := List.mem_map.mp ((hworking.published _).mp hseen)
    have hstored := hworking.inHand old hmem
    rw [hold] at hstored
    rw [if_pos hseen, wp_bind]
    refine wp_mono (store.logic_monotone clock) ?_
      (wp_countAgain hterms hworking.kept hlimit hstored hmem hworking.nodup)
    rintro _ _ k' ⟨now, records', rfl, hkept', hperm⟩
    exact ⟨_, records', rfl, hworking.again rfl hseen hstored hkept' (hlookup hkept' hperm)⟩
  · rw [if_neg hseen, wp_bind]
    refine wp_mono (store.logic_monotone clock) ?_ (wp_upsert hterms hworking.kept hlimit hkey
      (fun r now hr => ⟨modest_renewed hterms.dicts hpub.1 hr now, rfl, rfl⟩)
      fun createdAt updatedAt => ⟨modest_created hpub.1 hpub.2 _ createdAt updatedAt, rfl, rfl⟩)
    rintro _ _ k' ⟨record, records', rfl, hrecord, htimeless, hkept', hperm⟩
    exact ⟨_, records', rfl,
      hworking.first rfl hseen hrecord htimeless hkept' (hlookup hkept' hperm)⟩

theorem wp_publishContexts (hterms : GuildTerms store admits f Holds D limit)
    (hpub : (KnowledgeCall.publish pub).Passes D) {contexts : List FailureContext} {batch : Batch}
    {slots : String → Slot} (hworking : Working Holds D keys n k.state batch slots records)
    (hlimit : n + contexts.length ≤ limit)
    (hkeys : ∀ ctx ∈ contexts, (kb.fingerprintOf pub.capability ctx).toKey ∈ keys) :
    (kb.publishContexts pub contexts batch).wp (store.logic clock)
      (fun outcome _ k' => ∃ batch' records', outcome = .ok batch' ∧
        Working Holds D keys (n + contexts.length) k'.state batch'
          (fun key => contexts.foldl (kb.contextEffect f pub key) (slots key)) records') () k := by
  induction contexts generalizing batch slots n k records with
  | nil => exact ⟨batch, records, rfl, hworking⟩
  | cons ctx rest ih =>
      rw [List.forall_mem_cons] at hkeys
      rw [List.length_cons] at hlimit ⊢
      rw [publishContexts, wp_bind]
      refine wp_mono (store.logic_monotone clock) ?_
        (wp_publishContext hterms hworking (by omega) hkeys.1 hpub)
      rintro _ _ k₁ ⟨batch₁, records₁, rfl, hworking₁⟩
      have hrest := ih hworking₁ (by omega) hkeys.2
      rwa [Nat.add_assoc, Nat.add_comm 1] at hrest

/-- There are never more records than the limit has room for. -/
def RoomFor (kb : FailureKnowledgeBase) (keys : List String) : Prop :=
  kb.config.maxRecords ≤ 0 ∨ (keys.dedup.length : Int) ≤ kb.config.maxRecords

instance (kb : FailureKnowledgeBase) (keys : List String) : Decidable (RoomFor kb keys) :=
  inferInstanceAs (Decidable (_ ∨ _))

/-- A store with room enough is not trimmed. -/
theorem wp_enforceLimit (hterms : GuildTerms store admits f Holds D limit)
    (hkept : Stocked Holds D keys n k.state records) (hroom : kb.RoomFor keys) :
    kb.enforceLimit.wp (store.logic clock)
      (fun outcome _ k' => outcome = .ok () ∧ k'.state = k.state) () k := by
  unfold enforceLimit
  by_cases hnone : kb.config.maxRecords ≤ 0
  · rw [if_pos hnone]
    exact ⟨rfl, rfl⟩
  · have hlength : records.length ≤ keys.dedup.length := by
      have hsubset : Assoc.keys records ⊆ keys.dedup := by
        intro key hkey
        obtain ⟨item, hitem, rfl⟩ := List.mem_map.mp hkey
        exact List.mem_dedup.mpr (hkept.keys item hitem)
      have hsubperm := (hterms.lawful.filed hkept.holds).nodup.subperm hsubset
      rw [← List.length_map (f := (·.1))]
      exact hsubperm.length_le
    have hfits : ((filterGuildRecords .all
        (records.map fun item => item.2.mapDicts f)).length : Int) ≤ kb.config.maxRecords := by
      rw [filterGuildRecords_all, List.length_map]
      exact (Int.ofNat_le.mpr hlength).trans (hroom.resolve_left hnone)
    rw [if_neg hnone, wp_bind]
    refine wp_list hterms hkept .all fun k' hk' => ?_
    dsimp only
    rw [if_pos hfits]
    exact ⟨rfl, hk'⟩

/-- What the store holds without timestamps. -/
def Shows (records : List (String × GuildRecord)) (ledger : String → Option GuildRecord) : Prop :=
  ∀ key, (records.lookup key).map .timeless = ledger key

theorem wp_publish (hterms : GuildTerms store admits f Holds D limit)
    (henabled : kb.config.enabled = true) (hpub : (KnowledgeCall.publish pub).Passes D)
    (hkept : Stocked Holds D keys n k.state records) {ledger : String → Option GuildRecord}
    (hshows : Shows records ledger) (hlimit : n + pub.failureContexts.length ≤ limit)
    (hkeys : ∀ ctx ∈ pub.failureContexts, (kb.fingerprintOf pub.capability ctx).toKey ∈ keys)
    (hroom : kb.RoomFor keys) :
    (kb.publish pub).wp (store.logic clock)
      (fun _ _ k' => ∃ records',
        Stocked Holds D keys (n + pub.failureContexts.length) k'.state records' ∧
        Shows records' fun key => kb.publishEffect f pub key (ledger key)) () k := by
  have hworking :
      Working Holds D keys n k.state ⟨[], []⟩ (fun key => ⟨false, ledger key⟩) records :=
    ⟨hkept, fun key => (hshows key).symm, fun key => rfl, List.forall_mem_nil _, List.nodup_nil,
      fun key => Iff.rfl⟩
  rw [publish, if_pos henabled, wp_bind]
  refine wp_mono (store.logic_monotone clock) ?_
    (wp_publishContexts hterms hpub hworking hlimit hkeys)
  rintro _ _ k₁ ⟨batch, records₁, rfl, hworking₁⟩
  dsimp only
  rw [wp_bind]
  refine wp_mono (store.logic_monotone clock) ?_ (wp_enforceLimit hterms hworking₁.kept hroom)
  rintro _ _ k₂ ⟨rfl, hk₂⟩
  refine ⟨records₁, ?_, fun key => (hworking₁.record key).symm⟩
  rw [hk₂]
  exact hworking₁.kept

/-! ### Any call -/

theorem successEffect_error {report : SuccessReport} {e : PyExc}
    (hfingerprint : kb.successFingerprint report = .error e) (key : String)
    (old : Option GuildRecord) : kb.successEffect f report key old = old := by
  simp only [successEffect, hfingerprint]

theorem successEffect_ok {report : SuccessReport} {fingerprint : FailureFingerprint}
    (hfingerprint : kb.successFingerprint report = .ok fingerprint) (key : String)
    (old : Option GuildRecord) :
    kb.successEffect f report key old =
      if fingerprint.toKey = key then
        some (upserted f (kb.renewedSuccess report) (kb.createdSuccess report fingerprint) old)
      else old := by
  simp only [successEffect, hfingerprint]

theorem wp_publishSuccess (hterms : GuildTerms store admits f Holds D limit)
    (henabled : kb.config.enabled = true) {report : SuccessReport}
    (hreport : (KnowledgeCall.publishSuccess report).Passes D)
    (hkept : Stocked Holds D keys n k.state records) {ledger : String → Option GuildRecord}
    (hshows : Shows records ledger)
    (hlimit : n + (kb.touchedKeys (.publishSuccess report)).length ≤ limit)
    (hkeys : ∀ key ∈ kb.touchedKeys (.publishSuccess report), key ∈ keys)
    (hroom : kb.RoomFor keys) :
    (kb.publishSuccess report).wp (store.logic clock)
      (fun _ _ k' => ∃ records',
        Stocked Holds D keys (n + (kb.touchedKeys (.publishSuccess report)).length) k'.state
          records' ∧
          Shows records' fun key => kb.successEffect f report key (ledger key)) () k := by
  rw [publishSuccess, if_pos henabled, wp_bind, wp_ofExcept]
  cases hfingerprint : kb.successFingerprint report with
  | error e =>
      refine ⟨records, ?_, fun key => ?_⟩
      · exact hkept.mono (Nat.le_add_right _ _)
      · dsimp only
        rw [successEffect_error hfingerprint]
        exact hshows key
  | ok fingerprint =>
      have htouched : kb.touchedKeys (.publishSuccess report) = [fingerprint.toKey] := by
        simp [touchedKeys, failureKeys, successKeys, hfingerprint]
      rw [htouched] at hlimit hkeys ⊢
      have hupdate : ∀ r now, Modest D n r → Modest D (n + 1) (kb.renewedSuccess report r now) ∧
          (kb.renewedSuccess report r now).key = r.key ∧
          (kb.renewedSuccess report r now).timeless = kb.renewedSuccess report r.timeless 0 := by
        intro r now hr
        refine ⟨⟨hr.approachAdjustment, hr.metadata, ?_⟩, rfl, rfl⟩
        have hcounts := hr.counts
        simp only [renewedSuccess]
        omega
      have hcreate : ∀ createdAt updatedAt,
          Modest D (n + 1) (kb.createdSuccess report fingerprint createdAt updatedAt) ∧
          (kb.createdSuccess report fingerprint createdAt updatedAt).key = fingerprint.toKey ∧
          (kb.createdSuccess report fingerprint createdAt updatedAt).timeless =
            kb.createdSuccess report fingerprint 0 0 := by
        intro createdAt updatedAt
        refine ⟨⟨hterms.dicts.nil, hreport, ?_⟩, rfl, rfl⟩
        simp only [createdSuccess]
        omega
      dsimp only
      rw [wp_bind]
      refine wp_mono (store.logic_monotone clock) ?_
        (wp_upsert hterms hkept hlimit (hkeys _ (List.mem_singleton_self _)) hupdate hcreate)
      rintro _ _ k₁ ⟨record, records₁, rfl, hrecord, htimeless, hkept₁, hperm⟩
      dsimp only
      rw [wp_bind]
      refine wp_mono (store.logic_monotone clock) ?_ (wp_enforceLimit hterms hkept₁ hroom)
      rintro _ _ k₂ ⟨rfl, hk₂⟩
      refine ⟨records₁, by rw [hk₂]; exact hkept₁, fun key => ?_⟩
      dsimp only
      rw [Assoc.lookup_perm hperm (hterms.lawful.filed hkept₁.holds).nodup, Assoc.lookup_insert,
        successEffect_ok hfingerprint]
      by_cases hkey : fingerprint.toKey = key
      · rw [if_pos hkey.symm, if_pos hkey, Option.map_some, htimeless, hshows, hkey]
      · rw [if_neg (Ne.symm hkey), if_neg hkey, hshows]

/-- Each call has its effect on every key. -/
theorem wp_block (hterms : GuildTerms store admits f Holds D limit)
    (henabled : kb.config.enabled = true) {call : KnowledgeCall} (hcall : call.Passes D)
    (hkept : Stocked Holds D keys n k.state records) {ledger : String → Option GuildRecord}
    (hshows : Shows records ledger) (hlimit : n + (kb.touchedKeys call).length ≤ limit)
    (hkeys : ∀ key ∈ kb.touchedKeys call, key ∈ keys) (hroom : kb.RoomFor keys) :
    (kb.block call).wp (store.logic clock)
      (fun _ _ k' => ∃ records',
        Stocked Holds D keys (n + (kb.touchedKeys call).length) k'.state records' ∧
          Shows records' fun key => kb.callEffect f call key (ledger key)) () k := by
  have hdone {α β : Type} {m : GuildBlock α} (g : α → β) {post : GuildState S → Prop}
      (hm : m.wp (store.logic clock) (fun _ _ k' => post k') () k) :
      (do
        let value ← m
        return g value).wp (store.logic clock) (fun _ _ k' => post k') () k := by
    rw [wp_bind]
    refine wp_mono (store.logic_monotone clock) ?_ hm
    intro outcome _ k' hpost
    cases outcome with
    | ok value => exact hpost
    | error e => exact hpost
  cases call with
  | publish pub =>
      have hcontexts : (kb.touchedKeys (.publish pub)).length = pub.failureContexts.length := by
        simp [touchedKeys, failureKeys, successKeys]
      rw [hcontexts] at hlimit ⊢
      refine hdone _ (wp_publish hterms henabled hcall hkept hshows hlimit ?_ hroom)
      exact fun ctx hctx => hkeys _ (List.mem_append_left _ (List.mem_map_of_mem hctx))
  | publishFailure capability failure role resolutionHint approachAdjustment =>
      have hpub : (KnowledgeCall.publish ⟨capability, [failure], role, resolutionHint,
          approachAdjustment, none⟩).Passes D := ⟨hcall, hterms.dicts.nil⟩
      refine hdone _ (hdone _ (wp_publish hterms henabled hpub hkept hshows hlimit ?_ hroom))
      intro ctx hctx
      obtain rfl := List.mem_singleton.mp hctx
      exact hkeys _ List.mem_cons_self
  | publishSuccess report =>
      exact hdone _ (wp_publishSuccess hterms henabled hcall hkept hshows hlimit hkeys hroom)

/-- After any history the store holds what the effects of the calls add up to. -/
theorem runCalls_shows (hterms : GuildTerms store admits f Holds D limit)
    (henabled : kb.config.enabled = true) {calls : List KnowledgeCall}
    (hcalls : ∀ call ∈ calls, call.Passes D) (hkept : Stocked Holds D keys n k.state records)
    {ledger : String → Option GuildRecord} (hshows : Shows records ledger)
    (hlimit : n + (calls.flatMap kb.touchedKeys).length ≤ limit)
    (hkeys : ∀ key ∈ calls.flatMap kb.touchedKeys, key ∈ keys) (hroom : kb.RoomFor keys) :
    ∃ records', Holds (kb.runCalls store clock calls k).state records' ∧
      Shows records' fun key =>
        calls.foldl (fun old call => kb.callEffect f call key old) (ledger key) := by
  induction calls generalizing n k records ledger with
  | nil => exact ⟨records, hkept.holds, hshows⟩
  | cons call rest ih =>
      rw [List.forall_mem_cons] at hcalls
      rw [List.flatMap_cons, List.length_append] at hlimit
      simp only [List.flatMap_cons, List.mem_append] at hkeys
      obtain ⟨outcome, k', hexec, records₁, hkept₁, hshows₁⟩ : ∃ outcome k',
          ((kb.block call).run ()).exec (store.machine clock) k = (some outcome, k') ∧
            ∃ records', Stocked Holds D keys (n + (kb.touchedKeys call).length) k'.state records' ∧
              Shows records' fun key => kb.callEffect f call key (ledger key) :=
        Machine.exec_of_wp (wp_block hterms henabled hcalls.1 hkept hshows (by omega)
          (fun key hkey => hkeys key (.inl hkey)) hroom)
      rw [runCalls, hexec]
      exact ih hcalls.2 hkept₁ hshows₁ (by omega) fun key hkey => hkeys key (.inr hkey)

end FailureKnowledgeBase

end Run

end Conductor
