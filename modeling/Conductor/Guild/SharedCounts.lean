/-
Threads that publish to one knowledge base.  Getting a record and saving it are
single steps with nothing to tie them together, so two threads that get the same
record count once what happened twice.  The counts are right exactly if every
save replaces the record that its thread has in hand.
-/
import Mathlib.Algebra.BigOperators.Fin
import Conductor.Effects.Interleave
import Conductor.Guild.Counts

namespace Conductor

open Effects Block FailureKnowledgeBase

/-- The two things that a guild record counts. -/
inductive Occurrence where
  | failure
  | success
  deriving DecidableEq

/-- How often it has occurred, by what was found under a key. -/
def Occurrence.count : Occurrence → Option GuildRecord → Int
  | _, none => 0
  | .failure, some record => record.failureCount
  | .success, some record => record.successCount

/-- The keys of a call at which something occurs. -/
def Occurrence.keys (kb : FailureKnowledgeBase) : Occurrence → KnowledgeCall → List String
  | .failure => kb.failureKeys
  | .success => kb.successKeys

/-- A record that counts one occurrence more than what there was. -/
def OneMore (o : Occurrence) (old : Option GuildRecord) (record : GuildRecord) : Prop :=
  ∀ o' : Occurrence, o'.count (some record) = o'.count old + if o' = o then 1 else 0

theorem oneMore_again (record : GuildRecord) (now : Time) :
    OneMore .failure (some record) (again record now) := by
  intro o
  cases o with
  | failure => rfl
  | success => exact (Int.add_zero _).symm

theorem oneMore_renewed (kb : FailureKnowledgeBase) (pub : Publication) (record : GuildRecord)
    (now : Time) : OneMore .failure (some record) (kb.renewed pub record now) := by
  intro o
  cases o with
  | failure => rfl
  | success => exact (Int.add_zero _).symm

theorem oneMore_created (kb : FailureKnowledgeBase) (pub : Publication)
    (fingerprint : FailureFingerprint) (createdAt updatedAt : Time) :
    OneMore .failure none (kb.created pub fingerprint createdAt updatedAt) := by
  intro o
  cases o <;> rfl

theorem oneMore_renewedSuccess (kb : FailureKnowledgeBase) (report : SuccessReport)
    (record : GuildRecord) (now : Time) :
    OneMore .success (some record) (kb.renewedSuccess report record now) := by
  intro o
  cases o with
  | failure => exact (Int.add_zero _).symm
  | success => rfl

theorem oneMore_createdSuccess (kb : FailureKnowledgeBase) (report : SuccessReport)
    (fingerprint : FailureFingerprint) (createdAt updatedAt : Time) :
    OneMore .success none (kb.createdSuccess report fingerprint createdAt updatedAt) := by
  intro o
  cases o <;> rfl

/-- What a thread has last got or saved under a key. -/
def inHand (key : String) : GuildHistory → Option GuildRecord
  | [] => none
  | ⟨.get fingerprint, .ok found⟩ :: h => if fingerprint.toKey = key then found else inHand key h
  | ⟨.save record, _⟩ :: h => if record.key = key then some record else inHand key h
  | _ :: h => inHand key h

/-- How often a thread has saved a record under the key with one occurrence more
than it had in hand. -/
def timesSaved (o : Occurrence) (key : String) : GuildHistory → Nat
  | [] => 0
  | ⟨.save record, _⟩ :: h =>
      if record.key = key ∧ o.count (inHand key h) < o.count (some record) then
        timesSaved o key h + 1
      else timesSaved o key h
  | _ :: h => timesSaved o key h

/-- A thread that publishes to a store that has no other keys than these: every
save counts one occurrence more than the thread has in hand, and nothing is
deleted. -/
def publishing (keys : List String) : Monitor GuildHistory GuildCall GuildAnswer where
  initial := []
  next h c answer := ⟨c, answer⟩ :: h
  allows h
    | .save record => record.key ∈ keys ∧ ∃ o, OneMore o (inHand record.key h) record
    | .delete _ => False
    | _ => True
  answers
    | .now, answer => ∃ now, answer = .ok now
    | .get fingerprint, answer =>
        ∃ found, answer = .ok found ∧ ∀ record ∈ found, record.key = fingerprint.toKey
    | .save _, answer => answer = .ok ()
    | .list q, answer => ∃ records, answer = .ok records ∧
        (q = .all → records.length ≤ keys.dedup.length)
    | .delete _, _ => True

theorem view_publishing (keys : List String) (h : GuildHistory) :
    (publishing keys).view h = h := by
  induction h with
  | nil => rfl
  | cons e h ih =>
      rw [Monitor.view_cons, ih]
      rfl

variable {keys : List String} {h h' h'' : GuildHistory} {o : Occurrence}

theorem inHand_save {record : GuildRecord} {answer : GuildAnswer (.save record)} (key : String) :
    inHand key (⟨.save record, answer⟩ :: h) =
      if record.key = key then some record else inHand key h := rfl

theorem timesSaved_save {record : GuildRecord} {answer : GuildAnswer (.save record)}
    (hmore : OneMore o (inHand record.key h) record) (o' : Occurrence) (key : String) :
    timesSaved o' key (⟨.save record, answer⟩ :: h) =
      timesSaved o' key h + if o' = o ∧ record.key = key then 1 else 0 := by
  rw [timesSaved]
  by_cases hkey : record.key = key
  · subst hkey
    have hcount := hmore o'
    by_cases ho : o' = o
    · rw [if_pos ho] at hcount
      rw [if_pos ⟨rfl, by omega⟩, if_pos ⟨ho, rfl⟩]
    · rw [if_neg ho] at hcount
      rw [if_neg (fun hlt => absurd hlt.2 (by omega)), if_neg fun hboth => ho hboth.1]
      rfl
  · rw [if_neg fun hboth => hkey hboth.1, if_neg fun hboth => hkey hboth.2]
    rfl

/-! ### The calls of a thread -/

/-- The thread has got no further than reading. -/
structure OnlyRead (h h' : GuildHistory) : Prop where
  saves : ∀ o key, timesSaved o key h' = timesSaved o key h
  inHand : ∀ key, inHand key h' = inHand key h

/-- The thread has saved this record with one occurrence more. -/
structure Recorded (o : Occurrence) (record : GuildRecord) (h h' : GuildHistory) : Prop where
  saves : ∀ o' key, timesSaved o' key h' =
    timesSaved o' key h + if o' = o ∧ record.key = key then 1 else 0
  inHand : ∀ key, inHand key h' = if record.key = key then some record else inHand key h

/-- The thread has saved one occurrence more for each of the keys. -/
def Reported (o : Occurrence) (reported : List String) (h h' : GuildHistory) : Prop :=
  ∀ o' key, timesSaved o' key h' = timesSaved o' key h + if o' = o then reported.count key else 0

theorem Recorded.reported {record : GuildRecord} (hrecorded : Recorded o record h h') :
    Reported o [record.key] h h' := by
  intro o' key
  rw [hrecorded.saves, List.count_singleton]
  by_cases ho : o' = o <;> by_cases hkey : record.key = key <;> simp [ho, hkey]

theorem Reported.trans {reported reported' : List String} (hfirst : Reported o reported h h')
    (hrest : Reported o reported' h' h'') : Reported o (reported ++ reported') h h'' := by
  intro o' key
  rw [hrest, hfirst, List.count_append]
  by_cases ho : o' = o
  · simp only [if_pos ho]
    omega
  · simp only [if_neg ho]

section Calls

theorem wp_read_now {post : Except PyExc Time → Unit → GuildHistory → Prop}
    (hpost : ∀ now h', OnlyRead h h' → post (.ok now) () h') :
    (askGuild .now).wp (publishing keys).logic post () h := by
  refine ⟨trivial, ?_⟩
  rintro _ ⟨now, rfl⟩
  exact hpost now _ ⟨fun _ _ => rfl, fun _ => rfl⟩

theorem wp_read_get {fingerprint : FailureFingerprint}
    {post : Except PyExc (Option GuildRecord) → Unit → GuildHistory → Prop}
    (hpost : ∀ found h', (∀ record ∈ found, record.key = fingerprint.toKey) →
      (∀ o key, timesSaved o key h' = timesSaved o key h) →
      (∀ key, inHand key h' = if fingerprint.toKey = key then found else inHand key h) →
      post (.ok found) () h') :
    (askGuild (.get fingerprint)).wp (publishing keys).logic post () h := by
  refine ⟨trivial, ?_⟩
  rintro _ ⟨found, rfl, hfound⟩
  exact hpost found _ hfound (fun _ _ => rfl) fun _ => rfl

theorem wp_read_all {post : Except PyExc (List GuildRecord) → Unit → GuildHistory → Prop}
    (hpost : ∀ records h', records.length ≤ keys.dedup.length → OnlyRead h h' →
      post (.ok records) () h') :
    (askGuild (.list .all)).wp (publishing keys).logic post () h := by
  refine ⟨trivial, ?_⟩
  rintro _ ⟨records, rfl, hrecords⟩
  exact hpost records _ (hrecords rfl) ⟨fun _ _ => rfl, fun _ => rfl⟩

theorem wp_record {record : GuildRecord} (hkey : record.key ∈ keys)
    (hmore : OneMore o (inHand record.key h) record)
    {post : Except PyExc Unit → Unit → GuildHistory → Prop}
    (hpost : ∀ h', Recorded o record h h' → post (.ok ()) () h') :
    (askGuild (.save record)).wp (publishing keys).logic post () h := by
  refine ⟨⟨hkey, o, hmore⟩, ?_⟩
  rintro _ rfl
  exact hpost _ ⟨timesSaved_save hmore, fun key => inHand_save key⟩

/-- Update or create: one occurrence more is saved, and nothing else. -/
theorem wp_upsert_recorded {fingerprint : FailureFingerprint} (hkey : fingerprint.toKey ∈ keys)
    {update : GuildRecord → Time → GuildRecord} {create : Time → Time → GuildRecord}
    (hupdate : ∀ r now, (update r now).key = r.key ∧ OneMore o (some r) (update r now))
    (hcreate : ∀ createdAt updatedAt, (create createdAt updatedAt).key = fingerprint.toKey ∧
      OneMore o none (create createdAt updatedAt)) :
    (upsert fingerprint update create).wp (publishing keys).logic
      (fun outcome _ h' => ∃ record, outcome = .ok record ∧ record.key = fingerprint.toKey ∧
        Recorded o record h h') () h := by
  -- What was got is in hand until it is replaced by what is saved.
  unfold upsert
  rw [wp_bind]
  apply wp_read_get
  intro found h₁ hfound hsaves₁ hhand₁
  have hrecorded {h₂ h₃ : GuildHistory} {record : GuildRecord}
      (hrecord : record.key = fingerprint.toKey) (hread : OnlyRead h₁ h₂)
      (hlast : Recorded o record h₂ h₃) : Recorded o record h h₃ := by
    constructor
    · intro o' key
      rw [hlast.saves, hread.saves, hsaves₁]
    · intro key
      rw [hlast.inHand, hread.inHand, hhand₁, hrecord]
      by_cases hsame : fingerprint.toKey = key
      · rw [if_pos hsame, if_pos hsame]
      · rw [if_neg hsame, if_neg hsame, if_neg hsame]
  cases found with
  | none =>
      dsimp only
      rw [wp_bind]
      apply wp_read_now
      intro createdAt h₂ hread₂
      dsimp only
      rw [wp_bind]
      apply wp_read_now
      intro updatedAt h₃ hread₃
      obtain ⟨hrecord, hmore⟩ := hcreate createdAt updatedAt
      have hread : OnlyRead h₁ h₃ :=
        ⟨fun o key => (hread₃.saves o key).trans (hread₂.saves o key),
          fun key => (hread₃.inHand key).trans (hread₂.inHand key)⟩
      dsimp only
      rw [wp_bind]
      apply wp_record (o := o)
      · rwa [hrecord]
      · rwa [hread.inHand, hhand₁, if_pos hrecord.symm]
      · intro h₄ hlast
        exact ⟨_, rfl, hrecord, hrecorded hrecord hread hlast⟩
  | some existing =>
      dsimp only
      rw [wp_bind]
      apply wp_read_now
      intro now h₂ hread
      obtain ⟨hrecord, hmore⟩ := hupdate existing now
      rw [hfound existing rfl] at hrecord
      dsimp only
      rw [wp_bind]
      apply wp_record (o := o)
      · rwa [hrecord]
      · rwa [hread.inHand, hhand₁, if_pos hrecord.symm]
      · intro h₃ hlast
        exact ⟨_, rfl, hrecord, hrecorded hrecord hread hlast⟩

/-- The copy that has the key is in hand, and is saved with one failure more. -/
theorem wp_countAgain_recorded {published : List GuildRecord} {old : GuildRecord}
    (hmem : old ∈ published) (hnodup : (published.map (·.key)).Nodup) (hkey : old.key ∈ keys)
    (hhand : inHand old.key h = some old) :
    (countAgain old.key published).wp (publishing keys).logic
      (fun outcome _ h' => ∃ now, outcome = .ok (counted old.key now published) ∧
        Recorded .failure (again old now) h h') () h := by
  rw [countAgain_eq hmem hnodup, wp_bind]
  apply wp_read_now
  intro now h₁ hread
  dsimp only
  rw [wp_bind]
  apply wp_record (o := .failure)
  · exact hkey
  · have hsame : inHand (again old now).key h₁ = some old := (hread.inHand _).trans hhand
    rw [hsame]
    exact oneMore_again old now
  · intro h₂ hlast
    refine ⟨now, rfl, ?_, ?_⟩
    · intro o key
      rw [hlast.saves, hread.saves]
    · intro key
      rw [hlast.inHand, hread.inHand]

variable {kb : FailureKnowledgeBase} {pub : Publication}

/-- In the course of a call: the copies are in hand, and their keys are those
that the call has seen. -/
structure CopiesInHand (batch : Batch) (h : GuildHistory) : Prop where
  inHand : ∀ record ∈ batch.published, inHand record.key h = some record
  nodup : (batch.published.map (·.key)).Nodup
  published : ∀ key, key ∈ batch.seen ↔ key ∈ batch.published.map (·.key)

theorem CopiesInHand.first {batch : Batch} (hcopies : CopiesInHand batch h) {record : GuildRecord}
    (hseen : record.key ∉ batch.seen) (hrecorded : Recorded o record h h') :
    CopiesInHand ⟨record.key :: batch.seen, batch.published ++ [record]⟩ h' := by
  have hnew : record.key ∉ batch.published.map (·.key) :=
    fun hmem => hseen ((hcopies.published _).mpr hmem)
  constructor
  · intro copy hcopy
    rw [hrecorded.inHand]
    rcases List.mem_append.mp hcopy with hold | hlast
    · have hne : record.key ≠ copy.key := by
        intro heq
        exact hnew (heq ▸ List.mem_map_of_mem hold)
      rw [if_neg hne]
      exact hcopies.inHand copy hold
    · rw [List.mem_singleton.mp hlast, if_pos rfl]
  · rw [List.map_append, List.map_singleton]
    exact List.nodup_append'.mpr ⟨hcopies.nodup, List.nodup_singleton _, by simpa using hnew⟩
  · intro key
    rw [List.mem_cons, hcopies.published, List.map_append, List.mem_append, List.map_singleton,
      List.mem_singleton, or_comm]

theorem CopiesInHand.again {batch : Batch} (hcopies : CopiesInHand batch h) {old : GuildRecord}
    (hold : old ∈ batch.published) {now : Time}
    (hrecorded : Recorded o (again old now) h h') :
    CopiesInHand ⟨batch.seen, counted old.key now batch.published⟩ h' := by
  have hkeys := keys_counted old.key now batch.published
  constructor
  · intro copy hcopy
    obtain ⟨record, hrecord, rfl⟩ := List.mem_map.mp hcopy
    rw [hrecorded.inHand]
    have hstored := hcopies.inHand record hrecord
    have hagain : (FailureKnowledgeBase.again old now).key = old.key := rfl
    by_cases hkey : record.key = old.key
    · obtain rfl : record = old := by
        rw [hkey, hcopies.inHand old hold] at hstored
        exact (Option.some.inj hstored).symm
      rw [if_pos rfl]
      exact if_pos rfl
    · rw [if_neg hkey, hagain, if_neg (Ne.symm hkey)]
      exact hstored
  · rw [hkeys]
    exact hcopies.nodup
  · rw [hkeys]
    exact hcopies.published

theorem wp_publishContext_reported {batch : Batch} (hcopies : CopiesInHand batch h)
    {ctx : FailureContext} (hkey : (kb.fingerprintOf pub.capability ctx).toKey ∈ keys) :
    (kb.publishContext pub ctx batch).wp (publishing keys).logic
      (fun outcome _ h' => ∃ batch', outcome = .ok batch' ∧ CopiesInHand batch' h' ∧
        Reported .failure [(kb.fingerprintOf pub.capability ctx).toKey] h h') () h := by
  rw [publishContext]
  by_cases hseen : (kb.fingerprintOf pub.capability ctx).toKey ∈ batch.seen
  · obtain ⟨old, hmem, hold⟩ := List.mem_map.mp ((hcopies.published _).mp hseen)
    rw [if_pos hseen, wp_bind]
    rw [← hold] at hkey ⊢
    apply wp_mono (Monitor.logic_monotone _) _
      (wp_countAgain_recorded hmem hcopies.nodup hkey (hcopies.inHand old hmem))
    rintro _ _ h₁ ⟨now, rfl, hrecorded⟩
    exact ⟨_, rfl, hcopies.again hmem hrecorded, hrecorded.reported⟩
  · rw [if_neg hseen, wp_bind]
    refine wp_mono (Monitor.logic_monotone _) ?_ (wp_upsert_recorded (o := .failure) hkey
      (fun r now => ⟨rfl, oneMore_renewed kb pub r now⟩)
      fun createdAt updatedAt => ⟨rfl, oneMore_created kb pub _ createdAt updatedAt⟩)
    rintro _ _ h₁ ⟨record, rfl, hrecord, hrecorded⟩
    have hreported := hrecorded.reported
    rw [← hrecord] at hseen
    rw [hrecord] at hreported
    have hcopies' := hcopies.first hseen hrecorded
    rw [hrecord] at hcopies'
    exact ⟨_, rfl, hcopies', hreported⟩

theorem wp_publishContexts_reported {contexts : List FailureContext} {batch : Batch}
    (hcopies : CopiesInHand batch h)
    (hkeys : ∀ ctx ∈ contexts, (kb.fingerprintOf pub.capability ctx).toKey ∈ keys) :
    (kb.publishContexts pub contexts batch).wp (publishing keys).logic
      (fun outcome _ h' => ∃ batch', outcome = .ok batch' ∧
        Reported .failure
          (contexts.map fun ctx => (kb.fingerprintOf pub.capability ctx).toKey) h h') () h := by
  induction contexts generalizing batch h with
  | nil =>
      refine ⟨batch, rfl, ?_⟩
      intro o key
      rw [List.map_nil, List.count_nil, ite_self, Nat.add_zero]
  | cons ctx rest ih =>
      rw [List.forall_mem_cons] at hkeys
      rw [publishContexts, wp_bind]
      apply wp_mono (Monitor.logic_monotone _) _ (wp_publishContext_reported hcopies hkeys.1)
      rintro _ _ h₁ ⟨batch₁, rfl, hcopies₁, hfirst⟩
      apply wp_mono (Monitor.logic_monotone _) _ (ih hcopies₁ hkeys.2)
      rintro _ _ h₂ ⟨batch₂, rfl, hrest⟩
      exact ⟨batch₂, rfl, hfirst.trans hrest⟩

/-- A store with room enough is not trimmed. -/
theorem wp_enforceLimit_read (hroom : kb.RoomFor keys) :
    kb.enforceLimit.wp (publishing keys).logic
      (fun outcome _ h' => outcome = .ok () ∧ OnlyRead h h') () h := by
  unfold enforceLimit
  by_cases hnone : kb.config.maxRecords ≤ 0
  · rw [if_pos hnone]
    exact ⟨rfl, fun _ _ => rfl, fun _ => rfl⟩
  · rw [if_neg hnone, wp_bind]
    apply wp_read_all
    intro records h₁ hrecords hread
    have hfits : (records.length : Int) ≤ kb.config.maxRecords :=
      (Int.ofNat_le.mpr hrecords).trans (hroom.resolve_left hnone)
    dsimp only
    rw [if_pos hfits]
    exact ⟨rfl, hread⟩

theorem wp_publish_reported (henabled : kb.config.enabled = true) (hroom : kb.RoomFor keys)
    (hkeys : ∀ ctx ∈ pub.failureContexts, (kb.fingerprintOf pub.capability ctx).toKey ∈ keys) :
    (kb.publish pub).wp (publishing keys).logic
      (fun _ _ h' => Reported .failure (pub.failureContexts.map fun ctx =>
        (kb.fingerprintOf pub.capability ctx).toKey) h h') () h := by
  have hcopies : CopiesInHand ⟨[], []⟩ h :=
    ⟨List.forall_mem_nil _, List.nodup_nil, fun _ => Iff.rfl⟩
  rw [publish, if_pos henabled, wp_bind]
  apply wp_mono (Monitor.logic_monotone _) _ (wp_publishContexts_reported hcopies hkeys)
  rintro _ _ h₁ ⟨batch, rfl, hreported⟩
  dsimp only
  rw [wp_bind]
  apply wp_mono (Monitor.logic_monotone _) _ (wp_enforceLimit_read hroom)
  rintro _ _ h₂ ⟨rfl, hread⟩
  intro o key
  rw [hread.saves]
  exact hreported o key

theorem wp_publishSuccess_reported (henabled : kb.config.enabled = true) (hroom : kb.RoomFor keys)
    {report : SuccessReport} (hkeys : ∀ key ∈ kb.successKeys (.publishSuccess report), key ∈ keys) :
    (kb.publishSuccess report).wp (publishing keys).logic
      (fun _ _ h' => Reported .success (kb.successKeys (.publishSuccess report)) h h') () h := by
  rw [publishSuccess, if_pos henabled, wp_bind, wp_ofExcept]
  cases hfingerprint : kb.successFingerprint report with
  | error e =>
      intro o key
      simp only [successKeys, hfingerprint, List.count_nil, ite_self, Nat.add_zero]
  | ok fingerprint =>
      have hsuccess : kb.successKeys (.publishSuccess report) = [fingerprint.toKey] := by
        simp only [successKeys, hfingerprint]
      rw [hsuccess] at hkeys ⊢
      dsimp only
      rw [wp_bind]
      refine wp_mono (Monitor.logic_monotone _) ?_ (wp_upsert_recorded (o := .success)
        (hkeys _ (List.mem_singleton_self _))
        (fun r now => ⟨rfl, oneMore_renewedSuccess kb report r now⟩)
        fun createdAt updatedAt => ⟨rfl, oneMore_createdSuccess kb report _ createdAt updatedAt⟩)
      rintro _ _ h₁ ⟨record, rfl, hrecord, hrecorded⟩
      have hreported := hrecorded.reported
      rw [hrecord] at hreported
      dsimp only
      rw [wp_bind]
      apply wp_mono (Monitor.logic_monotone _) _ (wp_enforceLimit_read hroom)
      rintro _ _ h₂ ⟨rfl, hread⟩
      intro o key
      rw [hread.saves]
      exact hreported o key

/-- Each call reports each of its keys. -/
theorem wp_block_reported (henabled : kb.config.enabled = true) (hroom : kb.RoomFor keys)
    {call : KnowledgeCall} (hkeys : ∀ key ∈ kb.touchedKeys call, key ∈ keys) :
    (kb.block call).wp (publishing keys).logic
      (fun _ _ h' => ∀ o key, timesSaved o key h' = timesSaved o key h + (o.keys kb call).count key)
      () h := by
  have hdone {α β : Type} {m : GuildBlock α} (g : α → β) {post : GuildHistory → Prop}
      (hm : m.wp (publishing keys).logic (fun _ _ h' => post h') () h) :
      (do
        let value ← m
        return g value).wp (publishing keys).logic (fun _ _ h' => post h') () h := by
    rw [wp_bind]
    apply wp_mono (Monitor.logic_monotone _) _ hm
    intro outcome _ h' hpost
    cases outcome with
    | ok value => exact hpost
    | error e => exact hpost
  have hfailures (pub : Publication)
      (hpub : ∀ ctx ∈ pub.failureContexts, (kb.fingerprintOf pub.capability ctx).toKey ∈ keys) :
      (kb.publish pub).wp (publishing keys).logic
        (fun _ _ h' => ∀ o key, timesSaved o key h' = timesSaved o key h +
          (o.keys kb (.publish pub)).count key) () h := by
    apply wp_mono (Monitor.logic_monotone _) _ (wp_publish_reported henabled hroom hpub)
    intro outcome _ h' hreported o key
    cases o with
    | failure => exact hreported .failure key
    | success => exact hreported .success key
  cases call with
  | publish pub =>
      apply hdone _ (hfailures pub _)
      intro ctx hctx
      exact hkeys _ (List.mem_append_left _ (List.mem_map_of_mem hctx))
  | publishFailure capability failure role resolutionHint approachAdjustment =>
      have hsame (o : Occurrence) : o.keys kb (.publishFailure capability failure role
          resolutionHint approachAdjustment) = o.keys kb (.publish ⟨capability, [failure], role,
            resolutionHint, approachAdjustment, none⟩) := by
        cases o <;> rfl
      simp only [hsame]
      refine hdone _ (hdone _ (hfailures _ ?_))
      intro ctx hctx
      obtain rfl := List.mem_singleton.mp hctx
      exact hkeys _ List.mem_cons_self
  | publishSuccess report =>
      apply hdone
      apply wp_mono (Monitor.logic_monotone _) _ (wp_publishSuccess_reported henabled hroom hkeys)
      intro outcome _ h' hreported o key
      cases o with
      | failure => exact hreported .failure key
      | success => exact hreported .success key

/-- A thread makes its calls one after the other; an exception ends its call only. -/
def FailureKnowledgeBase.thread (kb : FailureKnowledgeBase) :
    List KnowledgeCall → Prog GuildCall GuildAnswer Unit
  | [] => .done ()
  | call :: rest => ((kb.block call).run ()).bind fun _ => kb.thread rest

theorem thread_reported (henabled : kb.config.enabled = true) (hroom : kb.RoomFor keys)
    {calls : List KnowledgeCall} (hkeys : ∀ key ∈ calls.flatMap kb.touchedKeys, key ∈ keys) :
    (kb.thread calls).wp (publishing keys).logic
      (fun _ h' => ∀ o key, timesSaved o key h' = timesSaved o key h +
        (calls.flatMap (o.keys kb)).count key) h := by
  induction calls generalizing h with
  | nil =>
      intro o key
      rfl
  | cons call rest ih =>
      simp only [List.flatMap_cons, List.mem_append] at hkeys
      rw [thread, Prog.wp_bind]
      have hcall := wp_block_reported (h := h) henabled hroom
        fun key hkey => hkeys key (.inl hkey)
      apply Prog.wp_mono (Monitor.logic_monotone _) _ hcall
      intro _ h₁ hfirst
      apply Prog.wp_mono (Monitor.logic_monotone _) _
        (ih fun key hkey => hkeys key (.inr hkey))
      intro _ h₂ hrest o key
      rw [hrest, hfirst, List.flatMap_cons, List.count_append, Nat.add_assoc]

end Calls

/-! ### Threads on one store -/

section Threads

variable {ι : Type} [Fintype ι]

/-- Threads that share a store in memory. -/
abbrev Threads (ι : Type) := Pool ι MemoryGuildStore GuildCall GuildAnswer Unit

/-- The threads of a batch, each about to make its calls, and an empty store. -/
def FailureKnowledgeBase.threads (kb : FailureKnowledgeBase) (calls : ι → List KnowledgeCall) :
    Threads ι :=
  .start (fun i => kb.thread (calls i)) .empty

/-- The store of the threads, and a clock. -/
abbrev sharedStore (clock : GuildHistory → Time) :
    Machine MemoryGuildStore GuildCall GuildAnswer :=
  MemoryGuildStore.operations.machine clock

/-- Every thread has made all its calls. -/
def Finished (threads : Threads ι) : Prop :=
  ∀ i, threads.program i = .done ()

/-- If the thread is about to save a record, the store still has the record that
the thread has in hand. -/
def SavesInHand (threads : Threads ι) (i : ι) : Prop :=
  ∀ record, threads.nextCall i = some (.save record) →
    threads.shared.state.records.lookup record.key = inHand record.key (threads.own i)

/-- How often the threads have saved an occurrence under the key. -/
def savesOf (threads : Threads ι) (o : Occurrence) (key : String) : Nat :=
  ∑ i, timesSaved o key (threads.own i)

/-- How often the threads have saved a record under the key. -/
def allSaves (threads : Threads ι) (key : String) : Nat :=
  savesOf threads .failure key + savesOf threads .success key

/-- What is found under a key has been counted as often as this. -/
def total (found : Option GuildRecord) : Int :=
  Occurrence.failure.count found + Occurrence.success.count found

/-- The store has counted every save of an occurrence. -/
def Exact (threads : Threads ι) : Prop :=
  ∀ (o : Occurrence) key,
    o.count (threads.shared.state.records.lookup key) = savesOf threads o key

/-- The store has counted every save. -/
def Lossless (threads : Threads ι) : Prop :=
  ∀ key, total (threads.shared.state.records.lookup key) = allSaves threads key

theorem Exact.lossless {threads : Threads ι} (hexact : Exact threads) : Lossless threads := by
  intro key
  rw [total, hexact, hexact, allSaves, Nat.cast_add]

/-- Nothing is counted twice: what a thread has in hand, and what is stored, has
not been counted more often than it was saved; and what was counted as often is
what is stored. -/
structure Accounted (keys : List String) (threads : Threads ι) : Prop where
  filed : Filed threads.shared.state.records
  known : ∀ item ∈ threads.shared.state.records, item.1 ∈ keys
  found : ∀ key, (threads.shared.state.records.lookup key).isSome ↔ 0 < allSaves threads key
  stored : ∀ key, total (threads.shared.state.records.lookup key) ≤ allSaves threads key
  hand : ∀ i key, total (inHand key (threads.own i)) ≤ allSaves threads key
  latest : ∀ i key, total (inHand key (threads.own i)) = allSaves threads key →
    threads.shared.state.records.lookup key = inHand key (threads.own i)

/-- What the monitor takes for granted is what the store answers. -/
theorem answers_of_accounted {threads : Threads ι} {clock : GuildHistory → Time}
    (haccounted : Accounted keys threads) (c : GuildCall) :
    (publishing keys).answers c ((sharedStore clock).step threads.shared c).1 := by
  cases c with
  | now => exact ⟨_, rfl⟩
  | get fingerprint =>
      refine ⟨_, rfl, ?_⟩
      intro record hrecord
      exact haccounted.filed.key_of_lookup hrecord
  | save record => rfl
  | list q =>
      refine ⟨_, rfl, ?_⟩
      rintro rfl
      have hsubset : Assoc.keys threads.shared.state.records ⊆ keys.dedup := by
        intro key hkey
        obtain ⟨item, hitem, rfl⟩ := List.mem_map.mp hkey
        exact List.mem_dedup.mpr (haccounted.known item hitem)
      have hlength := (haccounted.filed.nodup.subperm hsubset).length_le
      rw [MemoryGuildStore.list, filterGuildRecords_all, List.length_map]
      rwa [Assoc.keys, List.length_map] at hlength
  | delete fingerprint => trivial

variable [DecidableEq ι]

/-- A sum after a call of one thread. -/
theorem sum_update_add (f : GuildHistory → Nat) (own : ι → GuildHistory) (i : ι)
    {h : GuildHistory} {d : Nat} (hstep : f h = f (own i) + d) :
    ∑ j, f (Function.update own i h j) = ∑ j, f (own j) + d := by
  have hothers : ∀ j ∈ Finset.univ.erase i, f (Function.update own i h j) = f (own j) := by
    intro j hj
    rw [Function.update_of_ne (Finset.ne_of_mem_erase hj)]
  rw [← Finset.add_sum_erase _ _ (Finset.mem_univ i), Finset.sum_congr rfl hothers,
    Function.update_self, hstep, ← Finset.add_sum_erase _ _ (Finset.mem_univ i)]
  omega

section Step

variable {threads threads' : Threads ι} {clock : GuildHistory → Time} {i : ι}

theorem savesOf_step {e : Event GuildCall GuildAnswer}
    (hown : threads'.own = Function.update threads.own i (e :: threads.own i)) {key : String}
    {d : Nat}
    (hsaves : timesSaved o key (e :: threads.own i) = timesSaved o key (threads.own i) + d) :
    savesOf threads' o key = savesOf threads o key + d := by
  rw [savesOf, hown]
  exact sum_update_add (timesSaved o key) threads.own i hsaves

/-- A thread reads: what it has in hand stays, or is now what is stored. -/
theorem Accounted.read {e : Event GuildCall GuildAnswer} (haccounted : Accounted keys threads)
    (hown : threads'.own = Function.update threads.own i (e :: threads.own i))
    (hstate : threads'.shared.state = threads.shared.state)
    (hsaves : ∀ o key, timesSaved o key (e :: threads.own i) = timesSaved o key (threads.own i))
    (hhand : ∀ key, inHand key (e :: threads.own i) = inHand key (threads.own i) ∨
      inHand key (e :: threads.own i) = threads.shared.state.records.lookup key) :
    Accounted keys threads' ∧ ∀ o key, savesOf threads' o key = savesOf threads o key := by
  have hsame : ∀ o key, savesOf threads' o key = savesOf threads o key :=
    fun o key => savesOf_step hown (d := 0) (hsaves o key)
  have hall : ∀ key, allSaves threads' key = allSaves threads key := by
    intro key
    rw [allSaves, hsame, hsame, allSaves]
  refine ⟨?_, hsame⟩
  constructor
  · rw [hstate]
    exact haccounted.filed
  · rw [hstate]
    exact haccounted.known
  · simp only [hstate, hall]
    exact haccounted.found
  · simp only [hstate, hall]
    exact haccounted.stored
  · intro j key
    rw [hall, hown]
    by_cases hj : j = i
    · subst hj
      rw [Function.update_self]
      rcases hhand key with hold | hread
      · rw [hold]
        exact haccounted.hand j key
      · rw [hread]
        exact haccounted.stored key
    · rw [Function.update_of_ne hj]
      exact haccounted.hand j key
  · intro j key
    rw [hall, hown, hstate]
    by_cases hj : j = i
    · subst hj
      rw [Function.update_self]
      rcases hhand key with hold | hread
      · rw [hold]
        exact haccounted.latest j key
      · rw [hread]
        exact fun _ => rfl
    · rw [Function.update_of_ne hj]
      exact haccounted.latest j key

theorem total_oneMore {old : Option GuildRecord} {record : GuildRecord}
    (hmore : OneMore o old record) : total (some record) = total old + 1 := by
  have hfailure := hmore .failure
  have hsuccess := hmore .success
  rw [total, hfailure, hsuccess, total]
  cases o <;> simp <;> omega

theorem allSaves_saved {record : GuildRecord} {answer : GuildAnswer (.save record)}
    (hown : threads'.own = Function.update threads.own i (⟨.save record, answer⟩ :: threads.own i))
    (hmore : OneMore o (inHand record.key (threads.own i)) record) (key : String) :
    allSaves threads' key = allSaves threads key + if record.key = key then 1 else 0 := by
  rw [allSaves, savesOf_step hown (timesSaved_save hmore .failure key),
    savesOf_step hown (timesSaved_save hmore .success key), allSaves]
  by_cases hsame : record.key = key <;> cases o <;> simp [hsame] <;> omega

/-- A thread saves a record with one occurrence more than it had in hand. -/
theorem Accounted.saved {record : GuildRecord} {answer : GuildAnswer (.save record)}
    (haccounted : Accounted keys threads)
    (hown : threads'.own = Function.update threads.own i (⟨.save record, answer⟩ :: threads.own i))
    (hstate : threads'.shared.state = MemoryGuildStore.save record threads.shared.state)
    (hkey : record.key ∈ keys) (hmore : OneMore o (inHand record.key (threads.own i)) record) :
    Accounted keys threads' := by
  have hsaves := allSaves_saved hown hmore
  have hlookup : ∀ key, threads'.shared.state.records.lookup key =
      if record.key = key then some record else threads.shared.state.records.lookup key := by
    intro key
    rw [hstate, MemoryGuildStore.save, Assoc.lookup_insert]
    simp only [eq_comm]
  have hinHand : ∀ j key, inHand key (threads'.own j) =
      if j = i ∧ record.key = key then some record else inHand key (threads.own j) := by
    intro j key
    rw [hown]
    by_cases hj : j = i
    · subst hj
      rw [Function.update_self, inHand_save]
      simp only [true_and]
    · rw [Function.update_of_ne hj, if_neg fun hboth => hj hboth.1]
  have htotal := total_oneMore hmore
  have hhand := haccounted.hand i record.key
  constructor
  · rw [hstate]
    exact haccounted.filed.insert record
  · rw [hstate]
    intro item hitem
    rcases Assoc.mem_insert hitem with hold | rfl
    · exact haccounted.known item hold
    · exact hkey
  · intro key
    rw [hlookup, hsaves]
    by_cases hsame : record.key = key
    · rw [if_pos hsame, if_pos hsame]
      simp
    · rw [if_neg hsame, if_neg hsame]
      exact haccounted.found key
  · intro key
    rw [hlookup, hsaves]
    by_cases hsame : record.key = key
    · subst hsame
      rw [if_pos rfl, if_pos rfl]
      omega
    · rw [if_neg hsame, if_neg hsame]
      exact haccounted.stored key
  · intro j key
    rw [hinHand, hsaves]
    have hold := haccounted.hand j key
    by_cases hsame : record.key = key
    · subst hsame
      by_cases hj : j = i
      · rw [if_pos ⟨hj, rfl⟩, if_pos rfl]
        omega
      · rw [if_neg fun hboth => hj hboth.1, if_pos rfl]
        omega
    · rw [if_neg fun hboth => hsame hboth.2, if_neg hsame]
      exact hold
  · intro j key
    rw [hinHand, hsaves, hlookup]
    by_cases hsame : record.key = key
    · subst hsame
      by_cases hj : j = i
      · rw [if_pos ⟨hj, rfl⟩, if_pos rfl, if_pos rfl]
        exact fun _ => rfl
      · -- another thread cannot have in hand what has only just been saved
        have hold := haccounted.hand j record.key
        rw [if_neg fun hboth => hj hboth.1, if_pos rfl]
        intro hlatest
        omega
    · rw [if_neg fun hboth => hsame hboth.2, if_neg hsame, if_neg hsame]
      exact haccounted.latest j key

/-- What a step of thread `i` can do. -/
inductive ThreadStep (keys : List String) (threads : Threads ι) (i : ι) (threads' : Threads ι) :
    Prop
  | idle (hnext : ∀ record, threads.nextCall i ≠ some (.save record))
      (hsame : threads' = threads)
  | read (hnext : ∀ record, threads.nextCall i ≠ some (.save record))
      (e : Event GuildCall GuildAnswer)
      (hown : threads'.own = Function.update threads.own i (e :: threads.own i))
      (hstate : threads'.shared.state = threads.shared.state)
      (hsaves : ∀ o key, timesSaved o key (e :: threads.own i) = timesSaved o key (threads.own i))
      (hhand : ∀ key, inHand key (e :: threads.own i) = inHand key (threads.own i) ∨
        inHand key (e :: threads.own i) = threads.shared.state.records.lookup key)
  | saved (record : GuildRecord) (hnext : threads.nextCall i = some (.save record))
      (answer : GuildAnswer (.save record)) (o : Occurrence)
      (hown : threads'.own =
        Function.update threads.own i (⟨.save record, answer⟩ :: threads.own i))
      (hstate : threads'.shared.state = MemoryGuildStore.save record threads.shared.state)
      (hkey : record.key ∈ keys) (hmore : OneMore o (inHand record.key (threads.own i)) record)

omit [Fintype ι] in
theorem threadStep {post : ι → Unit → GuildHistory → Prop} (clock : GuildHistory → Time)
    (hpromised : threads.Promised (publishing keys) post) (i : ι) :
    ThreadStep keys threads i (threads.step (sharedStore clock) i) := by
  cases hprogram : threads.program i with
  | done value =>
      have hidle : threads.step (sharedStore clock) i = threads := by simp [Pool.step, hprogram]
      exact .idle (by simp [Pool.nextCall, hprogram]) hidle
  | outOfFuel =>
      have hidle : threads.step (sharedStore clock) i = threads := by simp [Pool.step, hprogram]
      exact .idle (by simp [Pool.nextCall, hprogram]) hidle
  | call c next =>
      have hallows := hpromised.allows hprogram
      rw [view_publishing] at hallows
      have hown : (threads.step (sharedStore clock) i).own = Function.update threads.own i
          (⟨c, ((sharedStore clock).step threads.shared c).1⟩ :: threads.own i) := by
        simp [Pool.step, hprogram]
      have hstate : (threads.step (sharedStore clock) i).shared.state =
          ((sharedStore clock).step threads.shared c).2.state := by
        simp [Pool.step, hprogram]
      have hnext : threads.nextCall i = some c := by simp [Pool.nextCall, hprogram]
      cases c with
      | save record =>
          obtain ⟨hkey, o, hmore⟩ := hallows
          exact .saved record hnext _ o hown hstate hkey hmore
      | delete fingerprint => exact hallows.elim
      | get fingerprint =>
          apply ThreadStep.read _ _ hown hstate (fun _ _ => rfl)
          · intro key
            by_cases hkey : fingerprint.toKey = key
            · right
              subst hkey
              exact if_pos rfl
            · left
              exact if_neg hkey
          · rw [hnext]
            simp
      | now | list q =>
          apply ThreadStep.read _ _ hown hstate (fun _ _ => rfl)
          · exact fun key => .inl rfl
          · rw [hnext]
            simp

theorem ThreadStep.accounted (hstep : ThreadStep keys threads i threads')
    (haccounted : Accounted keys threads) : Accounted keys threads' := by
  cases hstep with
  | idle _ hsame =>
      rw [hsame]
      exact haccounted
  | read _ e hown hstate hsaves hhand => exact (haccounted.read hown hstate hsaves hhand).1
  | saved record _ answer o hown hstate hkey hmore =>
      exact haccounted.saved hown hstate hkey hmore

/-- A save of what is in hand and stored counts. -/
theorem ThreadStep.exact (hstep : ThreadStep keys threads i threads')
    (haccounted : Accounted keys threads) (hexact : Exact threads)
    (hguard : SavesInHand threads i) : Exact threads' := by
  cases hstep with
  | idle _ hsame =>
      rw [hsame]
      exact hexact
  | read _ e hown hstate hsaves hhand =>
      intro o key
      rw [(haccounted.read hown hstate hsaves hhand).2, hstate]
      exact hexact o key
  | saved record hnext answer o hown hstate hkey hmore =>
      intro o' key
      rw [savesOf_step hown (timesSaved_save hmore o' key), hstate, MemoryGuildStore.save,
        Assoc.lookup_insert]
      by_cases hsame : record.key = key
      · subst hsame
        rw [if_pos rfl, hmore o', ← hguard record hnext, hexact]
        by_cases ho : o' = o <;> simp [ho]
      · rw [if_neg (Ne.symm hsame), if_neg fun hboth => hsame hboth.2]
        exact hexact o' key

/-- A save that was lost is never made up for. -/
theorem ThreadStep.lossless (hstep : ThreadStep keys threads i threads')
    (haccounted : Accounted keys threads) (hlossless : Lossless threads') :
    Lossless threads ∧ SavesInHand threads i := by
  cases hstep with
  | idle hnext hsame =>
      rw [hsame] at hlossless
      exact ⟨hlossless, fun record hsave => absurd hsave (hnext record)⟩
  | read hnext e hown hstate hsaves hhand =>
      refine ⟨?_, fun record hsave => absurd hsave (hnext record)⟩
      intro key
      have hsame := (haccounted.read hown hstate hsaves hhand).2
      have hkey := hlossless key
      rw [allSaves, hsame, hsame, hstate] at hkey
      exact hkey
  | saved record hnext answer o hown hstate hkey hmore =>
      have hlookup (key : String) : threads'.shared.state.records.lookup key =
          if key = record.key then some record
          else threads.shared.state.records.lookup key := by
        rw [hstate, MemoryGuildStore.save, Assoc.lookup_insert]
      have hsaves := allSaves_saved hown hmore
      -- the save counts only if the thread had in hand all that was counted
      have hlatest : threads.shared.state.records.lookup record.key =
          inHand record.key (threads.own i) := by
        apply haccounted.latest
        have hcounted := hlossless record.key
        rw [hlookup, if_pos rfl, hsaves, if_pos rfl, total_oneMore hmore] at hcounted
        omega
      constructor
      · intro key
        have hcounted := hlossless key
        rw [hlookup, hsaves] at hcounted
        by_cases hsame : record.key = key
        · subst hsame
          rw [if_pos rfl, if_pos rfl, total_oneMore hmore] at hcounted
          rw [hlatest]
          omega
        · rw [if_neg (Ne.symm hsame), if_neg hsame] at hcounted
          exact hcounted
      · intro record' hsave
        rw [hnext] at hsave
        cases hsave
        exact hlatest

/-- A step of thread `i` keeps the promises of the threads. -/
theorem promised_step {post : ι → Unit → GuildHistory → Prop}
    (hpromised : threads.Promised (publishing keys) post) (haccounted : Accounted keys threads) :
    (threads.step (sharedStore clock) i).Promised (publishing keys) post := by
  rcases threads.step_cases (M := sharedStore clock) i with hidle | ⟨c, next, hprogram, -, hstep⟩
  · rw [hidle]
    exact hpromised
  · rw [hstep]
    exact hpromised.call hprogram (answers_of_accounted haccounted c) _

end Step

section Run

variable {threads : Threads ι} {clock : GuildHistory → Time} {schedule : List ι}
variable {post : ι → Unit → GuildHistory → Prop}

theorem run_accounted (clock : GuildHistory → Time) (schedule : List ι)
    (hpromised : threads.Promised (publishing keys) post) (haccounted : Accounted keys threads) :
    (threads.run (sharedStore clock) schedule).Promised (publishing keys) post ∧
      Accounted keys (threads.run (sharedStore clock) schedule) := by
  induction schedule generalizing threads with
  | nil => exact ⟨hpromised, haccounted⟩
  | cons i schedule ih =>
      exact ih (promised_step hpromised haccounted)
        ((threadStep clock hpromised i).accounted haccounted)

theorem lossless_of_run (hpromised : threads.Promised (publishing keys) post)
    (haccounted : Accounted keys threads)
    (hlossless : Lossless (threads.run (sharedStore clock) schedule)) :
    Lossless threads ∧ threads.Guarded (sharedStore clock) SavesInHand schedule := by
  induction schedule generalizing threads with
  | nil => exact ⟨hlossless, trivial⟩
  | cons i schedule ih =>
      have hstep := threadStep clock hpromised i
      obtain ⟨hnext, hguarded⟩ := ih (promised_step hpromised haccounted)
        (hstep.accounted haccounted) hlossless
      obtain ⟨hfirst, hguard⟩ := hstep.lossless haccounted hnext
      exact ⟨hfirst, hguard, hguarded⟩

/-- Every save has been counted exactly if each was a save of what was in hand. -/
theorem run_exact_iff (hpromised : threads.Promised (publishing keys) post)
    (haccounted : Accounted keys threads) (hexact : Exact threads) :
    Exact (threads.run (sharedStore clock) schedule) ↔
      threads.Guarded (sharedStore clock) SavesInHand schedule := by
  constructor
  · intro hrun
    exact (lossless_of_run hpromised haccounted hrun.lossless).2
  · intro hguarded
    induction schedule generalizing threads with
    | nil => exact hexact
    | cons i schedule ih =>
        have hstep := threadStep clock hpromised i
        exact ih (promised_step hpromised haccounted) (hstep.accounted haccounted)
          (hstep.exact haccounted hexact hguarded.1) hguarded.2

end Run

end Threads

/-! ### A batch of threads -/

section Batch

variable {n : Nat} {kb : FailureKnowledgeBase} {calls : Fin n → List KnowledgeCall}

theorem count_flatten (f : KnowledgeCall → List String) (calls : Fin n → List KnowledgeCall)
    (key : String) :
    ((List.ofFn calls).flatten.flatMap f).count key = ∑ i, ((calls i).flatMap f).count key := by
  rw [List.flatten_eq_flatMap, List.flatMap_assoc, List.count_flatMap, List.map_ofFn,
    List.sum_ofFn]
  rfl

theorem savesOf_start (kb : FailureKnowledgeBase) (calls : Fin n → List KnowledgeCall)
    (o : Occurrence) (key : String) : savesOf (kb.threads calls) o key = 0 :=
  Finset.sum_eq_zero fun _ _ => rfl

theorem start_accounted (kb : FailureKnowledgeBase) (calls : Fin n → List KnowledgeCall) :
    Accounted keys (kb.threads calls) := by
  have hall (key : String) : allSaves (kb.threads calls) key = 0 := by
    rw [allSaves, savesOf_start, savesOf_start]
  constructor
  · exact .nil
  · exact List.forall_mem_nil _
  · intro key
    rw [hall]
    exact iff_of_false Bool.false_ne_true (Nat.lt_irrefl 0)
  · intro key
    rw [hall]
    exact le_refl 0
  · intro i key
    rw [hall]
    exact le_refl 0
  · intro i key _
    rfl

theorem start_exact (kb : FailureKnowledgeBase) (calls : Fin n → List KnowledgeCall) :
    Exact (kb.threads calls) := by
  intro o key
  rw [savesOf_start]
  cases o <;> rfl

/-- What the threads promise: to save each occurrence of their calls. -/
theorem start_promised (henabled : kb.config.enabled = true)
    (hroom : kb.RoomFor ((List.ofFn calls).flatten.flatMap kb.touchedKeys)) :
    (kb.threads calls).Promised
      (publishing ((List.ofFn calls).flatten.flatMap kb.touchedKeys))
      fun i _ h => ∀ o key, timesSaved o key h = ((calls i).flatMap (o.keys kb)).count key := by
  intro i
  have hkeys : ∀ key ∈ (calls i).flatMap kb.touchedKeys,
      key ∈ (List.ofFn calls).flatten.flatMap kb.touchedKeys := by
    intro key hkey
    obtain ⟨call, hcall, htouched⟩ := List.mem_flatMap.mp hkey
    apply List.mem_flatMap.mpr
    exact ⟨call, List.mem_flatten.mpr ⟨calls i, List.mem_ofFn.mpr ⟨i, rfl⟩, hcall⟩, htouched⟩
  apply Prog.wp_mono (Monitor.logic_monotone _) _ (thread_reported henabled hroom hkeys)
  intro _ h hsaves o key
  rw [hsaves]
  exact Nat.zero_add _

/-- Threads that have made all their calls have saved each occurrence. -/
theorem savesOf_finished {threads : Threads (Fin n)}
    (hpromised : threads.Promised (publishing keys)
      fun i _ h => ∀ o key, timesSaved o key h = ((calls i).flatMap (o.keys kb)).count key)
    (hfinished : Finished threads) (o : Occurrence) (key : String) :
    savesOf threads o key = ((List.ofFn calls).flatten.flatMap (o.keys kb)).count key := by
  rw [count_flatten]
  apply Finset.sum_congr rfl
  intro i _
  have hdone := hpromised i
  rw [hfinished i, view_publishing] at hdone
  exact hdone o key

/-- The counts are those of the calls exactly if every save has been counted. -/
theorem conserves_iff_exact {threads : Threads (Fin n)} (haccounted : Accounted keys threads)
    (hsaves : ∀ (o : Occurrence) key, savesOf threads o key =
      ((List.ofFn calls).flatten.flatMap (o.keys kb)).count key) :
    kb.Conserves MemoryGuildStore.operations (List.ofFn calls).flatten threads.shared.state ↔
      Exact threads := by
  have hfailures (key : String) : savesOf threads .failure key =
      kb.failures (List.ofFn calls).flatten key := hsaves .failure key
  have hsuccesses (key : String) : savesOf threads .success key =
      kb.successes (List.ofFn calls).flatten key := hsaves .success key
  constructor
  · intro hconserves o key
    have hfound := haccounted.found key
    cases hlookup : threads.shared.state.records.lookup key with
    | none =>
        rw [hlookup, allSaves] at hfound
        have hnone : ¬ 0 < savesOf threads .failure key + savesOf threads .success key :=
          fun hsome => Bool.false_ne_true (hfound.mpr hsome)
        cases o with
        | failure => exact (Int.natCast_eq_zero.mpr (by omega)).symm
        | success => exact (Int.natCast_eq_zero.mpr (by omega)).symm
    | some record =>
        obtain ⟨found, hget, hcounted⟩ := hconserves record.fingerprint
        have hkey : record.fingerprint.toKey = key := haccounted.filed.key_of_lookup hlookup
        rw [hkey] at hcounted
        have hrecord : found = some record := by
          rw [← hlookup, ← hkey]
          exact (Except.ok.inj hget).symm
        rw [hrecord] at hcounted
        obtain ⟨-, hfailure, hsuccess⟩ := hcounted
        cases o with
        | failure =>
            rw [hfailures]
            exact hfailure
        | success =>
            rw [hsuccesses]
            exact hsuccess
  · intro hexact fingerprint
    refine ⟨threads.shared.state.records.lookup fingerprint.toKey, rfl, ?_⟩
    have hfound := haccounted.found fingerprint.toKey
    have hfailure := hexact .failure fingerprint.toKey
    have hsuccess := hexact .success fingerprint.toKey
    rw [allSaves, hfailures, hsuccesses] at hfound
    rw [hfailures] at hfailure
    rw [hsuccesses] at hsuccess
    cases hlookup : threads.shared.state.records.lookup fingerprint.toKey with
    | none =>
        rw [hlookup] at hfailure hsuccess
        exact ⟨(Int.natCast_eq_zero.mp hfailure.symm), Int.natCast_eq_zero.mp hsuccess.symm⟩
    | some record =>
        rw [hlookup] at hfailure hsuccess hfound
        exact ⟨hfound.mp rfl, hfailure, hsuccess⟩

/-- No count is lost exactly as long as nobody saves over what another thread has
saved.  When the threads of a batch have made all their calls, the record of
every fingerprint has the number of its failures and successes over all threads
if and only if every save replaced what its thread had in hand. -/
theorem parallel_counts_iff (kb : FailureKnowledgeBase) (clock : GuildHistory → Time) {n : Nat}
    (calls : Fin n → List KnowledgeCall) (schedule : List (Fin n))
    (henabled : kb.config.enabled = true)
    (hroom : kb.RoomFor ((List.ofFn calls).flatten.flatMap kb.touchedKeys))
    (hfinished : Finished ((kb.threads calls).run (sharedStore clock) schedule)) :
    kb.Conserves MemoryGuildStore.operations (List.ofFn calls).flatten
        ((kb.threads calls).run (sharedStore clock) schedule).shared.state ↔
      (kb.threads calls).Guarded (sharedStore clock) SavesInHand schedule := by
  have hpromised := start_promised henabled hroom
  obtain ⟨hpromised', haccounted⟩ :=
    run_accounted clock schedule hpromised (start_accounted kb calls)
  rw [conserves_iff_exact haccounted (savesOf_finished hpromised' hfinished)]
  exact run_exact_iff hpromised (start_accounted kb calls) (start_exact kb calls)

end Batch

/-- Two threads whose echo has failed. -/
def twoEchoes : Fin 2 → List KnowledgeCall :=
  fun _ => [.publishFailure "echo" echoFailure none none none]

/-- What the two threads leave behind. -/
def echoed (schedule : List (Fin 2)) : Threads (Fin 2) :=
  (FailureKnowledgeBase.demo.threads twoEchoes).run (sharedStore List.length) schedule

/-- One thread after the other. -/
def echoInTurn : List (Fin 2) := [0, 0, 0, 0, 0, 1, 1, 1, 1]

/-- Both threads look for the record before either of them saves it. -/
def echoRace : List (Fin 2) := [0, 1, 0, 0, 0, 1, 1, 1, 0, 1]

theorem twoEchoes_room : FailureKnowledgeBase.demo.RoomFor
    ((List.ofFn twoEchoes).flatten.flatMap FailureKnowledgeBase.demo.touchedKeys) := by
  decide +kernel

theorem parallel_counts_echoInTurn :
    FailureKnowledgeBase.demo.Conserves MemoryGuildStore.operations (List.ofFn twoEchoes).flatten
      (echoed echoInTurn).shared.state := by
  apply (parallel_counts_iff FailureKnowledgeBase.demo List.length twoEchoes echoInTurn rfl
    twoEchoes_room _).mpr
  · refine ⟨?_, ?_, ?_, ?_, ?_, ?_, ?_, ?_, ?_, trivial⟩
    all_goals
      intro record hnext
      cases hnext <;> rfl
  · exact Fin.forall_fin_two.mpr ⟨rfl, rfl⟩

theorem echoRace_not_conserved :
    FailureKnowledgeBase.demo.config.enabled = true ∧
      FailureKnowledgeBase.demo.RoomFor
        ((List.ofFn twoEchoes).flatten.flatMap FailureKnowledgeBase.demo.touchedKeys) ∧
      Finished (echoed echoRace) ∧
      ¬ FailureKnowledgeBase.demo.Conserves MemoryGuildStore.operations
        (List.ofFn twoEchoes).flatten (echoed echoRace).shared.state := by
  refine ⟨rfl, twoEchoes_room, ?_, ?_⟩
  · intro i
    revert i
    exact Fin.forall_fin_two.mpr ⟨rfl, rfl⟩
  · intro hconserves
    obtain ⟨found, hget, hcounted⟩ :=
      hconserves (FailureKnowledgeBase.demo.fingerprintOf "echo" echoFailure)
    have hfound := Except.ok.inj hget
    rw [← hfound] at hcounted
    exact absurd hcounted (by decide +kernel)

end Conductor
