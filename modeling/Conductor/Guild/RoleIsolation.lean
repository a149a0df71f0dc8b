/-
What one role publishes and what the other roles then find.  A record is filed
under the key of its fingerprint, whoever published it, and belongs to the role
that published it last.
-/
import Mathlib.Data.List.Flatten
import Mathlib.Data.List.Induction
import Conductor.Guild.Counts

namespace Conductor

open Json

/-- The role that a call is made with. -/
def KnowledgeCall.role : KnowledgeCall → Option String
  | .publish pub => pub.role
  | .publishFailure _ _ role _ _ => role
  | .publishSuccess report => report.role

namespace FailureKnowledgeBase

variable {kb : FailureKnowledgeBase} {f : Dict → Dict} {key : String}

theorem contexts_of_not_mem {pub : Publication} {contexts : List FailureContext} {slot : Slot}
    (hkey : key ∉ contexts.map fun ctx => (kb.fingerprintOf pub.capability ctx).toKey) :
    contexts.foldl (kb.contextEffect f pub key) slot = slot := by
  induction contexts with
  | nil => rfl
  | cons ctx rest ih =>
      rw [List.map_cons, List.mem_cons, not_or] at hkey
      rw [List.foldl_cons, contextEffect_of_ne (Ne.symm hkey.1)]
      exact ih hkey.2

theorem publishEffect_of_not_mem {pub : Publication}
    (hkey : key ∉ pub.failureContexts.map fun ctx => (kb.fingerprintOf pub.capability ctx).toKey)
    (old : Option GuildRecord) : kb.publishEffect f pub key old = old := by
  rw [publishEffect, contexts_of_not_mem hkey]

/-- A call leaves the keys alone that it does not touch. -/
theorem callEffect_of_not_mem {call : KnowledgeCall} (hkey : key ∉ kb.touchedKeys call)
    (old : Option GuildRecord) : kb.callEffect f call key old = old := by
  rw [touchedKeys, List.mem_append, not_or] at hkey
  cases call with
  | publish pub => exact publishEffect_of_not_mem hkey.1 old
  | publishFailure capability failure role resolutionHint approachAdjustment =>
      exact publishEffect_of_not_mem hkey.1 old
  | publishSuccess report =>
      cases hfingerprint : kb.successFingerprint report with
      | error e => exact successEffect_error hfingerprint key old
      | ok fingerprint =>
          have hkeys : kb.successKeys (.publishSuccess report) = [fingerprint.toKey] := by
            simp only [successKeys, hfingerprint]
          rw [hkeys, List.mem_singleton] at hkey
          rw [callEffect, successEffect_ok hfingerprint, if_neg (Ne.symm hkey.2)]

/-- What is filed under a key has the key. -/
def FiledUnder (key : String) (found : Option GuildRecord) : Prop :=
  ∀ record, found = some record → record.key = key

/-- A record is there; it has the key, and this role. -/
def Labelled (key : String) (role : Option String) (found : Option GuildRecord) : Prop :=
  ∃ record, found = some record ∧ record.key = key ∧ record.role = role

theorem Labelled.filedUnder {role : Option String} {found : Option GuildRecord}
    (hlabelled : Labelled key role found) : FiledUnder key found := by
  obtain ⟨record, rfl, hkey, -⟩ := hlabelled
  intro record' hrecord'
  cases hrecord'
  exact hkey

/-- The role of a call takes the place of the old one. -/
theorem labelled_upserted {update : GuildRecord → Time → GuildRecord}
    {create : Time → Time → GuildRecord} {role : Option String} (hrole : role.isSome)
    (hupdate : ∀ r now, (update r now).key = r.key ∧ (update r now).role = role.or r.role)
    (hcreate : (create 0 0).key = key ∧ (create 0 0).role = role) {old : Option GuildRecord}
    (hold : FiledUnder key old) : Labelled key role (some (upserted f update create old)) := by
  cases old with
  | none => exact ⟨_, rfl, hcreate⟩
  | some existing =>
      obtain ⟨hkey, hnew⟩ := hupdate (existing.mapDicts f) 0
      obtain ⟨name, rfl⟩ := Option.isSome_iff_exists.mp hrole
      exact ⟨_, rfl, hkey.trans (hold existing rfl), hnew⟩

theorem labelled_failure {pub : Publication} (hrole : pub.role.isSome)
    {fingerprint : FailureFingerprint} (hkey : fingerprint.toKey = key) {old : Option GuildRecord}
    (hold : FiledUnder key old) :
    Labelled key pub.role
      (some (upserted f (kb.renewed pub) (kb.created pub fingerprint) old)) := by
  have hupdate : ∀ r now, (kb.renewed pub r now).key = r.key ∧
      (kb.renewed pub r now).role = pub.role.or r.role := fun _ _ => ⟨rfl, rfl⟩
  have hcreate : (kb.created pub fingerprint 0 0).key = key ∧
      (kb.created pub fingerprint 0 0).role = pub.role := ⟨hkey, rfl⟩
  exact labelled_upserted hrole hupdate hcreate hold

theorem labelled_success {report : SuccessReport} (hrole : report.role.isSome)
    {fingerprint : FailureFingerprint} (hkey : fingerprint.toKey = key) {old : Option GuildRecord}
    (hold : FiledUnder key old) :
    Labelled key report.role
      (some
        (upserted f (kb.renewedSuccess report) (kb.createdSuccess report fingerprint) old)) := by
  have hupdate : ∀ r now, (kb.renewedSuccess report r now).key = r.key ∧
      (kb.renewedSuccess report r now).role = report.role.or r.role := fun _ _ => ⟨rfl, rfl⟩
  have hcreate : (kb.createdSuccess report fingerprint 0 0).key = key ∧
      (kb.createdSuccess report fingerprint 0 0).role = report.role := ⟨hkey, rfl⟩
  exact labelled_upserted hrole hupdate hcreate hold

theorem labelled_contexts {pub : Publication} (hrole : pub.role.isSome)
    {contexts : List FailureContext} {slot : Slot} (hfiled : FiledUnder key slot.record)
    (hseen : slot.seen = true → Labelled key pub.role slot.record)
    (hkey : slot.seen = true ∨
      key ∈ contexts.map fun ctx => (kb.fingerprintOf pub.capability ctx).toKey) :
    Labelled key pub.role (contexts.foldl (kb.contextEffect f pub key) slot).record := by
  induction contexts generalizing slot with
  | nil =>
      rcases hkey with hslot | hmem
      · exact hseen hslot
      · cases hmem
  | cons ctx rest ih =>
      rw [List.foldl_cons]
      by_cases hctx : (kb.fingerprintOf pub.capability ctx).toKey = key
      · have hlabelled : Labelled key pub.role (kb.contextEffect f pub key slot ctx).record ∧
            (kb.contextEffect f pub key slot ctx).seen = true := by
          cases hfirst : slot.seen with
          | false =>
              rw [contextEffect_first hctx hfirst]
              exact ⟨labelled_failure hrole hctx hfiled, rfl⟩
          | true =>
              rw [contextEffect_again hctx hfirst]
              obtain ⟨record, hrecord, hrest⟩ := hseen hfirst
              exact ⟨⟨again record 0, by rw [hrecord]; rfl, hrest⟩, hfirst⟩
        exact ih hlabelled.1.filedUnder (fun _ => hlabelled.1) (.inl hlabelled.2)
      · rw [contextEffect_of_ne hctx]
        refine ih hfiled hseen (hkey.imp_right fun hmem => ?_)
        exact (List.mem_cons.mp hmem).resolve_left (Ne.symm hctx)

theorem labelled_publish {pub : Publication} (hrole : pub.role.isSome)
    (hkey : key ∈ pub.failureContexts.map fun ctx => (kb.fingerprintOf pub.capability ctx).toKey)
    {old : Option GuildRecord} (hold : FiledUnder key old) :
    Labelled key pub.role (kb.publishEffect f pub key old) :=
  labelled_contexts hrole hold (fun hseen => by cases hseen) (.inr hkey)

/-- A call with a role labels the records it touches. -/
theorem labelled_call {call : KnowledgeCall} (hrole : call.role.isSome)
    (hkey : key ∈ kb.touchedKeys call) {old : Option GuildRecord} (hold : FiledUnder key old) :
    Labelled key call.role (kb.callEffect f call key old) := by
  rw [touchedKeys, List.mem_append] at hkey
  cases call with
  | publish pub => exact labelled_publish hrole (hkey.resolve_right List.not_mem_nil) hold
  | publishFailure capability failure role resolutionHint approachAdjustment =>
      have hpub : (KnowledgeCall.publish ⟨capability, [failure], role, resolutionHint,
          approachAdjustment, none⟩).role.isSome := hrole
      exact labelled_publish hpub (hkey.resolve_right List.not_mem_nil) hold
  | publishSuccess report =>
      replace hkey := hkey.resolve_left List.not_mem_nil
      cases hfingerprint : kb.successFingerprint report with
      | error e => simp [successKeys, hfingerprint] at hkey
      | ok fingerprint =>
          have hkeys : kb.successKeys (.publishSuccess report) = [fingerprint.toKey] := by
            simp only [successKeys, hfingerprint]
          rw [hkeys, List.mem_singleton] at hkey
          rw [callEffect, successEffect_ok hfingerprint, if_pos hkey.symm]
          exact labelled_success hrole hkey.symm hold

/-- The key is touched by one of the calls. -/
def Touched (kb : FailureKnowledgeBase) (calls : List KnowledgeCall) (key : String) : Prop :=
  ∃ call ∈ calls, key ∈ kb.touchedKeys call

/-- What stands under a key after the calls is labelled by one that touched it,
or nothing stands there and none did. -/
theorem ledger_cases {calls : List KnowledgeCall} (hroles : ∀ call ∈ calls, call.role.isSome)
    (key : String) :
    (kb.ledger f calls key = none ∧ ¬ kb.Touched calls key) ∨
      ∃ call ∈ calls, key ∈ kb.touchedKeys call ∧
        Labelled key call.role (kb.ledger f calls key) := by
  induction calls using List.reverseRecOn with
  | nil =>
      refine .inl ⟨rfl, ?_⟩
      intro htouched
      obtain ⟨call, hcall, -⟩ := htouched
      cases hcall
  | append_singleton calls call ih =>
      rw [List.forall_mem_append] at hroles
      have hledger : kb.ledger f (calls ++ [call]) key =
          kb.callEffect f call key (kb.ledger f calls key) := by
        rw [ledger, List.foldl_append]
        rfl
      have hcall : call ∈ calls ++ [call] := List.mem_append_right _ (List.mem_singleton_self _)
      rw [hledger]
      by_cases hkey : key ∈ kb.touchedKeys call
      · refine .inr ⟨call, hcall, hkey, labelled_call (hroles.2 call (by simp)) hkey ?_⟩
        rcases ih hroles.1 with ⟨hnone, -⟩ | ⟨last, -, -, hlabelled⟩
        · intro record hrecord
          rw [hnone] at hrecord
          cases hrecord
        · exact hlabelled.filedUnder
      · rw [callEffect_of_not_mem hkey]
        rcases ih hroles.1 with ⟨hnone, huntouched⟩ | ⟨last, hlast, hrest⟩
        · refine .inl ⟨hnone, ?_⟩
          intro htouched
          obtain ⟨toucher, htoucher, hmem⟩ := htouched
          rcases List.mem_append.mp htoucher with hbefore | hnow
          · exact huntouched ⟨toucher, hbefore, hmem⟩
          · rw [List.mem_singleton.mp hnow] at hmem
            exact hkey hmem
        · exact .inr ⟨last, List.mem_append_left _ hlast, hrest⟩

/-- The calls that do not touch a key may be left out. -/
theorem ledger_filter {calls : List KnowledgeCall} {keep : KnowledgeCall → Bool}
    (hkeep : ∀ call ∈ calls, key ∈ kb.touchedKeys call → keep call = true) :
    kb.ledger f (calls.filter keep) key = kb.ledger f calls key := by
  unfold ledger
  suffices hfold : ∀ old,
      (calls.filter keep).foldl (fun old call => kb.callEffect f call key old) old =
      calls.foldl (fun old call => kb.callEffect f call key old) old from hfold none
  induction calls with
  | nil => exact fun old => rfl
  | cons call rest ih =>
      intro old
      rw [List.forall_mem_cons] at hkeep
      by_cases hcall : keep call = true
      · rw [List.filter_cons_of_pos hcall, List.foldl_cons, List.foldl_cons]
        exact ih hkeep.2 _
      · have hkey : key ∉ kb.touchedKeys call := fun hmem => hcall (hkeep.1 hmem)
        rw [List.filter_cons_of_neg hcall, List.foldl_cons, callEffect_of_not_mem hkey]
        exact ih hkeep.2 old

/-- The calls made with a role. -/
def callsOf (role : String) (calls : List KnowledgeCall) : List KnowledgeCall :=
  calls.filter fun call => call.role = some role

/-- No two calls with different roles touch one key. -/
def KeysApart (kb : FailureKnowledgeBase) (calls : List KnowledgeCall) : Prop :=
  ∀ call ∈ calls, ∀ call' ∈ calls, ∀ key ∈ kb.touchedKeys call, key ∈ kb.touchedKeys call' →
    call.role = call'.role

/-- The two states list the same records for the role, up to timestamps and
order. -/
def SameFor {S : Type} (store : GuildStore S) (role : String) (s s' : S) : Prop :=
  ∃ records records', store.list (.ofRole role) s = .ok records ∧
    store.list (.ofRole role) s' = .ok records' ∧
      (records.map GuildRecord.timeless).Perm (records'.map GuildRecord.timeless)

/-- The record under the key, if it has the role. -/
def under (role : String) (found : Option GuildRecord) : Option GuildRecord :=
  found.filter fun record => record.role = some role

section Listing

variable {S : Type} {store : GuildStore S} {admits : GuildRecord → Prop}
variable {Holds : S → List (String × GuildRecord) → Prop} {role : String}
variable {s s' : S} {records records' : List (String × GuildRecord)}
variable {ledger ledger' : String → Option GuildRecord}

/-- What is listed for a role, without timestamps. -/
def listing (f : Dict → Dict) (role : String) (records : List (String × GuildRecord)) :
    List GuildRecord :=
  ((records.map fun item => item.2.mapDicts f).filter fun r => r.role = some role).map
    GuildRecord.timeless

/-- What is found under a key for a role, as it is read back. -/
def listedUnder (f : Dict → Dict) (role : String) (ledger : String → Option GuildRecord)
    (key : String) : Option GuildRecord :=
  (under role (ledger key)).map (GuildRecord.mapDicts f)

theorem mem_listing (hfiled : Filed records) (hshows : Shows records ledger) {found : GuildRecord} :
    found ∈ listing f role records ↔ listedUnder f role ledger found.key = some found := by
  have hunder (key : String) :
      under role (ledger key) = (under role (records.lookup key)).map GuildRecord.timeless := by
    rw [← hshows, under, under, Option.filter_map]
    rfl
  constructor
  · intro hmem
    obtain ⟨listed, hlisted, rfl⟩ := List.mem_map.mp hmem
    obtain ⟨hmem, hrole⟩ := List.mem_filter.mp hlisted
    obtain ⟨item, hitem, rfl⟩ := List.mem_map.mp hmem
    have hlookup : records.lookup item.2.key = some item.2 := by
      rw [← hfiled.keyed item hitem]
      exact Assoc.lookup_of_mem hfiled.nodup hitem
    change (under role (ledger item.2.key)).map _ = _
    rw [hunder, hlookup, under, Option.filter_some_pos (by exact hrole)]
    rfl
  · intro hmem
    rw [listedUnder, hunder, Option.map_map, Option.map_eq_some_iff] at hmem
    obtain ⟨stored, hstored, hfound⟩ := hmem
    obtain ⟨hlookup, hrole⟩ := Option.filter_eq_some_iff.mp hstored
    have hitem := Assoc.mem_of_lookup hlookup
    rw [← hfound]
    exact List.mem_map.mpr ⟨stored.mapDicts f,
      List.mem_filter.mpr ⟨List.mem_map.mpr ⟨_, hitem, rfl⟩, hrole⟩, rfl⟩

theorem key_of_listedUnder (hfiled : Filed records) (hshows : Shows records ledger) {key : String}
    {found : GuildRecord} (hfound : listedUnder f role ledger key = some found) :
    found.key = key := by
  obtain ⟨record, hrecord, rfl⟩ := Option.map_eq_some_iff.mp hfound
  have hledger := (Option.filter_eq_some_iff.mp hrecord).1
  rw [← hshows] at hledger
  obtain ⟨stored, hstored, rfl⟩ := Option.map_eq_some_iff.mp hledger
  have hkey : stored.key = key := hfiled.key_of_lookup hstored
  exact hkey

theorem nodup_listing (hfiled : Filed records) : (listing f role records).Nodup := by
  have hkeys : (listing f role records).map (·.key) =
      ((records.map fun item => item.2.mapDicts f).filter fun r => r.role = some role).map
        (·.key) := by
    rw [listing, List.map_map]
    rfl
  have hall : (records.map fun item => item.2.mapDicts f).map (·.key) = Assoc.keys records := by
    rw [List.map_map]
    exact List.map_congr_left fun item hitem => (hfiled.keyed item hitem).symm
  refine List.Nodup.of_map (·.key) ?_
  rw [hkeys]
  refine (List.filter_sublist.map _).nodup ?_
  rw [hall]
  exact hfiled.nodup

/-- Two states list the same for a role if they show the same under every key. -/
theorem sameFor_iff (hlawful : store.Lawful admits f Holds) (hholds : Holds s records)
    (hshows : Shows records ledger) (hholds' : Holds s' records')
    (hshows' : Shows records' ledger') :
    SameFor store role s s' ↔
      ∀ key, listedUnder f role ledger key = listedUnder f role ledger' key := by
  have hsame : SameFor store role s s' ↔
      (listing f role records).Perm (listing f role records') := by
    constructor
    · intro hsame
      obtain ⟨listed, listed', hlist, hlist', hperm⟩ := hsame
      rw [hlawful.list _ hholds] at hlist
      rw [hlawful.list _ hholds'] at hlist'
      cases hlist
      cases hlist'
      exact hperm
    · intro hperm
      exact ⟨_, _, hlawful.list _ hholds, hlawful.list _ hholds', hperm⟩
  have hfiled := hlawful.filed hholds
  have hfiled' := hlawful.filed hholds'
  rw [hsame, List.perm_ext_iff_of_nodup (nodup_listing hfiled) (nodup_listing hfiled')]
  constructor
  · intro hmem key
    apply Option.ext
    intro found
    constructor
    · intro hfound
      have hkey := key_of_listedUnder hfiled hshows hfound
      rw [← hkey] at hfound ⊢
      exact (mem_listing hfiled' hshows').mp
        ((hmem found).mp ((mem_listing hfiled hshows).mpr hfound))
    · intro hfound
      have hkey := key_of_listedUnder hfiled' hshows' hfound
      rw [← hkey] at hfound ⊢
      exact (mem_listing hfiled hshows).mp
        ((hmem found).mpr ((mem_listing hfiled' hshows').mpr hfound))
  · intro hunder found
    rw [mem_listing hfiled hshows, mem_listing hfiled' hshows', hunder]

end Listing

/-- Keys that are apart let each role see what its own calls leave. -/
theorem under_ledger_of_apart {calls : List KnowledgeCall}
    (hroles : ∀ call ∈ calls, call.role.isSome) (hapart : kb.KeysApart calls) (role : String)
    (key : String) :
    under role (kb.ledger f calls key) = under role (kb.ledger f (callsOf role calls) key) := by
  have hrolesOf : ∀ call ∈ callsOf role calls, call.role.isSome :=
    fun call hcall => hroles call (List.mem_of_mem_filter hcall)
  rcases ledger_cases hrolesOf key with ⟨hnone, huntouched⟩ | ⟨call, hcall, hkey, -⟩
  · -- none of the role's calls touches the key, so another role's label stands there
    rw [hnone]
    rcases ledger_cases hroles key with ⟨hempty, -⟩ | ⟨last, hlast, hkey, record, hrecord, -, hrole⟩
    · rw [hempty]
    · have hother : decide (record.role = some role) = false := by
        apply decide_eq_false
        intro hown
        refine huntouched ⟨last, List.mem_filter.mpr ⟨hlast, ?_⟩, hkey⟩
        rw [← hrole]
        exact decide_eq_true hown
      rw [hrecord, under, Option.filter_some, hother]
      rfl
  · -- one of them does, so every call that touches the key is the role's
    obtain ⟨hmem, hrole⟩ := List.mem_filter.mp hcall
    rw [callsOf, ledger_filter]
    intro other hother htouched
    rw [hapart other hother call hmem key htouched hkey]
    exact hrole

/-- A role that sees what its own calls leave shares no key with another. -/
theorem apart_of_listedUnder {calls : List KnowledgeCall}
    (hroles : ∀ call ∈ calls, call.role.isSome)
    (hsame : ∀ role key, listedUnder f role (kb.ledger f calls) key =
      listedUnder f role (kb.ledger f (callsOf role calls)) key) : kb.KeysApart calls := by
  intro call hcall call' hcall' key hkey hkey'
  rcases ledger_cases (f := f) hroles key with ⟨-, huntouched⟩ | ⟨last, -, -, hlabelled⟩
  · exact absurd ⟨call, hcall, hkey⟩ huntouched
  -- whoever touched the key has the role that stands there now
  have hlast (toucher : KnowledgeCall) (htoucher : toucher ∈ calls)
      (htouched : key ∈ kb.touchedKeys toucher) : toucher.role = last.role := by
    obtain ⟨role, hrole⟩ := Option.isSome_iff_exists.mp (hroles toucher htoucher)
    have hown : toucher ∈ callsOf role calls :=
      List.mem_filter.mpr ⟨htoucher, decide_eq_true hrole⟩
    have hrolesOf : ∀ call ∈ callsOf role calls, call.role.isSome :=
      fun call hcall => hroles call (List.mem_of_mem_filter hcall)
    rcases ledger_cases (f := f) hrolesOf key with ⟨-, huntouched⟩ |
      ⟨own, hmem, -, record, hrecord, -, hlabel⟩
    · exact absurd ⟨toucher, hown, htouched⟩ huntouched
    have hown : record.role = some role := by
      rw [hlabel]
      exact of_decide_eq_true (List.mem_filter.mp hmem).2
    have hseen := hsame role key
    rw [listedUnder, listedUnder, hrecord, under, under,
      Option.filter_some_pos (by exact decide_eq_true hown)] at hseen
    obtain ⟨stored, hstored, -⟩ := Option.map_eq_some_iff.mp hseen
    obtain ⟨hledger, hrole'⟩ := Option.filter_eq_some_iff.mp hstored
    obtain ⟨standing, hstanding, -, hlabel'⟩ := hlabelled
    rw [hstanding] at hledger
    cases hledger
    rw [hrole, ← hlabel']
    exact (of_decide_eq_true hrole').symm
  rw [hlast call hcall hkey, hlast call' hcall' hkey']

/-- After the calls, every role finds what its own calls alone would have left. -/
def Isolated {S : Type} (kb : FailureKnowledgeBase) (store : GuildStore S)
    (clock clock' : GuildHistory → Time) (calls : List KnowledgeCall) (start : S) : Prop :=
  ∀ role, SameFor store role (kb.runCalls store clock calls ⟨[], start⟩).state
    (kb.runCalls store clock' (callsOf role calls) ⟨[], start⟩).state

theorem isolated_iff {S : Type} {store : GuildStore S} {admits : GuildRecord → Prop}
    {Holds : S → List (String × GuildRecord) → Prop} {D : Dict → Prop}
    {clock clock' : GuildHistory → Time} {calls : List KnowledgeCall} {start : S}
    (hterms : GuildTerms store admits f Holds D (calls.flatMap kb.touchedKeys).length)
    (hstart : Holds start []) (henabled : kb.config.enabled = true)
    (hpasses : ∀ call ∈ calls, call.Passes D) (hroles : ∀ call ∈ calls, call.role.isSome)
    (hroom : kb.RoomFor (calls.flatMap kb.touchedKeys)) :
    kb.Isolated store clock clock' calls start ↔ kb.KeysApart calls := by
  obtain ⟨records, hholds, hshows⟩ : ∃ records,
      Holds (kb.runCalls store clock calls ⟨[], start⟩).state records ∧
        Shows records (kb.ledger f calls) :=
    shows_of_start hterms hstart henabled hpasses le_rfl (fun _ hkey => hkey) hroom
  have hsame (role : String) :
      SameFor store role (kb.runCalls store clock calls ⟨[], start⟩).state
          (kb.runCalls store clock' (callsOf role calls) ⟨[], start⟩).state ↔
        ∀ key, listedUnder f role (kb.ledger f calls) key =
          listedUnder f role (kb.ledger f (callsOf role calls)) key := by
    have hsub : ((callsOf role calls).flatMap kb.touchedKeys).Sublist
        (calls.flatMap kb.touchedKeys) := List.filter_sublist.flatMap _
    obtain ⟨records', hholds', hshows'⟩ : ∃ records,
        Holds (kb.runCalls store clock' (callsOf role calls) ⟨[], start⟩).state records ∧
          Shows records (kb.ledger f (callsOf role calls)) :=
      shows_of_start hterms hstart henabled
        (fun call hcall => hpasses call (List.mem_of_mem_filter hcall)) hsub.length_le
        (fun _ hkey => hsub.subset hkey) hroom
    exact sameFor_iff hterms.lawful hholds hshows hholds' hshows'
  constructor
  · intro hisolated
    exact apart_of_listedUnder hroles fun role => (hsame role).mp (hisolated role)
  · intro hapart role
    refine (hsame role).mpr fun key => ?_
    rw [listedUnder, listedUnder, under_ledger_of_apart hroles hapart role key]

/-- For every history of calls with roles on an enabled knowledge base with an
empty store that has room for its keys, each role finds what its own calls
alone would have left exactly if no two calls with different roles share a key:
so it is in memory, and in a file for calls that JSON carries. -/
theorem role_isolated_iff (kb : FailureKnowledgeBase) (clock clock' : GuildHistory → Time)
    (p : Pydantic) (hp : p.Lawful) (calls : List KnowledgeCall)
    (henabled : kb.config.enabled = true) (hroles : ∀ call ∈ calls, call.role.isSome)
    (hroom : kb.RoomFor (calls.flatMap kb.touchedKeys)) :
    (kb.Isolated MemoryGuildStore.operations clock clock' calls .empty ↔ kb.KeysApart calls) ∧
      ((∀ call ∈ calls, call.Passes LocalGuildStore.Carried) →
        (calls.flatMap kb.touchedKeys).length < digitLimit →
          (kb.Isolated (LocalGuildStore.operations p) clock clock' calls none ↔
            kb.KeysApart calls)) := by
  constructor
  · exact isolated_iff (MemoryGuildStore.terms _) ⟨rfl, .nil⟩ henabled
      (fun call _ => call.passes_true) hroles hroom
  · intro hpasses hlimit
    exact isolated_iff (LocalGuildStore.terms hp hlimit) (LocalGuildStore.holds_missing p)
      henabled hpasses hroles hroom

/-- A failure that a role publishes. -/
def echoPublication (role : String) : KnowledgeCall :=
  .publish ⟨"echo", [echoFailure], some role, some "send a message", none, none⟩

/-- The planner publishes a failure, and the worker publishes the same one. -/
def crossedCalls : List KnowledgeCall := [echoPublication "planner", echoPublication "worker"]

/-- The planner finds its record gone. -/
theorem planner_record_relabelled :
    ¬ demo.Isolated MemoryGuildStore.operations (fun h => h.length) (fun h => h.length)
      crossedCalls .empty := by
  intro hisolated
  have hapart : demo.KeysApart crossedCalls :=
    (isolated_iff (MemoryGuildStore.terms _) ⟨rfl, .nil⟩ rfl (fun call _ => call.passes_true)
      (by decide) (by decide +kernel)).mp hisolated
  have hsame := hapart (echoPublication "planner") List.mem_cons_self (echoPublication "worker")
    (List.mem_cons_of_mem _ List.mem_cons_self) (demo.fingerprintOf "echo" echoFailure).toKey
    List.mem_cons_self List.mem_cons_self
  exact absurd hsame (by decide)

/-- The worker publishes a failure twice, and the planner a success elsewhere. -/
def separateCalls : List KnowledgeCall :=
  [echoPublication "worker", .publishSuccess ⟨"plan", [], some "planner", none⟩,
    echoPublication "worker"]

theorem separateCalls_isolated_iff :
    (demo.Isolated MemoryGuildStore.operations (fun h => h.length) (fun h => h.length)
        separateCalls .empty ↔ demo.KeysApart separateCalls) ∧
      (demo.Isolated (LocalGuildStore.operations .strict) (fun h => h.length) (fun h => h.length)
        separateCalls none ↔ demo.KeysApart separateCalls) := by
  obtain ⟨hmemory, hlocal⟩ := role_isolated_iff demo (fun h => h.length) (fun h => h.length)
    .strict Pydantic.strict_lawful separateCalls rfl (by decide) (by decide +kernel)
  refine ⟨hmemory, hlocal ?_ ?_⟩
  · have hnil : LocalGuildStore.Carried [] := ⟨List.nodup_nil, trivial⟩
    simp only [separateCalls, List.forall_mem_cons, List.not_mem_nil, false_implies, implies_true,
      and_true]
    exact ⟨⟨hnil, hnil⟩, hnil, hnil, hnil⟩
  · have hthree : (separateCalls.flatMap demo.touchedKeys).length = 3 := by decide +kernel
    rw [hthree]
    exact lt_digitLimit (by decide)

end FailureKnowledgeBase

end Conductor
