/-
The guild stores as maps from fingerprints to records.  A store files a record
under one text made of the three fields of its fingerprint, with a colon
between them, so it is such a map exactly as long as no field holds a colon.
-/
import Conductor.Guild.Store

namespace Conductor

open Json

namespace FailureFingerprint

/-- No field holds a colon. -/
def Plain (f : FailureFingerprint) : Prop :=
  ':' ∉ f.capability.toList ∧ ':' ∉ f.errorType.toList ∧ ':' ∉ f.inputFingerprint.toList

instance (f : FailureFingerprint) : Decidable f.Plain :=
  inferInstanceAs (Decidable (_ ∧ _ ∧ _))

theorem toList_toKey (f : FailureFingerprint) :
    f.toKey.toList = f.capability.toList ++ ':' :: (f.errorType.toList ++
      ':' :: f.inputFingerprint.toList) := by
  simp [toKey]

/-- A separator ends the part before it, which has none. -/
theorem append_cons_inj {α : Type} {mark : α} {before before' after after' : List α}
    (hbefore : mark ∉ before) (hbefore' : mark ∉ before')
    (heq : before ++ mark :: after = before' ++ mark :: after') :
    before = before' ∧ after = after' := by
  induction before generalizing before' with
  | nil =>
      cases before' with
      | nil => exact ⟨rfl, (List.cons.inj heq).2⟩
      | cons c rest => exact absurd (List.mem_cons.mpr (.inl (List.cons.inj heq).1)) hbefore'
  | cons c rest ih =>
      cases before' with
      | nil => exact absurd (List.mem_cons.mpr (.inl (List.cons.inj heq).1.symm)) hbefore
      | cons c' rest' =>
          rw [List.mem_cons, not_or] at hbefore hbefore'
          obtain ⟨hhead, htail⟩ := List.cons.inj heq
          obtain ⟨hrest, hafter⟩ := ih hbefore.2 hbefore'.2 htail
          exact ⟨by rw [hhead, hrest], hafter⟩

/-- A field with a colon, split there. -/
theorem split_of_mem {field : String} (hfield : ':' ∈ field.toList) :
    ∃ before after, field = before ++ ":" ++ after := by
  obtain ⟨before, after, hsplit⟩ := List.append_of_mem hfield
  refine ⟨String.ofList before, String.ofList after, ?_⟩
  rw [← String.toList_inj, hsplit]
  simp

theorem count_colon (f : FailureFingerprint) :
    f.toKey.toList.count ':' = f.capability.toList.count ':' + f.errorType.toList.count ':' +
      f.inputFingerprint.toList.count ':' + 2 := by
  rw [toList_toKey]
  simp only [List.count_append, List.count_cons_self]
  omega

/-- Whether a fingerprint is plain can be told from its key. -/
theorem plain_iff_count (f : FailureFingerprint) :
    f.Plain ↔ f.toKey.toList.count ':' = 2 := by
  rw [count_colon, Plain, ← List.count_eq_zero, ← List.count_eq_zero, ← List.count_eq_zero]
  omega

/-- The key of a plain fingerprint is no other fingerprint's. -/
theorem Plain.eq_of_toKey {f f' : FailureFingerprint} (hplain : f.Plain)
    (hkey : f'.toKey = f.toKey) : f' = f := by
  have hplain' : f'.Plain := by
    rw [plain_iff_count] at hplain ⊢
    rw [hkey, hplain]
  have hchars : f'.toKey.toList = f.toKey.toList := by rw [hkey]
  rw [toList_toKey, toList_toKey] at hchars
  obtain ⟨hcapability, hrest⟩ := append_cons_inj hplain'.1 hplain.1 hchars
  obtain ⟨herror, hinput⟩ := append_cons_inj hplain'.2.1 hplain.2.1 hrest
  obtain ⟨capability, errorType, inputFingerprint⟩ := f
  obtain ⟨capability', errorType', inputFingerprint'⟩ := f'
  rw [String.toList_inj] at hcapability herror hinput
  dsimp only at hcapability herror hinput
  rw [hcapability, herror, hinput]

/-- The key of a fingerprint that is not plain belongs to another one, too. -/
theorem exists_other {f : FailureFingerprint} (hplain : ¬ f.Plain) :
    ∃ f', f' ≠ f ∧ f'.toKey = f.toKey := by
  obtain ⟨capability, errorType, inputFingerprint⟩ := f
  by_cases hcapability : ':' ∈ capability.toList
  · -- what follows the colon goes to the next field
    obtain ⟨before, after, rfl⟩ := split_of_mem hcapability
    refine ⟨⟨before, after ++ ":" ++ errorType, inputFingerprint⟩, ?_, ?_⟩
    · intro heq
      have hlength := congrArg (fun f => f.capability.length) heq
      have hcolon : ":".length = 1 := rfl
      simp only [String.length_append] at hlength
      omega
    · simp [toKey, String.append_assoc]
  by_cases herror : ':' ∈ errorType.toList
  · obtain ⟨before, after, rfl⟩ := split_of_mem herror
    refine ⟨⟨capability, before, after ++ ":" ++ inputFingerprint⟩, ?_, ?_⟩
    · intro heq
      have hlength := congrArg (fun f => f.errorType.length) heq
      have hcolon : ":".length = 1 := rfl
      simp only [String.length_append] at hlength
      omega
    · simp [toKey, String.append_assoc]
  · have hinput : ':' ∈ inputFingerprint.toList := by
      by_contra hinput
      exact hplain ⟨hcapability, herror, hinput⟩
    -- the last field has a colon, and what precedes it goes to the field before
    obtain ⟨before, after, rfl⟩ := split_of_mem hinput
    refine ⟨⟨capability, errorType ++ ":" ++ before, after⟩, ?_, ?_⟩
    · intro heq
      have hlength := congrArg (fun f => f.errorType.length) heq
      have hcolon : ":".length = 1 := rfl
      simp only [String.length_append] at hlength
      omega
    · simp [toKey, String.append_assoc]

end FailureFingerprint

/-- The operations that change a store. -/
inductive GuildOp where
  | save (record : GuildRecord)
  | delete (fingerprint : FailureFingerprint)
  | clear

/-- The last record saved under the fingerprint, unless it was deleted or
cleared since.  The newest operation comes first. -/
def lastSaved (fingerprint : FailureFingerprint) : List GuildOp → Option GuildRecord
  | [] => none
  | .save record :: older =>
      if record.fingerprint = fingerprint then some record else lastSaved fingerprint older
  | .delete deleted :: older =>
      if deleted = fingerprint then none else lastSaved fingerprint older
  | .clear :: _ => none

namespace GuildStore

variable {S : Type}

/-- The state after an operation; one that raises changes nothing. -/
def apply (store : GuildStore S) (s : S) : GuildOp → S
  | .save record =>
      match store.save record s with
      | .ok s' => s'
      | .error _ => s
  | .delete fingerprint =>
      match store.delete fingerprint s with
      | .ok (_, s') => s'
      | .error _ => s
  | .clear => store.clear s

def after (store : GuildStore S) (start : S) : List GuildOp → S
  | [] => start
  | op :: older => store.apply (store.after start older) op

/-- The store is the map that its history made: it gets the last record saved
under a fingerprint, deletes it and nothing else, and lists each once. -/
structure Reflects (store : GuildStore S) (f : Dict → Dict) (history : List GuildOp) (s : S) :
    Prop where
  get : ∀ fingerprint,
    store.get fingerprint s = .ok ((lastSaved fingerprint history).map (.mapDicts f))
  delete : ∀ fingerprint, ∃ s',
    store.delete fingerprint s = .ok ((lastSaved fingerprint history).isSome, s') ∧
      ∀ other, store.get other s' =
        .ok ((lastSaved other (.delete fingerprint :: history)).map (.mapDicts f))
  list : ∃ records, store.list .all s = .ok records ∧
    (records.map (·.fingerprint)).Nodup ∧
      ∀ record, record ∈ records ↔
        ∃ saved, lastSaved record.fingerprint history = some saved ∧ record = saved.mapDicts f

end GuildStore

/-- The last record saved under the key, whoever's it is. -/
def lastUnder (key : String) : List GuildOp → Option GuildRecord
  | [] => none
  | .save record :: older => if record.key = key then some record else lastUnder key older
  | .delete deleted :: older => if deleted.toKey = key then none else lastUnder key older
  | .clear :: _ => none

theorem fingerprint_of_lastSaved {fingerprint : FailureFingerprint} {history : List GuildOp}
    {record : GuildRecord} (hlast : lastSaved fingerprint history = some record) :
    record.fingerprint = fingerprint := by
  induction history with
  | nil => cases hlast
  | cons op older ih =>
      cases op with
      | save saved =>
          rw [lastSaved] at hlast
          by_cases hfingerprint : saved.fingerprint = fingerprint
          · rw [if_pos hfingerprint] at hlast
            cases hlast
            exact hfingerprint
          · rw [if_neg hfingerprint] at hlast
            exact ih hlast
      | delete deleted =>
          rw [lastSaved] at hlast
          by_cases hfingerprint : deleted = fingerprint
          · rw [if_pos hfingerprint] at hlast
            cases hlast
          · rw [if_neg hfingerprint] at hlast
            exact ih hlast
      | clear => cases hlast

/-- A record that is found under a key is live under its own fingerprint. -/
theorem lastSaved_of_lastUnder {key : String} {history : List GuildOp} {record : GuildRecord}
    (hlast : lastUnder key history = some record) :
    record.key = key ∧ lastSaved record.fingerprint history = some record := by
  induction history with
  | nil => cases hlast
  | cons op older ih =>
      cases op with
      | save saved =>
          rw [lastUnder] at hlast
          by_cases hkey : saved.key = key
          · rw [if_pos hkey] at hlast
            cases hlast
            exact ⟨hkey, if_pos rfl⟩
          · rw [if_neg hkey] at hlast
            obtain ⟨hrecord, hsaved⟩ := ih hlast
            refine ⟨hrecord, ?_⟩
            have hne : saved.fingerprint ≠ record.fingerprint := by
              intro heq
              apply hkey
              rw [GuildRecord.key, heq]
              exact hrecord
            rw [lastSaved, if_neg hne, hsaved]
      | delete deleted =>
          rw [lastUnder] at hlast
          by_cases hkey : deleted.toKey = key
          · rw [if_pos hkey] at hlast
            cases hlast
          · rw [if_neg hkey] at hlast
            obtain ⟨hrecord, hsaved⟩ := ih hlast
            refine ⟨hrecord, ?_⟩
            have hne : deleted ≠ record.fingerprint := by
              intro heq
              apply hkey
              rw [heq]
              exact hrecord
            rw [lastSaved, if_neg hne, hsaved]
      | clear => cases hlast

/-- Nobody shares the key of a plain fingerprint. -/
theorem lastUnder_of_plain {fingerprint : FailureFingerprint} (hplain : fingerprint.Plain)
    (history : List GuildOp) :
    lastUnder fingerprint.toKey history = lastSaved fingerprint history := by
  have hkey (other : FailureFingerprint) :
      other.toKey = fingerprint.toKey ↔ other = fingerprint :=
    ⟨hplain.eq_of_toKey, congrArg _⟩
  induction history with
  | nil => rfl
  | cons op older ih =>
      cases op with
      | save saved => simp only [lastUnder, lastSaved, ih, GuildRecord.key, hkey]
      | delete deleted => simp only [lastUnder, lastSaved, ih, hkey]
      | clear => rfl

/-- Every fingerprint that is live is plain. -/
def LivePlain (history : List GuildOp) : Prop :=
  ∀ fingerprint, (lastSaved fingerprint history).isSome → fingerprint.Plain

theorem lastUnder_of_livePlain {history : List GuildOp} (hlive : LivePlain history)
    (fingerprint : FailureFingerprint) :
    lastUnder fingerprint.toKey history = lastSaved fingerprint history := by
  cases hlast : lastUnder fingerprint.toKey history with
  | some record =>
      obtain ⟨hkey, hsaved⟩ := lastSaved_of_lastUnder hlast
      have hplain := hlive record.fingerprint (by simp [hsaved])
      rw [hplain.eq_of_toKey hkey.symm, hsaved]
  | none =>
      by_cases hsome : (lastSaved fingerprint history).isSome
      · rw [← lastUnder_of_plain (hlive fingerprint hsome), hlast]
      · exact (Option.not_isSome_iff_eq_none.mp hsome).symm

namespace GuildStore

variable {S : Type} {store : GuildStore S} {admits : GuildRecord → Prop} {f : Dict → Dict}
variable {Holds : S → List (String × GuildRecord) → Prop}

/-- Every record that is saved is one the store admits. -/
def OnlySaves (admits : GuildRecord → Prop) (history : List GuildOp) : Prop :=
  ∀ record, .save record ∈ history → admits record

theorem OnlySaves.tail {op : GuildOp} {older : List GuildOp}
    (hsaves : OnlySaves admits (op :: older)) : OnlySaves admits older :=
  fun record hmem => hsaves record (List.mem_cons_of_mem op hmem)

/-- A store holds under each key the last record saved there. -/
theorem holds_after (hlawful : store.Lawful admits f Holds) {start : S} (hstart : Holds start [])
    {history : List GuildOp} (hsaves : OnlySaves admits history) :
    ∃ records, Holds (store.after start history) records ∧
      ∀ key, records.lookup key = lastUnder key history := by
  induction history with
  | nil => exact ⟨[], hstart, fun key => rfl⟩
  | cons op older ih =>
      obtain ⟨records, hholds, hlookup⟩ := ih hsaves.tail
      have hnodup := (hlawful.filed hholds).nodup
      rw [after]
      cases op with
      | save record =>
          obtain ⟨s', records', hsave, hholds', hperm⟩ :=
            hlawful.save hholds (hsaves record List.mem_cons_self)
          refine ⟨records', by rwa [apply, hsave], fun key => ?_⟩
          rw [Assoc.lookup_perm hperm (hlawful.filed hholds').nodup, Assoc.lookup_insert,
            lastUnder, hlookup]
          by_cases hkey : record.key = key
          · rw [if_pos hkey, if_pos hkey.symm]
          · rw [if_neg hkey, if_neg (Ne.symm hkey)]
      | delete fingerprint =>
          obtain ⟨s', records', hdelete, hholds', hperm⟩ := hlawful.delete fingerprint hholds
          refine ⟨records', by rwa [apply, hdelete], fun key => ?_⟩
          rw [Assoc.lookup_perm hperm (hlawful.filed hholds').nodup, Assoc.lookup_erase hnodup,
            lastUnder, hlookup]
          by_cases hkey : fingerprint.toKey = key
          · rw [if_pos hkey, if_pos hkey.symm]
          · rw [if_neg hkey, if_neg (Ne.symm hkey)]
      | clear => exact ⟨[], hlawful.clear hholds, fun key => rfl⟩

section Live

variable (hlawful : store.Lawful admits f Holds) {start : S} (hstart : Holds start [])
include hlawful hstart

theorem get_after {history : List GuildOp} (hsaves : OnlySaves admits history)
    (hlive : LivePlain history) (fingerprint : FailureFingerprint) :
    store.get fingerprint (store.after start history) =
      .ok ((lastSaved fingerprint history).map (.mapDicts f)) := by
  obtain ⟨records, hholds, hlookup⟩ := holds_after hlawful hstart hsaves
  rw [hlawful.get fingerprint hholds, hlookup, lastUnder_of_livePlain hlive]

theorem delete_after {history : List GuildOp} (hsaves : OnlySaves admits history)
    (hlive : LivePlain history) (fingerprint : FailureFingerprint) :
    store.delete fingerprint (store.after start history) =
      .ok ((lastSaved fingerprint history).isSome,
        store.after start (.delete fingerprint :: history)) := by
  obtain ⟨records, hholds, hlookup⟩ := holds_after hlawful hstart hsaves
  obtain ⟨s', records', hdelete, -, -⟩ := hlawful.delete fingerprint hholds
  have hfound : decide (fingerprint.toKey ∈ Assoc.keys records) =
      (lastSaved fingerprint history).isSome := by
    rw [← lastUnder_of_livePlain hlive, ← hlookup, Bool.eq_iff_iff, decide_eq_true_iff,
      Option.isSome_iff_ne_none, ne_eq, Assoc.lookup_eq_none_iff, not_not]
  rw [after, apply, hdelete, hfound]

theorem list_after {history : List GuildOp} (hsaves : OnlySaves admits history)
    (hlive : LivePlain history) :
    ∃ records, store.list .all (store.after start history) = .ok records ∧
      (records.map (·.fingerprint)).Nodup ∧
        ∀ record, record ∈ records ↔
          ∃ saved, lastSaved record.fingerprint history = some saved ∧
            record = saved.mapDicts f := by
  obtain ⟨records, hholds, hlookup⟩ := holds_after hlawful hstart hsaves
  have hfiled := hlawful.filed hholds
  refine ⟨_, hlawful.list .all hholds, ?_, fun record => ?_⟩
  · have hkeys : Assoc.keys records =
        (records.map fun item => item.2.fingerprint).map FailureFingerprint.toKey := by
      rw [List.map_map]
      exact List.map_congr_left hfiled.keyed
    have hnodup := hfiled.nodup
    rw [hkeys] at hnodup
    rw [filterGuildRecords_all, List.map_map]
    exact hnodup.of_map _
  · rw [filterGuildRecords_all, List.mem_map]
    constructor
    · intro hmem
      obtain ⟨item, hitem, rfl⟩ := hmem
      have hfound := Assoc.lookup_of_mem hfiled.nodup hitem
      rw [hlookup] at hfound
      exact ⟨item.2, (lastSaved_of_lastUnder hfound).2, rfl⟩
    · intro hmem
      obtain ⟨saved, hsaved, rfl⟩ := hmem
      rw [GuildRecord.fingerprint_mapDicts, ← lastUnder_of_livePlain hlive, ← hlookup] at hsaved
      exact ⟨_, Assoc.mem_of_lookup hsaved, rfl⟩

/-- A store reflects its history exactly if the live fingerprints are plain. -/
theorem reflects_iff {history : List GuildOp} (hsaves : OnlySaves admits history) :
    store.Reflects f history (store.after start history) ↔ LivePlain history := by
  constructor
  · intro hreflects fingerprint hsome
    by_contra hplain
    obtain ⟨other, hne, hkey⟩ := FailureFingerprint.exists_other hplain
    obtain ⟨records, hholds, -⟩ := holds_after hlawful hstart hsaves
    -- the two fingerprints get the same answer
    have hsame : store.get other (store.after start history) =
        store.get fingerprint (store.after start history) := by
      rw [hlawful.get other hholds, hlawful.get fingerprint hholds, hkey]
    rw [hreflects.get, hreflects.get] at hsame
    obtain ⟨record, hrecord⟩ := Option.isSome_iff_exists.mp hsome
    rw [hrecord] at hsame
    cases hother : lastSaved other history with
    | none => simp [hother] at hsame
    | some record' =>
        simp only [hother, Option.map_some, Except.ok.injEq, Option.some.injEq] at hsame
        have hfingerprints := congrArg GuildRecord.fingerprint hsame
        rw [GuildRecord.fingerprint_mapDicts, GuildRecord.fingerprint_mapDicts,
          fingerprint_of_lastSaved hrecord, fingerprint_of_lastSaved hother] at hfingerprints
        exact hne hfingerprints
  · intro hlive
    refine ⟨get_after hlawful hstart hsaves hlive, fun fingerprint => ?_,
      list_after hlawful hstart hsaves hlive⟩
    refine ⟨_, delete_after hlawful hstart hsaves hlive fingerprint, ?_⟩
    apply get_after hlawful hstart
    · intro record hmem
      cases hmem with
      | tail _ hmem => exact hsaves record hmem
    · intro other hsome
      rw [lastSaved] at hsome
      by_cases heq : fingerprint = other
      · simp [heq] at hsome
      · rw [if_neg heq] at hsome
        exact hlive other hsome

end Live

end GuildStore

/-- For every history of operations, with records that JSON carries where they
go to a file, a guild store is the map from fingerprints to records that the
history made exactly if no live fingerprint has a colon in one of its fields. -/
theorem guild_store_reflects_iff (p : Pydantic) (hp : p.Lawful) (history : List GuildOp) :
    (MemoryGuildStore.operations.Reflects id history
        (MemoryGuildStore.operations.after .empty history) ↔ LivePlain history) ∧
      (GuildStore.OnlySaves GuildRecord.Serialisable history →
        ((LocalGuildStore.operations p).Reflects sortedDict history
          ((LocalGuildStore.operations p).after none history) ↔ LivePlain history)) := by
  constructor
  · exact GuildStore.reflects_iff MemoryGuildStore.lawful ⟨rfl, .nil⟩ fun _ _ => trivial
  · exact GuildStore.reflects_iff (LocalGuildStore.lawful hp) (LocalGuildStore.holds_missing p)

/-- A record that a publication about an echo leaves. -/
def echoRecord (fingerprint : FailureFingerprint) : GuildRecord where
  fingerprint := fingerprint
  resolutionHint := some "send a message"
  approachAdjustment := [("message", .str "hello")]
  role := some "worker"
  project := none
  successCount := 0
  failureCount := 1
  createdAt := 0
  updatedAt := 0
  metadata := []

theorem echoRecord_serialisable (fingerprint : FailureFingerprint) :
    (echoRecord fingerprint).Serialisable where
  approachAdjustment := ⟨List.nodup_singleton _, trivial, trivial⟩
  metadata := ⟨List.nodup_nil, trivial⟩
  successCount := lt_digitLimit (n := 0) (by decide)
  failureCount := lt_digitLimit (n := 1) (by decide)

/-- The two fingerprints are told apart by where the colons stand. -/
def echoFingerprint : FailureFingerprint := ⟨"echo:v2", "ValueError", "abc"⟩

def shiftedFingerprint : FailureFingerprint := ⟨"echo", "v2:ValueError", "abc"⟩

/-- A fingerprint under which nothing was saved gets the record of another. -/
theorem shifted_fingerprint_found :
    ¬ MemoryGuildStore.operations.Reflects id [.save (echoRecord echoFingerprint)]
      (MemoryGuildStore.operations.after .empty [.save (echoRecord echoFingerprint)]) := by
  intro hreflects
  have hget := hreflects.get shiftedFingerprint
  have hfound : MemoryGuildStore.operations.get shiftedFingerprint
      (MemoryGuildStore.operations.after .empty [.save (echoRecord echoFingerprint)]) =
        .ok (some (echoRecord echoFingerprint)) := rfl
  rw [hfound] at hget
  cases hget

/-- A record that is saved, saved again and deleted, and another one. -/
def echoHistory : List GuildOp :=
  [.save (echoRecord ⟨"echo", "_success", "abc"⟩), .delete ⟨"echo", "ValueError", "abc"⟩,
    .save (echoRecord ⟨"echo", "ValueError", "abc"⟩),
    .save (echoRecord ⟨"echo", "ValueError", "abc"⟩)]

theorem echoHistory_reflects_iff :
    (MemoryGuildStore.operations.Reflects id echoHistory
        (MemoryGuildStore.operations.after .empty echoHistory) ↔ LivePlain echoHistory) ∧
      ((LocalGuildStore.operations .strict).Reflects sortedDict echoHistory
        ((LocalGuildStore.operations .strict).after none echoHistory) ↔ LivePlain echoHistory) := by
  obtain ⟨hmemory, hlocal⟩ := guild_store_reflects_iff .strict Pydantic.strict_lawful echoHistory
  refine ⟨hmemory, hlocal fun record hmem => ?_⟩
  simp only [echoHistory, List.mem_cons, GuildOp.save.injEq, reduceCtorEq, List.not_mem_nil,
    false_or, or_false] at hmem
  rcases hmem with rfl | rfl | rfl <;> exact echoRecord_serialisable _

end Conductor
