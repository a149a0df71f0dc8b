/-
What was reported is found again.  No call of a knowledge base with room for
its keys takes a record away, so a failure that was once reported stays filed,
and the suggestions for its capability and its input name it.
-/
import Conductor.Guild.FaithfulMap
import Conductor.Guild.Peer

namespace Conductor

open Json

namespace FailureKnowledgeBase

variable {kb : FailureKnowledgeBase} {f : Dict → Dict} {key : String}

/-- A key that a call of `publish` has seen, or that had a record before, has one. -/
theorem filed_contexts {pub : Publication} {contexts : List FailureContext} {slot : Slot}
    (hseen : slot.seen = true → slot.record.isSome)
    (hfiled : slot.record.isSome ∨
      key ∈ contexts.map fun ctx => (kb.fingerprintOf pub.capability ctx).toKey) :
    (contexts.foldl (kb.contextEffect f pub key) slot).record.isSome := by
  induction contexts generalizing slot with
  | nil =>
      apply hfiled.resolve_right
      exact List.not_mem_nil
  | cons ctx rest ih =>
      rw [List.foldl_cons]
      by_cases hkey : (kb.fingerprintOf pub.capability ctx).toKey = key
      · by_cases hfirst : slot.seen = true
        · have hrecord : (slot.record.map (again · 0)).isSome := by
            rw [Option.isSome_map]
            exact hseen hfirst
          rw [contextEffect_again hkey hfirst]
          apply ih
          · exact fun _ => hrecord
          · exact .inl hrecord
        · rw [contextEffect_first hkey (Bool.eq_false_of_not_eq_true hfirst)]
          apply ih
          · exact fun _ => rfl
          · exact .inl rfl
      · rw [contextEffect_of_ne hkey]
        apply ih hseen
        simpa [Ne.symm hkey] using hfiled

theorem filed_publish {pub : Publication} {old : Option GuildRecord}
    (hfiled : old.isSome ∨ key ∈ kb.failureKeys (.publish pub)) :
    (kb.publishEffect f pub key old).isSome := by
  apply filed_contexts
  · exact nofun
  · exact hfiled

/-- A call files a record under each of its keys, and takes none away. -/
theorem filed_call {call : KnowledgeCall} {old : Option GuildRecord}
    (hfiled : old.isSome ∨ key ∈ kb.touchedKeys call) :
    (kb.callEffect f call key old).isSome := by
  cases call with
  | publish pub =>
      apply filed_publish
      simpa [touchedKeys, successKeys] using hfiled
  | publishFailure capability failure role resolutionHint approachAdjustment =>
      apply filed_publish
      simpa [touchedKeys, failureKeys, successKeys] using hfiled
  | publishSuccess report =>
      cases hfingerprint : kb.successFingerprint report with
      | error e =>
          rw [callEffect, successEffect_error hfingerprint]
          simpa [touchedKeys, failureKeys, successKeys, hfingerprint] using hfiled
      | ok fingerprint =>
          rw [callEffect, successEffect_ok hfingerprint]
          by_cases hkey : fingerprint.toKey = key
          · rw [if_pos hkey]
            rfl
          · rw [if_neg hkey]
            simpa [touchedKeys, failureKeys, successKeys, hfingerprint, Ne.symm hkey] using hfiled

theorem filed_calls {calls : List KnowledgeCall} {old : Option GuildRecord}
    (hfiled : old.isSome ∨ key ∈ calls.flatMap kb.touchedKeys) :
    (calls.foldl (fun old call => kb.callEffect f call key old) old).isSome := by
  induction calls generalizing old with
  | nil =>
      apply hfiled.resolve_right
      exact List.not_mem_nil
  | cons call rest ih =>
      rw [List.flatMap_cons, List.mem_append, ← or_assoc] at hfiled
      apply ih
      rcases hfiled with hcall | hrest
      · exact .inl (filed_call hcall)
      · exact .inr hrest

end FailureKnowledgeBase

namespace DefaultPeerSuggestionEngine

/-- Whatever role asks, the suggestions for the capability of the fingerprint
and an input name the fingerprint, as one that matches the input exactly. -/
def Recalls {S : Type} (engine : DefaultPeerSuggestionEngine) (store : GuildStore S) (s : S)
    (fingerprint : FailureFingerprint) (input : Dict) : Prop :=
  inputFingerprint engine.sha256Hex input = .ok fingerprint.inputFingerprint ∧
    ∀ role, ∃ suggestions,
      engine.suggest store fingerprint.capability input role s = .ok suggestions ∧
        ∃ suggestion ∈ suggestions, suggestion.fingerprint = fingerprint ∧
          (suggestion.confidence = "0.8" ∨ suggestion.confidence = "1.0")

variable {role : Option String}

theorem confidence_of_match {inputFp : String} {record : GuildRecord}
    (hmatch : record.fingerprint.inputFingerprint = inputFp) :
    decimalText (confidence inputFp role record) = "0.8" ∨
      decimalText (confidence inputFp role record) = "1.0" := by
  unfold confidence
  dsimp only
  rw [if_pos hmatch]
  by_cases hrole : role ≠ none ∧ record.role = role
  · rw [if_pos hrole]
    right
    decide +kernel
  · rw [if_neg hrole]
    left
    decide +kernel

/-- A record under the key of a plain fingerprint is suggested. -/
theorem recalls_of_filed {S : Type} {engine : DefaultPeerSuggestionEngine} {store : GuildStore S}
    {admits : GuildRecord → Prop} {f : Dict → Dict} {Holds : S → List (String × GuildRecord) → Prop}
    {records : List (String × GuildRecord)} (hlawful : store.Lawful admits f Holds) {s : S}
    (hholds : Holds s records) (henabled : engine.config.enabled = true)
    {fingerprint : FailureFingerprint} (hplain : fingerprint.Plain)
    (hfiled : (records.lookup fingerprint.toKey).isSome) {input : Dict}
    (hinput : inputFingerprint engine.sha256Hex input = .ok fingerprint.inputFingerprint) :
    engine.Recalls store s fingerprint input := by
  obtain ⟨record, hlookup⟩ := Option.isSome_iff_exists.mp hfiled
  have hrecord : record.fingerprint = fingerprint :=
    hplain.eq_of_toKey ((hlawful.filed hholds).key_of_lookup hlookup)
  have hfound : record.mapDicts f ∈ found f fingerprint.capability records := by
    apply List.mem_filter.mpr
    constructor
    · exact List.mem_map.mpr ⟨_, Assoc.mem_of_lookup hlookup, rfl⟩
    · simp [hrecord]
  have hsome : ¬ (found f fingerprint.capability records).isEmpty := by
    rw [List.isEmpty_iff]
    exact List.ne_nil_of_mem hfound
  refine ⟨hinput, fun role => ⟨ranked ((found f fingerprint.capability records).map
    (suggestion fingerprint.inputFingerprint role)), ?_, ?_⟩⟩
  · rw [suggest_of_holds hlawful hholds henabled, if_neg hsome, hinput]
    rfl
  · refine ⟨(suggestion fingerprint.inputFingerprint role (record.mapDicts f)).2, ?_, hrecord, ?_⟩
    · apply List.mem_map_of_mem
      rw [mem_sortedDescending]
      exact List.mem_map_of_mem hfound
    · apply confidence_of_match
      rw [GuildRecord.fingerprint_mapDicts, hrecord]

end DefaultPeerSuggestionEngine

/-- A knowledge base and a suggestion engine on one store. -/
structure SharedGuild (S : Type) where
  knowledge : FailureKnowledgeBase
  engine : DefaultPeerSuggestionEngine
  store : GuildStore S
  clock : GuildHistory → Time
  start : S

namespace SharedGuild

variable {S : Type} (guild : SharedGuild S)

/-- The store after these reports. -/
def after (calls : List KnowledgeCall) : GuildState S :=
  guild.knowledge.runCalls guild.store guild.clock calls ⟨[], guild.start⟩

/-- What the store held in the beginning, with room for the keys of the reports. -/
structure Content (guild : SharedGuild S) (Holds : S → List (String × GuildRecord) → Prop)
    (D : Dict → Prop) (n : Nat) (records : List (String × GuildRecord)) : Prop where
  holds : Holds guild.start records
  modest : ∀ item ∈ records, Modest D n item.2

variable {guild} {admits : GuildRecord → Prop} {f : Dict → Dict}
variable {Holds : S → List (String × GuildRecord) → Prop} {D : Dict → Prop} {limit n : Nat}
variable {records : List (String × GuildRecord)}

/-- A failure that was reported is recalled after every further report, whatever
the store held in the beginning. -/
theorem recalls_reported (hterms : GuildTerms guild.store admits f Holds D limit)
    (hcontent : guild.Content Holds D n records)
    (hknowledge : guild.knowledge.config.enabled = true)
    (hengine : guild.engine.config.enabled = true) {calls : List KnowledgeCall}
    (hcalls : ∀ call ∈ calls, call.Passes D)
    (hlimit : n + (calls.flatMap guild.knowledge.touchedKeys).length ≤ limit)
    (hroom : guild.knowledge.RoomFor
      (Assoc.keys records ++ calls.flatMap guild.knowledge.touchedKeys))
    {fingerprint : FailureFingerprint} (hplain : fingerprint.Plain)
    (hreported : fingerprint.toKey ∈ calls.flatMap guild.knowledge.touchedKeys) {input : Dict}
    (hinput : inputFingerprint guild.engine.sha256Hex input = .ok fingerprint.inputFingerprint) :
    guild.engine.Recalls guild.store (guild.after calls).state fingerprint input := by
  have hkept : Stocked Holds D (Assoc.keys records ++ calls.flatMap guild.knowledge.touchedKeys) n
      guild.start records :=
    ⟨hcontent.holds, hcontent.modest,
      fun item hitem => List.mem_append_left _ (List.mem_map_of_mem hitem)⟩
  obtain ⟨records', hholds, hshows⟩ := FailureKnowledgeBase.runCalls_shows (k := ⟨[], guild.start⟩)
    hterms hknowledge hcalls hkept (fun _ => rfl) hlimit
    (fun key hkey => List.mem_append_right _ hkey) hroom
  have hfiled : ((records'.lookup fingerprint.toKey).map GuildRecord.timeless).isSome := by
    rw [hshows]
    exact FailureKnowledgeBase.filed_calls (.inr hreported)
  rw [Option.isSome_map] at hfiled
  exact DefaultPeerSuggestionEngine.recalls_of_filed hterms.lawful hholds hengine hplain hfiled
    hinput

end SharedGuild

end Conductor
