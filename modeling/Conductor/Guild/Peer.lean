/-
Peer suggestions: the records of a capability, ranked by confidence.  The guild
store that they come from decides between suggestions of one confidence only.
-/
import Mathlib.Algebra.Order.Ring.Rat
import Conductor.Guild.Counts
import Conductor.Python.Ranking

namespace Conductor

open Json

/-- The text of a float with one decimal. -/
def decimalText (q : Rat) : String :=
  toString ((q * 10).floor / 10) ++ "." ++ toString ((q * 10).floor % 10)

/-- The default peer suggestion engine; the digest function is that of the standard
library. -/
structure DefaultPeerSuggestionEngine where
  config : GuildConfig
  sha256Hex : String → String

namespace DefaultPeerSuggestionEngine

/-- How well a record matches. -/
def confidence (inputFp : String) (role : Option String) (record : GuildRecord) : Rat :=
  let confidence := 1 / 2
  let confidence :=
    if record.fingerprint.inputFingerprint = inputFp then confidence + 3 / 10 else confidence
  let confidence :=
    if role ≠ none ∧ record.role = role then confidence + 1 / 5 else confidence
  min confidence 1

/-- The suggestion of a record, behind its confidence. -/
def suggestion (inputFp : String) (role : Option String) (record : GuildRecord) :
    Rat × GuildSuggestion :=
  let confidence := confidence inputFp role record
  (confidence, {
    fingerprint := record.fingerprint
    resolutionHint := record.resolutionHint
    approachAdjustment := record.approachAdjustment
    sourceRole := record.role
    sourceProject := record.project
    confidence := decimalText confidence })

def suggest {S : Type} (engine : DefaultPeerSuggestionEngine) (store : GuildStore S)
    (capability : String) (inputData : Dict) (role : Option String) (s : S) :
    Except PyExc (List GuildSuggestion) :=
  if engine.config.enabled then do
    let records ← store.list { GuildQuery.all with capability := some capability } s
    if records.isEmpty then return []
    let inputFp ← inputFingerprint engine.sha256Hex inputData
    let suggestions := records.map (suggestion inputFp role)
    return (sortedDescending (·.1) suggestions).map (·.2)
  else return []

end DefaultPeerSuggestionEngine

/-- The suggestion with the keys of its adjustment sorted. -/
def GuildSuggestion.sortedKeys (s : GuildSuggestion) : GuildSuggestion :=
  { s with approachAdjustment := sortedDict s.approachAdjustment }

/-- What a suggestion says of a record, with the keys of the adjustment sorted. -/
def GuildRecord.guidance (r : GuildRecord) : GuildRecord :=
  { r.timeless with
    approachAdjustment := sortedDict r.approachAdjustment
    successCount := 0
    failureCount := 0
    metadata := [] }

namespace DefaultPeerSuggestionEngine

variable {inputFp : String} {role : Option String}

/-- The suggestion with its keys sorted, behind its confidence. -/
def tidied (rated : Rat × GuildSuggestion) : Rat × GuildSuggestion := (rated.1, rated.2.sortedKeys)

/-- The four degrees of confidence. -/
def degrees : List Rat := [1 / 2, 4 / 5, 7 / 10, 1]

theorem confidence_mem_degrees (record : GuildRecord) :
    confidence inputFp role record ∈ degrees := by
  unfold confidence
  dsimp only
  by_cases hinput : record.fingerprint.inputFingerprint = inputFp
  · rw [if_pos hinput]
    split <;> decide +kernel
  · rw [if_neg hinput]
    split <;> decide +kernel

/-- Degrees of confidence can be told by their texts. -/
theorem decimalText_inj :
    ∀ q ∈ degrees, ∀ q' ∈ degrees, decimalText q = decimalText q' → q = q' := by
  decide +kernel

end DefaultPeerSuggestionEngine

/-! ### Two stores after one history -/

/-- Dicts that differ in the order of their keys only. -/
structure SameItems (d d' : Dict) : Prop where
  nodup : (Assoc.keys d).Nodup
  nodup' : (Assoc.keys d').Nodup
  lookup : ∀ key, (d.lookup key).map sorted = (d'.lookup key).map sorted

namespace SameItems

variable {d d' : Dict}

theorem refl (hnodup : (Assoc.keys d).Nodup) : SameItems d d := ⟨hnodup, hnodup, fun _ => rfl⟩

theorem nodup_sortedDict (hnodup : (Assoc.keys d).Nodup) : (Assoc.keys (sortedDict d)).Nodup := by
  have hkeys : (Assoc.keys (d.map fun item => (item.1, Json.sorted item.2))).Nodup := by
    rw [Assoc.keys, List.map_map]
    exact hnodup
  exact ((sortedDict_perm d).map _).nodup_iff.mpr hkeys

/-- The dict that was written and read. -/
theorem read (hsame : SameItems d d') : SameItems d (sortedDict d') where
  nodup := hsame.nodup
  nodup' := nodup_sortedDict hsame.nodup'
  lookup key := by
    rw [lookup_sortedDict hsame.nodup', Option.map_map, hsame.lookup]
    congr 1
    funext value
    exact (sorted_sorted value).symm

theorem update (hsame : SameItems d d') (other : Dict) :
    SameItems (Dict.update d other) (Dict.update d' other) := by
  unfold Dict.update
  induction other generalizing d d' with
  | nil => exact hsame
  | cons item rest ih =>
      rw [List.foldl_cons, List.foldl_cons, Dict.insert_eq, Dict.insert_eq]
      refine ih ⟨Assoc.nodup_insert hsame.nodup, Assoc.nodup_insert hsame.nodup', fun key => ?_⟩
      rw [Assoc.lookup_insert, Assoc.lookup_insert]
      split
      · rfl
      · exact hsame.lookup key

/-- Sorted by their keys, they are the same. -/
theorem sortedDict_eq (hsame : SameItems d d') : sortedDict d = sortedDict d' := by
  have hnodup := nodup_sortedDict hsame.nodup
  have hnodup' := nodup_sortedDict hsame.nodup'
  have hperm : (sortedDict d).Perm (sortedDict d') := by
    apply Assoc.perm_of_lookup hnodup hnodup'
    intro key
    rw [lookup_sortedDict hsame.nodup, lookup_sortedDict hsame.nodup', hsame.lookup]
  have hantisymm : ∀ item item', item ∈ sortedDict d → item' ∈ sortedDict d' →
      KeyLe item item' → KeyLe item' item → item = item' := by
    intro item item' hitem hitem' hle hge
    exact Assoc.eq_of_key hnodup' (hperm.mem_iff.mp hitem) hitem' (le_antisymm hle hge)
  exact hperm.eq_of_pairwise hantisymm (List.pairwise_insertionSort _ _)
    (List.pairwise_insertionSort _ _)

end SameItems

/-- Records that make the same suggestion. -/
structure SameGuidance (r r' : GuildRecord) : Prop where
  fingerprint : r.fingerprint = r'.fingerprint
  resolutionHint : r.resolutionHint = r'.resolutionHint
  approachAdjustment : SameItems r.approachAdjustment r'.approachAdjustment
  role : r.role = r'.role
  project : r.project = r'.project

namespace SameGuidance

variable {r r' : GuildRecord}

theorem refl (hnodup : (Assoc.keys r.approachAdjustment).Nodup) : SameGuidance r r :=
  ⟨rfl, rfl, .refl hnodup, rfl, rfl⟩

theorem read (hsame : SameGuidance r r') : SameGuidance r (r'.mapDicts sortedDict) :=
  { hsame with approachAdjustment := hsame.approachAdjustment.read }

theorem guidance_eq (hsame : SameGuidance r r') : r.guidance = r'.guidance := by
  unfold GuildRecord.guidance GuildRecord.timeless
  rw [hsame.fingerprint, hsame.resolutionHint, hsame.approachAdjustment.sortedDict_eq, hsame.role,
    hsame.project]

end SameGuidance

namespace FailureKnowledgeBase

variable {kb : FailureKnowledgeBase} {old old' : Option GuildRecord}

/-- Both were found, or neither, and they make the same suggestion. -/
abbrev SameFound (old old' : Option GuildRecord) : Prop := Option.Rel SameGuidance old old'

theorem guidance_eq_of_same (hold : SameFound old old') :
    old.map (·.guidance) = old'.map (·.guidance) := by
  cases hold with
  | none => rfl
  | some hsame => exact congrArg some hsame.guidance_eq

theorem upserted_same {update : GuildRecord → Time → GuildRecord}
    {create : Time → Time → GuildRecord}
    (hupdate : ∀ r r', SameGuidance r r' → SameGuidance (update r 0) (update r' 0))
    (hcreate : (Assoc.keys (create 0 0).approachAdjustment).Nodup) (hold : SameFound old old') :
    SameGuidance (upserted id update create old) (upserted sortedDict update create old') := by
  cases hold with
  | none => exact .refl hcreate
  | some hsame => exact hupdate _ _ hsame.read

theorem renewed_same {r r' : GuildRecord} (hsame : SameGuidance r r') (pub : Publication) :
    SameGuidance (kb.renewed pub r 0) (kb.renewed pub r' 0) where
  fingerprint := hsame.fingerprint
  resolutionHint := congrArg pub.resolutionHint.or hsame.resolutionHint
  approachAdjustment := by
    unfold renewed
    cases pub.approachAdjustment with
    | none => exact hsame.approachAdjustment
    | some adjustment => exact hsame.approachAdjustment.update adjustment
  role := congrArg pub.role.or hsame.role
  project := congrArg kb.config.projectName.or hsame.project

theorem renewedSuccess_same {r r' : GuildRecord} (hsame : SameGuidance r r')
    (report : SuccessReport) :
    SameGuidance (kb.renewedSuccess report r 0) (kb.renewedSuccess report r' 0) :=
  { hsame with
    role := congrArg report.role.or hsame.role
    project := congrArg kb.config.projectName.or hsame.project }

theorem again_same (hold : SameFound old old') :
    SameFound (old.map (again · 0)) (old'.map (again · 0)) := by
  cases hold with
  | none => exact .none
  | some hsame => exact .some { hsame with }

theorem contexts_same {pub : Publication}
    (hpub : LocalGuildStore.Carried (pub.approachAdjustment.getD []))
    {key : String} {contexts : List FailureContext} {slot slot' : Slot}
    (hseen : slot.seen = slot'.seen) (hslot : SameFound slot.record slot'.record) :
    SameFound (contexts.foldl (kb.contextEffect id pub key) slot).record
      (contexts.foldl (kb.contextEffect sortedDict pub key) slot').record := by
  induction contexts generalizing slot slot' with
  | nil => exact hslot
  | cons ctx rest ih =>
      rw [List.foldl_cons, List.foldl_cons]
      by_cases hkey : (kb.fingerprintOf pub.capability ctx).toKey = key
      · cases hfirst : slot.seen with
        | false =>
            rw [contextEffect_first hkey hfirst, contextEffect_first hkey (hseen ▸ hfirst)]
            refine ih rfl (.some (upserted_same (fun _ _ h => renewed_same h pub) ?_ hslot))
            exact hpub.1
        | true =>
            rw [contextEffect_again hkey hfirst, contextEffect_again hkey (hseen ▸ hfirst)]
            exact ih hseen (again_same hslot)
      · rw [contextEffect_of_ne hkey, contextEffect_of_ne hkey]
        exact ih hseen hslot

/-- A call does the same to what makes a suggestion, whichever store it works on. -/
theorem callEffect_same {call : KnowledgeCall} (hcall : call.Passes LocalGuildStore.Carried)
    (key : String) (hold : SameFound old old') :
    SameFound (kb.callEffect id call key old) (kb.callEffect sortedDict call key old') := by
  cases call with
  | publish pub => exact contexts_same hcall.1 rfl hold
  | publishFailure capability failure role resolutionHint approachAdjustment =>
      have hpub : LocalGuildStore.Carried ((Publication.mk capability [failure] role resolutionHint
          approachAdjustment none).approachAdjustment.getD []) := hcall
      exact contexts_same hpub rfl hold
  | publishSuccess report =>
      cases hfingerprint : kb.successFingerprint report with
      | error e =>
          rw [callEffect, callEffect, successEffect_error hfingerprint,
            successEffect_error hfingerprint]
          exact hold
      | ok fingerprint =>
          rw [callEffect, callEffect, successEffect_ok hfingerprint, successEffect_ok hfingerprint]
          split
          · exact .some (upserted_same (fun _ _ h => renewedSuccess_same h report)
              List.nodup_nil hold)
          · exact hold

theorem ledger_same {calls : List KnowledgeCall}
    (hcalls : ∀ call ∈ calls, call.Passes LocalGuildStore.Carried) (key : String) :
    SameFound (kb.ledger id calls key) (kb.ledger sortedDict calls key) := by
  have hfold {old old' : Option GuildRecord} (hold : SameFound old old') :
      SameFound (calls.foldl (fun old call => kb.callEffect id call key old) old)
        (calls.foldl (fun old call => kb.callEffect sortedDict call key old) old') := by
    induction calls generalizing old old' with
    | nil => exact hold
    | cons call rest ih =>
        rw [List.forall_mem_cons] at hcalls
        exact ih hcalls.2 (callEffect_same hcalls.1 key hold)
  exact hfold .none

end FailureKnowledgeBase

/-! ### Two rankings -/

/-- Suggestions in the order of their keys, where they have one confidence. -/
def TiesInOrder (suggestions : List GuildSuggestion) : Prop :=
  suggestions.Pairwise fun s s' =>
    s.confidence = s'.confidence → s.fingerprint.toKey ≤ s'.fingerprint.toKey

instance : DecidablePred TiesInOrder := fun suggestions =>
  inferInstanceAs (Decidable (suggestions.Pairwise _))

/-- Two lists of the same suggestions, of which only those of one confidence may change
places.  The second list has those in the order of their keys.  A first suggestion that
no other has the confidence of is the first of both. -/
structure SameButTies (suggestions suggestions' : List GuildSuggestion) : Prop where
  perm : suggestions'.Perm (suggestions.map (·.sortedKeys))
  confidence : suggestions'.map (·.confidence) = suggestions.map (·.confidence)
  inOrder : TiesInOrder suggestions'
  eq_iff : suggestions' = suggestions.map (·.sortedKeys) ↔ TiesInOrder suggestions
  head : ∀ best rest, suggestions = best :: rest →
    (∀ other ∈ rest, other.confidence ≠ best.confidence) →
      suggestions'.head? = some best.sortedKeys

theorem SameButTies.nil : SameButTies [] [] where
  perm := .refl _
  confidence := rfl
  inOrder := List.Pairwise.nil
  eq_iff := iff_of_true rfl List.Pairwise.nil
  head _ _ hsplit := by cases hsplit

theorem head_of_confidence {suggestions' rest : List GuildSuggestion} {best : GuildSuggestion}
    (hperm : suggestions'.Perm ((best :: rest).map (·.sortedKeys)))
    (hconfidence : suggestions'.map (·.confidence) = (best :: rest).map (·.confidence))
    (hbest : ∀ other ∈ rest, other.confidence ≠ best.confidence) :
    suggestions'.head? = some best.sortedKeys := by
  cases suggestions' with
  | nil => cases hconfidence
  | cons first others =>
      have hsame : first.confidence = best.confidence := (List.cons.inj hconfidence).1
      obtain ⟨s, hs, hfirst⟩ := List.mem_map.mp (hperm.mem_iff.mp List.mem_cons_self)
      rcases List.mem_cons.mp hs with heq | hrest
      · rw [← hfirst, heq]
        rfl
      · rw [← hfirst] at hsame
        exact absurd hsame (hbest s hrest)

/-- Both raise the same exception, or return the same suggestions but for ties. -/
inductive AgreeButTies :
    Except PyExc (List GuildSuggestion) → Except PyExc (List GuildSuggestion) → Prop where
  | ok {suggestions suggestions' : List GuildSuggestion}
      (hsame : SameButTies suggestions suggestions') :
      AgreeButTies (.ok suggestions) (.ok suggestions')
  | error (e : PyExc) : AgreeButTies (.error e) (.error e)

namespace DefaultPeerSuggestionEngine

variable {inputFp : String} {role : Option String} {capability : String}
variable {records records' : List (String × GuildRecord)}

/-- The suggestions of the records of a capability, their keys sorted, behind their
confidence. -/
def advice (inputFp : String) (role : Option String) (capability : String)
    (records : List (String × GuildRecord)) : List (Rat × GuildSuggestion) :=
  (records.filter fun item => item.2.fingerprint.capability = capability).map fun item =>
    suggestion inputFp role item.2.guidance

/-- Suggestions by confidence, the greatest first. -/
def ranked (rated : List (Rat × GuildSuggestion)) : List GuildSuggestion :=
  (sortedDescending (·.1) rated).map (·.2)

/-- The key of the record that a suggestion comes from. -/
abbrev sourceKey (x : Rat × GuildSuggestion) : String := x.2.fingerprint.toKey

/-- The confidence of a suggestion is the one it was rated with. -/
def Rated (x : Rat × GuildSuggestion) : Prop := x.1 ∈ degrees ∧ x.2.confidence = decimalText x.1

theorem rated_suggestion (record : GuildRecord) : Rated (suggestion inputFp role record) :=
  ⟨confidence_mem_degrees record, rfl⟩

variable {rated rated' : List (Rat × GuildSuggestion)}

theorem tiesInOrder_ranked (hrated : ∀ x ∈ rated, Rated x) :
    TiesInOrder (ranked rated) ↔
      (sortedDescending (·.1) rated).Pairwise fun a b => a.1 = b.1 → sourceKey a ≤ sourceKey b := by
  rw [TiesInOrder, ranked, List.pairwise_map]
  apply List.Pairwise.iff_of_mem
  intro a b ha hb
  obtain ⟨hdegree, hconfidence⟩ := hrated a (mem_sortedDescending.mp ha)
  obtain ⟨hdegree', hconfidence'⟩ := hrated b (mem_sortedDescending.mp hb)
  have htext : a.2.confidence = b.2.confidence ↔ a.1 = b.1 := by
    rw [hconfidence, hconfidence']
    exact ⟨decimalText_inj a.1 hdegree b.1 hdegree', congrArg decimalText⟩
  rw [htext]

theorem confidence_ranked (hrated : ∀ x ∈ rated, Rated x) :
    (ranked rated).map (·.confidence) =
      ((sortedDescending (·.1) rated).map (·.1)).map decimalText := by
  rw [ranked, List.map_map, List.map_map]
  exact List.map_congr_left fun x hx => (hrated x (mem_sortedDescending.mp hx)).2

theorem ranked_tidied (rated : List (Rat × GuildSuggestion)) :
    (ranked rated).map (·.sortedKeys) = ranked (rated.map tidied) := by
  have hsorted : (sortedDescending (·.1) rated).map tidied =
      sortedDescending (·.1) (rated.map tidied) :=
    List.map_insertionSort _ _ tidied rated fun _ _ _ _ => Iff.rfl
  rw [ranked, ranked, ← hsorted, List.map_map, List.map_map]
  rfl

/-- Rankings of the same suggestions, one of which takes them in the order of their keys. -/
theorem sameButTies_ranked (hperm : rated'.Perm (rated.map tidied))
    (hrated : ∀ x ∈ rated, Rated x)
    (hsource : ∀ a ∈ rated.map tidied, ∀ b ∈ rated.map tidied, sourceKey a = sourceKey b → a = b)
    (hkeys : rated'.Pairwise fun a b => sourceKey a ≤ sourceKey b) :
    SameButTies (ranked rated) (ranked rated') := by
  have htidied : ∀ x ∈ rated.map tidied, Rated x := by
    intro x hx
    obtain ⟨y, hy, rfl⟩ := List.mem_map.mp hx
    exact hrated y hy
  have hrated' : ∀ x ∈ rated', Rated x := fun x hx => htidied x (hperm.mem_iff.mp hx)
  have hstable : (sortedDescending (·.1) rated').Pairwise fun a b =>
      a.1 = b.1 → sourceKey a ≤ sourceKey b := sortedDescending_stable hkeys
  have hinOrder : TiesInOrder (ranked rated') := (tiesInOrder_ranked hrated').mpr hstable
  have hties : TiesInOrder (ranked (rated.map tidied)) ↔ TiesInOrder (ranked rated) := by
    rw [← ranked_tidied, TiesInOrder, List.pairwise_map]
    exact Iff.rfl
  have htexts : (ranked (rated.map tidied)).map (·.confidence) =
      (ranked rated).map (·.confidence) := by
    rw [← ranked_tidied, List.map_map]
    rfl
  have hsame : (ranked rated').Perm ((ranked rated).map (·.sortedKeys)) := by
    rw [ranked_tidied]
    have hsorted := sortedDescending_perm (fun x : Rat × GuildSuggestion => x.1) rated'
    exact (hsorted.trans (hperm.trans (sortedDescending_perm _ _).symm)).map _
  have hconfidence : (ranked rated').map (·.confidence) = (ranked rated).map (·.confidence) := by
    rw [← htexts, confidence_ranked hrated', confidence_ranked htidied, keys_sortedDescending hperm]
  refine ⟨hsame, hconfidence, hinOrder, ?_, ?_⟩
  · rw [ranked_tidied, ← hties]
    constructor
    · intro heq
      exact heq ▸ hinOrder
    · intro hinOrder'
      exact congrArg (List.map (·.2))
        (eq_of_ranked hperm hsource hstable ((tiesInOrder_ranked htidied).mp hinOrder'))
  · intro best rest hsplit hbest
    rw [hsplit] at hsame hconfidence
    exact head_of_confidence hsame hconfidence hbest

theorem advice_eq_tidied (records : List (String × GuildRecord)) :
    advice inputFp role capability records =
      (((records.map fun item => item.2.mapDicts id).filter fun r =>
        r.fingerprint.capability = capability).map (suggestion inputFp role)).map tidied := by
  rw [advice, List.filter_map, List.map_map, List.map_map]
  rfl

theorem advice_eq_read (records : List (String × GuildRecord)) :
    advice inputFp role capability records =
      ((records.map fun item => item.2.mapDicts sortedDict).filter fun r =>
        r.fingerprint.capability = capability).map (suggestion inputFp role) := by
  rw [advice, List.filter_map, List.map_map]
  rfl

theorem exists_of_mem_advice {x : Rat × GuildSuggestion}
    (hx : x ∈ advice inputFp role capability records) :
    ∃ item ∈ records, x = suggestion inputFp role item.2.guidance := by
  obtain ⟨item, hitem, rfl⟩ := List.mem_map.mp hx
  exact ⟨item, List.mem_of_mem_filter hitem, rfl⟩

/-- Each record has one suggestion. -/
theorem advice_source (hfiled : Filed records) :
    ∀ a ∈ advice inputFp role capability records, ∀ b ∈ advice inputFp role capability records,
      sourceKey a = sourceKey b → a = b := by
  intro a ha b hb hsource
  obtain ⟨item, hitem, rfl⟩ := exists_of_mem_advice ha
  obtain ⟨item', hitem', rfl⟩ := exists_of_mem_advice hb
  have hkey : item.1 = item'.1 := by
    rw [hfiled.keyed item hitem, hfiled.keyed item' hitem']
    exact hsource
  rw [Assoc.eq_of_key hfiled.nodup hitem hitem' hkey]

theorem advice_pairwise (hfiled : Filed records)
    (hinOrder : records.Pairwise fun item item' => item.1 ≤ item'.1) :
    (advice inputFp role capability records).Pairwise fun a b => sourceKey a ≤ sourceKey b := by
  rw [advice, List.pairwise_map]
  refine (hinOrder.imp_of_mem ?_).filter _
  intro item item' hitem hitem' hle
  rw [hfiled.keyed item hitem, hfiled.keyed item' hitem'] at hle
  exact hle

/-- Records that make the same suggestions under the same keys. -/
theorem advice_perm (hfiled : Filed records) (hfiled' : Filed records')
    (hsame : ∀ key,
      (records.lookup key).map (·.guidance) = (records'.lookup key).map (·.guidance)) :
    (advice inputFp role capability records).Perm (advice inputFp role capability records') := by
  let guided (item : String × GuildRecord) : String × GuildRecord := (item.1, item.2.guidance)
  have hkeys (records : List (String × GuildRecord)) :
      Assoc.keys (records.map guided) = Assoc.keys records := List.map_map
  have hperm : (records.map guided).Perm (records'.map guided) := by
    apply Assoc.perm_of_lookup
    · rw [hkeys]
      exact hfiled.nodup
    · rw [hkeys]
      exact hfiled'.nodup
    · intro key
      rw [Assoc.lookup_map (fun _ r => GuildRecord.guidance r),
        Assoc.lookup_map (fun _ r => GuildRecord.guidance r)]
      exact hsame key
  have hadvice (records : List (String × GuildRecord)) :
      advice inputFp role capability records =
        ((records.map guided).filter fun item => item.2.fingerprint.capability = capability).map
          fun item => suggestion inputFp role item.2 := by
    rw [advice, List.filter_map, List.map_map]
    rfl
  rw [hadvice, hadvice]
  exact (hperm.filter _).map _

/-- The records of a capability as they are read. -/
def found (f : Dict → Dict) (capability : String) (records : List (String × GuildRecord)) :
    List GuildRecord :=
  (records.map fun item => item.2.mapDicts f).filter fun r => r.fingerprint.capability = capability

/-- What `suggest` makes of the records that a store holds. -/
theorem suggest_of_holds {S : Type} {engine : DefaultPeerSuggestionEngine} {store : GuildStore S}
    {admits : GuildRecord → Prop} {f : Dict → Dict} {Holds : S → List (String × GuildRecord) → Prop}
    (hlawful : store.Lawful admits f Holds) {s : S} (hholds : Holds s records)
    (henabled : engine.config.enabled = true) (capability : String) (inputData : Dict)
    (role : Option String) :
    engine.suggest store capability inputData role s =
      if (found f capability records).isEmpty then .ok []
      else (inputFingerprint engine.sha256Hex inputData).map fun inputFp =>
        ranked ((found f capability records).map (suggestion inputFp role)) := by
  have hlist : store.list { GuildQuery.all with capability := some capability } s =
      .ok (found f capability records) := hlawful.list _ hholds
  rw [suggest, if_pos henabled, bind_of_ok hlist]
  by_cases hempty : (found f capability records).isEmpty
  · rw [if_pos hempty, if_pos hempty]
    rfl
  · rw [if_neg hempty, if_neg hempty]
    cases inputFingerprint engine.sha256Hex inputData <;> rfl

/-- The suggestions from stores that hold records of the same guidance. -/
theorem suggest_same (engine : DefaultPeerSuggestionEngine) {memory : MemoryGuildStore}
    {file : GuildFile} {p : Pydantic} (hp : p.Lawful)
    (hmemory : MemoryGuildStore.Holds memory records)
    (hfile : LocalGuildStore.HoldsInOrder p file records')
    (hsame : ∀ key, (records.lookup key).map (·.guidance) = (records'.lookup key).map (·.guidance))
    (capability : String) (inputData : Dict) (role : Option String) :
    AgreeButTies (engine.suggest MemoryGuildStore.operations capability inputData role memory)
      (engine.suggest (LocalGuildStore.operations p) capability inputData role file) := by
  have hranked (inputFp : String) :
      SameButTies (ranked ((found id capability records).map (suggestion inputFp role)))
        (ranked ((found sortedDict capability records').map (suggestion inputFp role))) := by
    have hfiled := hmemory.2
    have hfiled' := hfile.holds.2
    apply sameButTies_ranked
    · rw [found, found, ← advice_eq_read, ← advice_eq_tidied]
      exact advice_perm hfiled' hfiled fun key => (hsame key).symm
    · intro x hx
      obtain ⟨record, _, rfl⟩ := List.mem_map.mp hx
      exact rated_suggestion record
    · rw [found, ← advice_eq_tidied]
      exact advice_source hfiled
    · rw [found, ← advice_eq_read]
      exact advice_pairwise hfiled' hfile.inOrder
  by_cases henabled : engine.config.enabled = true
  · have hempty : (found sortedDict capability records').isEmpty =
        (found id capability records).isEmpty := by
      have hlength := (hranked "").perm.length_eq
      simp only [ranked, sortedDescending, List.length_map, List.length_insertionSort] at hlength
      rw [Bool.eq_iff_iff, List.isEmpty_iff_length_eq_zero, List.isEmpty_iff_length_eq_zero,
        hlength]
    rw [suggest_of_holds MemoryGuildStore.lawful hmemory henabled,
      suggest_of_holds (LocalGuildStore.lawful_inOrder hp) hfile henabled, hempty]
    split
    · exact .ok .nil
    · cases inputFingerprint engine.sha256Hex inputData with
      | error e => exact .error e
      | ok inputFp => exact .ok (hranked inputFp)
  · rw [suggest, suggest, if_neg henabled, if_neg henabled]
    exact .ok .nil

end DefaultPeerSuggestionEngine

/-! ### After any history -/

namespace FailureKnowledgeBase

variable {kb : FailureKnowledgeBase}

/-- A knowledge base that is not enabled leaves its store alone. -/
theorem runCalls_disabled {S : Type} (hdisabled : ¬ kb.config.enabled = true)
    (store : GuildStore S) (clock : GuildHistory → Time) (calls : List KnowledgeCall)
    (k : GuildState S) : kb.runCalls store clock calls k = k := by
  have hpublish (pub : Publication) : kb.publish pub = pure [] := if_neg hdisabled
  have hsuccess (report : SuccessReport) : kb.publishSuccess report = pure none :=
    if_neg hdisabled
  induction calls with
  | nil => rfl
  | cons call rest ih =>
      have hblock : kb.block call = pure () := by
        cases call with
        | publish pub => rw [block, hpublish]; rfl
        | publishFailure => rw [block, publishFailure, hpublish]; rfl
        | publishSuccess report => rw [block, hsuccess]; rfl
      rw [runCalls, hblock]
      exact ih

/-- The store in memory after these calls, from an empty one. -/
def remembered (kb : FailureKnowledgeBase) (clock : GuildHistory → Time)
    (calls : List KnowledgeCall) : MemoryGuildStore :=
  (kb.runCalls MemoryGuildStore.operations clock calls MemoryGuildStore.initial).state

/-- The file after these calls, where there was none. -/
def written (kb : FailureKnowledgeBase) (p : Pydantic) (clock : GuildHistory → Time)
    (calls : List KnowledgeCall) : GuildFile :=
  (kb.runCalls (LocalGuildStore.operations p) clock calls LocalGuildStore.initial).state

/-- What the two stores hold after a history makes the same suggestions under the same
keys, and the file is in the order of the keys. -/
theorem guidance_same (kb : FailureKnowledgeBase) (clock : GuildHistory → Time) {p : Pydantic}
    (hp : p.Lawful) {calls : List KnowledgeCall}
    (hcalls : ∀ call ∈ calls, call.Passes LocalGuildStore.Carried)
    (hroom : kb.RoomFor (calls.flatMap kb.touchedKeys))
    (hdigits : (calls.flatMap kb.touchedKeys).length < digitLimit) :
    ∃ records records',
      MemoryGuildStore.Holds (kb.remembered clock calls) records ∧
      LocalGuildStore.HoldsInOrder p (kb.written p clock calls) records' ∧
      ∀ key, (records.lookup key).map (·.guidance) = (records'.lookup key).map (·.guidance) := by
  by_cases henabled : kb.config.enabled = true
  · have hterms : GuildTerms (LocalGuildStore.operations p) GuildRecord.Serialisable sortedDict
        (LocalGuildStore.HoldsInOrder p) LocalGuildStore.Carried
        (calls.flatMap kb.touchedKeys).length :=
      { LocalGuildStore.terms hp hdigits with lawful := LocalGuildStore.lawful_inOrder hp }
    obtain ⟨records, hholds, hshows⟩ := shows_of_start (MemoryGuildStore.terms _) ⟨rfl, .nil⟩
      henabled (fun call _ => call.passes_true) le_rfl (fun _ hkey => hkey) hroom
    obtain ⟨records', hholds', hshows'⟩ := shows_of_start hterms
      (LocalGuildStore.holdsInOrder_missing p) henabled hcalls le_rfl (fun _ hkey => hkey) hroom
    refine ⟨records, records', hholds, hholds', fun key => ?_⟩
    have hguidance {f : Dict → Dict} {records : List (String × GuildRecord)}
        (hshows : Shows records (kb.ledger f calls)) :
        (records.lookup key).map (·.guidance) = (kb.ledger f calls key).map (·.guidance) := by
      rw [← hshows key, Option.map_map]
      rfl
    rw [hguidance hshows, hguidance hshows']
    exact guidance_eq_of_same (ledger_same hcalls key)
  · rw [remembered, written, runCalls_disabled henabled, runCalls_disabled henabled]
    exact ⟨[], [], ⟨rfl, .nil⟩, LocalGuildStore.holdsInOrder_missing p, fun _ => rfl⟩

end FailureKnowledgeBase

namespace DefaultPeerSuggestionEngine

/-- After any history of calls, the suggestions from the two stores differ in the order
of those that have one confidence, and in nothing else. -/
theorem suggestions_agree_but_ties (engine : DefaultPeerSuggestionEngine)
    (kb : FailureKnowledgeBase) (clock : GuildHistory → Time) (p : Pydantic) (hp : p.Lawful)
    (calls : List KnowledgeCall) (hcalls : ∀ call ∈ calls, call.Passes LocalGuildStore.Carried)
    (hroom : kb.RoomFor (calls.flatMap kb.touchedKeys))
    (hdigits : (calls.flatMap kb.touchedKeys).length < digitLimit) (capability : String)
    (inputData : Dict) (role : Option String) :
    AgreeButTies
      (engine.suggest MemoryGuildStore.operations capability inputData role
        (kb.remembered clock calls))
      (engine.suggest (LocalGuildStore.operations p) capability inputData role
        (kb.written p clock calls)) := by
  obtain ⟨records, records', hmemory, hfile, hsame⟩ :=
    kb.guidance_same clock hp hcalls hroom hdigits
  exact suggest_same engine hp hmemory hfile hsame capability inputData role

/-- An engine for the demo. -/
def demo : DefaultPeerSuggestionEngine :=
  ⟨FailureKnowledgeBase.demo.config, FailureKnowledgeBase.demo.sha256Hex⟩

/-- Two ways to fail at an echo, each with its advice. -/
def twoFailures : List KnowledgeCall :=
  [.publishFailure "echo" FailureKnowledgeBase.echoFailure none none
      (some [("message", .str "hello")]),
    .publishFailure "echo" { FailureKnowledgeBase.echoFailure with errorType := "KeyError" } none
      none (some [("message", .str "hi")])]

theorem twoFailures_carried : ∀ call ∈ twoFailures, call.Passes LocalGuildStore.Carried := by
  have hhint (text : String) : LocalGuildStore.Carried [("message", .str text)] :=
    ⟨List.nodup_singleton _, trivial, trivial⟩
  intro call hcall
  rcases List.mem_pair.mp hcall with rfl | rfl
  · exact hhint "hello"
  · exact hhint "hi"

theorem twoFailures_digits :
    (twoFailures.flatMap FailureKnowledgeBase.demo.touchedKeys).length < digitLimit := by
  have htwo : (twoFailures.flatMap FailureKnowledgeBase.demo.touchedKeys).length = 2 := rfl
  rw [htwo]
  exact lt_digitLimit (by decide)

theorem twoFailures_room : FailureKnowledgeBase.demo.RoomFor
    (twoFailures.flatMap FailureKnowledgeBase.demo.touchedKeys) := by decide +kernel

theorem suggestions_agree_but_ties_twoFailures :
    AgreeButTies
      (demo.suggest MemoryGuildStore.operations "echo" [] none
        (FailureKnowledgeBase.demo.remembered (fun h => h.length) twoFailures))
      (demo.suggest (LocalGuildStore.operations .strict) "echo" [] none
        (FailureKnowledgeBase.demo.written .strict (fun h => h.length) twoFailures)) :=
  demo.suggestions_agree_but_ties FailureKnowledgeBase.demo (fun h => h.length) .strict
    Pydantic.strict_lawful twoFailures twoFailures_carried twoFailures_room twoFailures_digits
    "echo" [] none

/-- The two failures have one confidence, and the file has them in the other order. -/
theorem twoFailures_differ :
    (demo.suggest MemoryGuildStore.operations "echo" [] none
        (FailureKnowledgeBase.demo.remembered (fun h => h.length) twoFailures)).map
          (fun suggestions => suggestions.map (·.sortedKeys)) ≠
      demo.suggest (LocalGuildStore.operations .strict) "echo" [] none
        (FailureKnowledgeBase.demo.written .strict (fun h => h.length) twoFailures) := by
  obtain ⟨records, records', hmemory, hfile, hsame⟩ :=
    FailureKnowledgeBase.demo.guidance_same (fun h => h.length) Pydantic.strict_lawful
      twoFailures_carried twoFailures_room twoFailures_digits
  have hagree := suggest_same demo Pydantic.strict_lawful hmemory hfile hsame "echo" [] none
  have hties : (demo.suggest MemoryGuildStore.operations "echo" [] none
      (FailureKnowledgeBase.demo.remembered (fun h => h.length) twoFailures)).toOption.map
        (fun suggestions => decide (TiesInOrder suggestions)) = some false := by decide +kernel
  generalize demo.suggest MemoryGuildStore.operations "echo" [] none
    (FailureKnowledgeBase.demo.remembered (fun h => h.length) twoFailures) = outcome
    at hagree hties ⊢
  intro heq
  rw [← heq] at hagree
  cases outcome with
  | error e => cases hties
  | ok suggestions =>
      have hdecided : decide (TiesInOrder suggestions) = false := Option.some.inj hties
      cases hagree with
      | ok hsame => exact of_decide_eq_false hdecided (hsame.eq_iff.mp rfl)

end DefaultPeerSuggestionEngine

end Conductor
