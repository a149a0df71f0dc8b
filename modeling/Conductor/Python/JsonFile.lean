/-
A dict of records that is kept as one JSON file: the text as it is read and
written, and the records that a text holds.
-/
import Conductor.Python.Access
import Conductor.Python.JsonRoundTrip
import Mathlib.Data.String.Basic

namespace Conductor

open Json

/-- The payload of a file, where `none` is a missing file and a blank text is an
empty dict. -/
def readPayload : Option String → Except PyExc Value
  | none => .ok (.dict [])
  | some raw => if isBlank raw then .ok (.dict []) else loads raw

/-- `json.dump(payload, handle, indent=2, sort_keys=True)` and a line end. -/
def payloadText (payload : Dict) : Except PyExc String :=
  (dumps (.indented 2) true (.dict payload)).map (· ++ "\n")

namespace Json

/-- Of two items with one key the later value stands, so each key is there once. -/
theorem nodup_readMembers {fuel : Nat} {items : Dict} {cs rest : List Char} {value : Value}
    (hnodup : (Assoc.keys items).Nodup) (hread : readMembers fuel items cs = .ok (value, rest)) :
    ∃ items', value = .dict items' ∧ (Assoc.keys items').Nodup := by
  induction fuel generalizing items cs with
  | zero => cases hread
  | succ fuel ih =>
      rw [readMembers] at hread
      split at hread
      · cases hread
      split at hread
      · cases hread
      rename_i key _ _ _ value' _ _
      have hnodup' : (Assoc.keys (Dict.insert key value' items)).Nodup := by
        rw [Dict.insert_eq]
        exact Assoc.nodup_insert hnodup
      dsimp only at hread
      split at hread
      · cases hread
        exact ⟨_, rfl, hnodup'⟩
      · exact ih hnodup' hread
      · cases hread

theorem readElements_ne_dict {rest : List Char} {items : Dict} (fuel : Nat) (values : List Value)
    (cs : List Char) : readElements fuel values cs ≠ .ok (.dict items, rest) := by
  induction fuel generalizing values cs with
  | zero => nofun
  | succ fuel ih =>
      intro hread
      rw [readElements] at hread
      split at hread
      · cases hread
      dsimp only at hread
      split at hread
      · cases hread
      · exact ih _ _ hread
      · cases hread

/-- What is neither a text, a list nor a dict is no dict. -/
theorem readScalar_ne_dict {cs rest : List Char} {items : Dict} :
    readScalar cs ≠ .ok (.dict items, rest) := by
  have hunsigned (negative : Bool) (cs : List Char) :
      readUnsigned negative cs ≠ .ok (.dict items, rest) := by
    intro hread
    unfold readUnsigned intOf at hread
    dsimp only at hread
    split at hread
    · cases hread
    split at hread
    · split at hread <;> cases hread
    · cases hread
  intro hread
  unfold readScalar at hread
  split at hread
  · rename_i read hliteral
    cases hread
    simp only [readLiteral, literals] at hliteral
    repeat' split at hliteral
    all_goals cases hliteral
  · unfold readNumber at hread
    split at hread
    · exact hunsigned true _ hread
    · exact hunsigned false _ hread

theorem nodup_readValue {fuel : Nat} {cs rest : List Char} {items : Dict}
    (hread : readValue fuel cs = .ok (.dict items, rest)) : (Assoc.keys items).Nodup := by
  cases fuel with
  | zero => cases hread
  | succ fuel =>
      cases cs with
      | nil => cases hread
      | cons c cs =>
          rw [readValue] at hread
          split at hread
          · cases hstring : readString cs.length cs <;> rw [hstring] at hread <;> cases hread
          split at hread
          · dsimp only at hread
            split at hread
            · cases hread
            · exact absurd hread (readElements_ne_dict _ _ _)
          split at hread
          · dsimp only at hread
            split at hread
            · cases hread
              exact List.nodup_nil
            · have hnone : (Assoc.keys ([] : Dict)).Nodup := List.nodup_nil
              obtain ⟨items', hitems, hnodup⟩ := nodup_readMembers hnone hread
              cases hitems
              exact hnodup
          · exact absurd hread readScalar_ne_dict

theorem nodup_loads {text : String} {items : Dict} (hread : loads text = .ok (.dict items)) :
    (Assoc.keys items).Nodup := by
  unfold loads at hread
  dsimp only at hread
  split at hread
  · cases hread
  split at hread
  · cases hread
  · rename_i hvalue
    split at hread
    · cases hread
      exact nodup_readValue hvalue
    · cases hread

theorem nodup_readPayload {content : Option String} {items : Dict}
    (hread : readPayload content = .ok (.dict items)) : (Assoc.keys items).Nodup := by
  cases content with
  | none =>
      cases hread
      exact List.nodup_nil
  | some raw =>
      rw [readPayload] at hread
      split at hread
      · cases hread
        exact List.nodup_nil
      · exact nodup_loads hread

/-- The items by their keys, and so in the dicts below. -/
def sortedDict (items : Dict) : Dict :=
  (sortedItems items).insertionSort fun item item' => item.1 ≤ item'.1

theorem sorted_dict (items : Dict) : sorted (.dict items) = .dict (sortedDict items) := rfl

theorem sortedDict_perm (items : Dict) :
    (sortedDict items).Perm (items.map fun item => (item.1, sorted item.2)) := by
  rw [← sortedItems_eq]
  exact List.perm_insertionSort _ _

theorem lookup_sortedDict {items : Dict} (hkeys : (Assoc.keys items).Nodup) (key : String) :
    (sortedDict items).lookup key = (items.lookup key).map sorted := by
  have hnodup : (Assoc.keys (items.map fun item => (item.1, sorted item.2))).Nodup := by
    unfold Assoc.keys
    rw [List.map_map]
    exact hkeys
  rw [← Assoc.lookup_map (fun _ value => sorted value)]
  exact (Assoc.lookup_perm (sortedDict_perm items).symm hnodup).symm

/-- The order of the items of a sorted dict. -/
abbrev KeyLe (item item' : String × Value) : Prop := item.1 ≤ item'.1

instance : Std.Total KeyLe := ⟨fun item item' => le_total item.1 item'.1⟩

instance : IsTrans (String × Value) KeyLe := ⟨fun _ _ _ => le_trans⟩

theorem sortedItems_insert (key : String) (value : Value) (items : Dict) :
    sortedItems (Assoc.insert key value items) =
      Assoc.insert key (sorted value) (sortedItems items) := by
  induction items with
  | nil => rfl
  | cons item rest ih =>
      obtain ⟨k, old⟩ := item
      rw [Assoc.insert, sortedItems, Assoc.insert]
      by_cases hk : k = key
      · rw [if_pos hk, if_pos hk, sortedItems]
      · rw [if_neg hk, if_neg hk, sortedItems, ih]

/-- A sorted value is left as it is. -/
theorem sorted_sorted (value : Value) : sorted (sorted value) = sorted value := by
  induction value using value_induction with
  | hscalar value hlist hdict =>
      cases value with
      | list items => exact absurd rfl (hlist items)
      | dict items => exact absurd rfl (hdict items)
      | _ => rfl
  | hlist items ih =>
      simp only [sorted, sortedList_eq, List.map_map]
      congr 1
      exact List.map_congr_left ih
  | hdict items ih =>
      have hfixed : ∀ item ∈ sortedDict items, (item.1, sorted item.2) = item := by
        intro item hitem
        rw [(sortedDict_perm items).mem_iff] at hitem
        obtain ⟨item', hmem, rfl⟩ := List.mem_map.mp hitem
        rw [ih item' hmem]
      have hmap : sortedItems (sortedDict items) = sortedDict items := by
        rw [sortedItems_eq]
        exact (List.map_congr_left hfixed).trans (List.map_id _)
      rw [sorted_dict, sorted_dict, sortedDict, hmap]
      exact congrArg Value.dict (List.pairwise_insertionSort KeyLe _).insertionSort_eq

end Json

/-- How records of a type are dumped to JSON values and validated again. -/
structure Codec (R : Type) where
  dump : R → Except PyExc Dict
  validate : Value → Except PyExc R

variable {R : Type}

namespace Codec

/-- A record and the value that stands for it in a file: its dump with the keys
sorted, which is validated to the record up to what `kept` forgets. -/
structure Stands (codec : Codec R) (kept : R → R) (record : R) (value : Value) : Prop where
  faithful : Faithful value
  validate : codec.validate value = .ok (kept record)
  dump : ∃ items, codec.dump record = .ok items ∧ items ≠ [] ∧ Faithful (.dict items) ∧
    value = .dict (sortedDict items)

/-- JSON carries the record. -/
def RoundTrips (codec : Codec R) (kept : R → R) (record : R) : Prop :=
  ∃ value, codec.Stands kept record value

end Codec

/-- `payload[key] = record.model_dump(mode="json")`, written back. -/
def savedText (codec : Codec R) (key : String) (record : R) (content : Option String) :
    Except PyExc String := do
  let payload ← readPayload content
  let raw ← codec.dump record
  payloadText (← payload.setItem key (.dict raw))

/-- `del payload[key]` where the key is there, written back. -/
def deletedText (key : String) (content : Option String) : Except PyExc (Option String) := do
  let payload ← readPayload content
  if ← payload.hasItem key then
    (payloadText (← payload.delItem key)).map some
  else
    return none

/-- The item of the payload for this record. -/
def ItemOf (codec : Codec R) (kept : R → R) (item : String × R) (entry : String × Value) :
    Prop :=
  entry.1 = item.1 ∧ codec.Stands kept item.2 entry.2

/-- The file holds these records under these keys. -/
structure FileHolds (codec : Codec R) (kept : R → R) (content : Option String)
    (records : List (String × R)) : Prop where
  nodup : (Assoc.keys records).Nodup
  payload : ∃ payload, readPayload content = .ok (.dict payload) ∧
    List.Forall₂ (ItemOf codec kept) records payload

/-- Records in the order of their keys. -/
def byKey (records : List (String × R)) : List (String × R) :=
  records.insertionSort fun item item' => item.1 ≤ item'.1

theorem byKey_perm (records : List (String × R)) : (byKey records).Perm records :=
  List.perm_insertionSort _ _

theorem byKey_pairwise (records : List (String × R)) :
    (byKey records).Pairwise fun item item' => item.1 ≤ item'.1 :=
  @List.pairwise_insertionSort _ (fun item item' : String × R => item.1 ≤ item'.1) _
    ⟨fun item item' => le_total item.1 item'.1⟩ ⟨fun _ _ _ => le_trans⟩ records

theorem nodup_byKey {records : List (String × R)} (hnodup : (Assoc.keys records).Nodup) :
    (Assoc.keys (byKey records)).Nodup :=
  ((byKey_perm records).map _).nodup_iff.mpr hnodup

theorem mem_keys_byKey {records : List (String × R)} {key : String} :
    key ∈ Assoc.keys (byKey records) ↔ key ∈ Assoc.keys records :=
  ((byKey_perm records).map _).mem_iff

theorem lookup_byKey {records : List (String × R)} (hnodup : (Assoc.keys records).Nodup)
    (key : String) : (byKey records).lookup key = records.lookup key :=
  (Assoc.lookup_perm (byKey_perm records).symm hnodup).symm

section Items

variable {codec : Codec R} {kept : R → R} {records : List (String × R)} {payload : Dict}

theorem keys_of_forall₂ (hitems : List.Forall₂ (ItemOf codec kept) records payload) :
    Assoc.keys payload = Assoc.keys records := by
  induction hitems with
  | nil => rfl
  | cons hitem _ ih => rw [Assoc.keys_cons, Assoc.keys_cons, hitem.1, ih]

theorem lookup_of_forall₂ {key : String} {record : R}
    (hitems : List.Forall₂ (ItemOf codec kept) records payload)
    (hlookup : records.lookup key = some record) :
    ∃ value, payload.lookup key = some value ∧ codec.Stands kept record value := by
  induction hitems with
  | nil => cases hlookup
  | cons hitem hrest ih =>
      rename_i item entry records payload
      obtain ⟨k, old⟩ := item
      obtain ⟨k', value⟩ := entry
      obtain ⟨hk, hstands⟩ := hitem
      dsimp only at hk
      subst hk
      by_cases hkey : key = k'
      · subst hkey
        rw [List.lookup_cons_self] at hlookup
        cases hlookup
        exact ⟨value, List.lookup_cons_self, hstands⟩
      · rw [Assoc.lookup_cons_of_ne hkey] at hlookup ⊢
        exact ih hlookup

theorem lookup_none_of_forall₂ {key : String}
    (hitems : List.Forall₂ (ItemOf codec kept) records payload)
    (hlookup : records.lookup key = none) : payload.lookup key = none := by
  rw [Assoc.lookup_eq_none_iff] at hlookup ⊢
  rwa [keys_of_forall₂ hitems]

/-- Every value of the payload is validated. -/
theorem validate_of_forall₂ (hitems : List.Forall₂ (ItemOf codec kept) records payload) :
    payload.mapM (fun entry => codec.validate entry.2) =
      .ok (records.map fun item => kept item.2) := by
  induction hitems with
  | nil => rfl
  | cons hitem _ ih =>
      rw [List.mapM_cons, hitem.2.validate, ih]
      rfl

theorem faithful_of_forall₂ (hitems : List.Forall₂ (ItemOf codec kept) records payload)
    (hnodup : (Assoc.keys records).Nodup) : Faithful (.dict payload) := by
  rw [Faithful, faithfulItems_iff]
  constructor
  · rw [← keys_of_forall₂ hitems] at hnodup
    exact hnodup
  · clear hnodup
    induction hitems with
    | nil => exact List.forall_mem_nil _
    | cons hitem _ ih => exact List.forall_mem_cons.mpr ⟨hitem.2.faithful, ih⟩

/-- The values of the payload are sorted already. -/
theorem sortedItems_of_forall₂ (hitems : List.Forall₂ (ItemOf codec kept) records payload) :
    sortedItems payload = payload := by
  induction hitems with
  | nil => rfl
  | cons hitem hrest ih =>
      rename_i item entry records payload
      obtain ⟨items, -, -, -, hvalue⟩ := hitem.2.dump
      have hsorted : sorted entry.2 = entry.2 := by
        rw [hvalue, ← sorted_dict, sorted_sorted]
      rw [sortedItems, ih, hsorted]

theorem forall₂_insert {key : String} {record : R} {value : Value}
    (hitems : List.Forall₂ (ItemOf codec kept) records payload)
    (hstands : codec.Stands kept record value) :
    List.Forall₂ (ItemOf codec kept) (Assoc.insert key record records)
      (Assoc.insert key value payload) := by
  induction hitems with
  | nil => exact .cons ⟨rfl, hstands⟩ .nil
  | cons hhead hrest ih =>
      rename_i item entry records payload
      obtain ⟨k, old⟩ := item
      obtain ⟨k', raw⟩ := entry
      obtain ⟨hk, hold⟩ := hhead
      dsimp only at hk
      subst hk
      rw [Assoc.insert, Assoc.insert]
      by_cases hkey : k' = key
      · rw [if_pos hkey, if_pos hkey]
        exact .cons ⟨rfl, hstands⟩ hrest
      · rw [if_neg hkey, if_neg hkey]
        exact .cons ⟨rfl, hold⟩ ih

theorem forall₂_erase (key : String) (hitems : List.Forall₂ (ItemOf codec kept) records payload) :
    List.Forall₂ (ItemOf codec kept) (Assoc.erase key records) (Assoc.erase key payload) := by
  induction hitems with
  | nil => exact .nil
  | cons hhead hrest ih =>
      rename_i item entry records payload
      obtain ⟨k, old⟩ := item
      obtain ⟨k', raw⟩ := entry
      obtain ⟨hk, hold⟩ := hhead
      dsimp only at hk
      subst hk
      rw [Assoc.erase, Assoc.erase]
      by_cases hkey : k' = key
      · rw [if_pos hkey, if_pos hkey]
        exact hrest
      · rw [if_neg hkey, if_neg hkey]
        exact .cons ⟨rfl, hold⟩ ih

theorem forall₂_orderedInsert {item : String × R} {entry : String × Value}
    (hitem : ItemOf codec kept item entry)
    (hitems : List.Forall₂ (ItemOf codec kept) records payload) :
    List.Forall₂ (ItemOf codec kept)
      (records.orderedInsert (fun item item' => item.1 ≤ item'.1) item)
      (payload.orderedInsert KeyLe entry) := by
  induction hitems with
  | nil => exact .cons hitem .nil
  | cons hhead hrest ih =>
      rename_i item' entry' records payload
      have hle : KeyLe entry entry' ↔ item.1 ≤ item'.1 := by
        unfold KeyLe
        rw [hitem.1, hhead.1]
      rw [List.orderedInsert_cons, List.orderedInsert_cons]
      by_cases hkeys : item.1 ≤ item'.1
      · rw [if_pos hkeys, if_pos (hle.mpr hkeys)]
        exact .cons hitem (.cons hhead hrest)
      · rw [if_neg hkeys, if_neg (fun h => hkeys (hle.mp h))]
        exact .cons hhead ih

/-- Records and payload are sorted alike. -/
theorem forall₂_byKey (hitems : List.Forall₂ (ItemOf codec kept) records payload) :
    List.Forall₂ (ItemOf codec kept) (byKey records) (sortedDict payload) := by
  rw [sortedDict, sortedItems_of_forall₂ hitems]
  induction hitems with
  | nil => exact .nil
  | cons hhead _ ih => exact forall₂_orderedInsert hhead ih

end Items

theorem faithful_insert {key : String} {value : Value} {items : Dict}
    (hitems : Faithful (.dict items)) (hvalue : Faithful value) :
    Faithful (.dict (Assoc.insert key value items)) := by
  rw [Faithful, faithfulItems_iff] at hitems ⊢
  refine ⟨Assoc.nodup_insert hitems.1, fun item hitem => ?_⟩
  rcases Assoc.mem_insert hitem with hold | rfl
  · exact hitems.2 item hold
  · exact hvalue

theorem render_dict (layout : Layout) (level : Nat) (items : Dict) :
    ∃ cs, render layout level (.dict items) = '\x7b' :: cs := by
  cases items with
  | nil => exact ⟨_, rfl⟩
  | cons item rest => exact ⟨_, rfl⟩

theorem dumps_dict_not_blank {layout : Layout} {items : Dict} {text : String} (trailing : String)
    (hdumps : dumps layout true (.dict items) = .ok text) :
    isBlank (text ++ trailing) = false := by
  unfold dumps at hdumps
  split at hdumps
  · cases hdumps
  · obtain ⟨cs, hcs⟩ := render_dict layout 0 (sortedDict items)
    rw [if_pos rfl, sorted_dict, hcs] at hdumps
    cases hdumps
    have hbrace : isSpace '\x7b' = false := by decide
    simp [isBlank, hbrace]

/-- A payload that is written is read with its keys sorted. -/
theorem payloadText_ok {payload : Dict} (hfaithful : Faithful (.dict payload)) :
    ∃ text, payloadText payload = .ok text ∧
      readPayload (some text) = .ok (.dict (sortedDict payload)) := by
  obtain ⟨text, htext, hloads⟩ := loads_dumps (.indented 2) true hfaithful
  refine ⟨text ++ "\n", by rw [payloadText, htext]; rfl, ?_⟩
  have hnewline : ∀ c ∈ "\n".toList, isWhitespace c = true := by
    intro c hc
    obtain rfl : c = '\n' := by simpa using hc
    rfl
  rw [readPayload, dumps_dict_not_blank "\n" htext]
  exact hloads "\n" hnewline

namespace FileHolds

variable {codec : Codec R} {kept : R → R} {content : Option String}
variable {records : List (String × R)} {key : String}

theorem missing : FileHolds codec kept none [] :=
  ⟨List.nodup_nil, [], rfl, .nil⟩

/-- A record that JSON carries is saved under its key. -/
theorem saved (hfile : FileHolds codec kept content records) {record : R}
    (hrecord : codec.RoundTrips kept record) :
    ∃ text, savedText codec key record content = .ok text ∧
      FileHolds codec kept (some text) (byKey (Assoc.insert key record records)) := by
  obtain ⟨hnodup, payload, hread, hitems⟩ := hfile
  obtain ⟨value, hstands⟩ := hrecord
  obtain ⟨raw, hraw, -, hfaithful, hvalue⟩ := hstands.dump
  have hpayload : Faithful (.dict (Assoc.insert key (.dict raw) payload)) :=
    faithful_insert (faithful_of_forall₂ hitems hnodup) hfaithful
  obtain ⟨text, htext, hback⟩ := payloadText_ok hpayload
  have hitems' : List.Forall₂ (ItemOf codec kept) (Assoc.insert key record records)
      (Assoc.insert key value payload) := forall₂_insert hitems hstands
  -- the keys of the new item are sorted when the payload is written
  have hsorted : sortedDict (Assoc.insert key (.dict raw) payload) =
      sortedDict (Assoc.insert key value payload) := by
    rw [sortedDict, sortedDict, sortedItems_insert, sortedItems_insert, hvalue, sorted_dict,
      ← sorted_dict, sorted_sorted]
  refine ⟨text, ?_, nodup_byKey (Assoc.nodup_insert hnodup), _, hback, ?_⟩
  · rw [savedText, hread, hraw]
    change payloadText (Dict.insert key (.dict raw) payload) = _
    rw [Dict.insert_eq, htext]
  · rw [hsorted]
    exact forall₂_byKey hitems'

theorem hasItem_eq {payload : Dict} (hitems : List.Forall₂ (ItemOf codec kept) records payload) :
    (Value.dict payload).hasItem key = .ok (decide (key ∈ Assoc.keys records)) := by
  rw [← keys_of_forall₂ hitems, Value.hasItem, Assoc.keys]
  congr 1
  rw [Bool.eq_iff_iff, decide_eq_true_iff]
  simp

/-- The item of a key that is there is deleted. -/
theorem deleted (hfile : FileHolds codec kept content records)
    (hkey : key ∈ Assoc.keys records) :
    ∃ text, deletedText key content = .ok (some text) ∧
      FileHolds codec kept (some text) (byKey (Assoc.erase key records)) := by
  obtain ⟨hnodup, payload, hread, hitems⟩ := hfile
  have hitems' := forall₂_erase key hitems
  have hnodup' : (Assoc.keys (Assoc.erase key records)).Nodup := Assoc.nodup_erase hnodup
  obtain ⟨text, htext, hback⟩ := payloadText_ok (faithful_of_forall₂ hitems' hnodup')
  refine ⟨text, ?_, nodup_byKey hnodup', _, hback, forall₂_byKey hitems'⟩
  have hhas : (Value.dict payload).hasItem key = .ok (decide (key ∈ Assoc.keys records)) :=
    hasItem_eq hitems
  rw [decide_eq_true hkey] at hhas
  rw [deletedText, hread]
  change (do if ← (Value.dict payload).hasItem key then _ else _) = _
  rw [hhas]
  change (payloadText (Assoc.erase key payload)).map some = _
  rw [htext]
  rfl

theorem not_deleted (hfile : FileHolds codec kept content records)
    (hkey : key ∉ Assoc.keys records) : deletedText key content = .ok none := by
  obtain ⟨hnodup, payload, hread, hitems⟩ := hfile
  have hhas : (Value.dict payload).hasItem key = .ok (decide (key ∈ Assoc.keys records)) :=
    hasItem_eq hitems
  rw [decide_eq_false hkey] at hhas
  rw [deletedText, hread]
  change (do if ← (Value.dict payload).hasItem key then _ else _) = _
  rw [hhas]
  rfl

end FileHolds

end Conductor
