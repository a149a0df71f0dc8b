/-
Dicts of a Python program and what JSON makes of them.  A value without a place in
JSON is dumped as the one that stands for it there, and what was dumped and
written is read back.
-/
import Conductor.Python.Pydantic

namespace Conductor

open Json

namespace Json

theorem refusalList_eq_none {items : List Value} :
    refusalList items = none ↔ ∀ value ∈ items, refusal value = none := by
  induction items with
  | nil => simp [refusalList]
  | cons value rest ih => rw [refusalList, Option.or_eq_none_iff, ih, List.forall_mem_cons]

theorem refusalItems_eq_none {items : Dict} :
    refusalItems items = none ↔ ∀ item ∈ items, refusal item.2 = none := by
  induction items with
  | nil => simp [refusalItems]
  | cons item rest ih => rw [refusalItems, Option.or_eq_none_iff, ih, List.forall_mem_cons]

/-- What has been written can be. -/
theorem refusal_of_dumps {layout : Layout} {sortKeys : Bool} {value : Value} {text : String}
    (htext : dumps layout sortKeys value = .ok text) : refusal value = none := by
  rw [dumps] at htext
  cases hrefusal : refusal value with
  | none => rfl
  | some e =>
      rw [hrefusal] at htext
      cases htext

end Json

namespace Pydantic

variable (p : Pydantic)

mutual

/-- A value of a Python program: no key is twice in a dict, a float is finite,
and a foreign object has its place in JSON, if it can be dumped. -/
def Ordinary : Value → Prop
  | .none | .bool _ | .int _ | .str _ | .datetime _ => True
  | .float text => IsFloat text
  | .list items => OrdinaryList items
  | .dict items => (Assoc.keys items).Nodup ∧ OrdinaryItems items
  | .object typeName =>
      ∀ value, p.dumpObject typeName = .ok value → refusal value = none → Faithful value

def OrdinaryList : List Value → Prop
  | [] => True
  | value :: rest => Ordinary value ∧ OrdinaryList rest

def OrdinaryItems : Dict → Prop
  | [] => True
  | (_, value) :: rest => Ordinary value ∧ OrdinaryItems rest

end

variable {p}

theorem ordinaryList_iff {items : List Value} :
    p.OrdinaryList items ↔ ∀ value ∈ items, p.Ordinary value := by
  induction items with
  | nil => simp [OrdinaryList]
  | cons value rest ih => rw [OrdinaryList, ih, List.forall_mem_cons]

theorem ordinaryItems_iff {items : Dict} :
    p.OrdinaryItems items ↔ ∀ item ∈ items, p.Ordinary item.2 := by
  induction items with
  | nil => simp [OrdinaryItems]
  | cons item rest ih => rw [OrdinaryItems, ih, List.forall_mem_cons]

theorem jsonModeList_cons {value : Value} {rest dumped : List Value}
    (hdump : p.jsonModeList (value :: rest) = .ok dumped) :
    ∃ value' rest', p.jsonMode value = .ok value' ∧ p.jsonModeList rest = .ok rest' ∧
      dumped = value' :: rest' := by
  rw [jsonModeList] at hdump
  cases hvalue : p.jsonMode value with
  | error e =>
      rw [hvalue] at hdump
      cases hdump
  | ok value' =>
      rw [bind_of_ok hvalue] at hdump
      cases hrest : p.jsonModeList rest with
      | error e =>
          rw [hrest] at hdump
          cases hdump
      | ok rest' =>
          rw [bind_of_ok hrest] at hdump
          cases hdump
          exact ⟨value', rest', rfl, rfl, rfl⟩

theorem jsonModeItems_cons {key : String} {value : Value} {rest dumped : Dict}
    (hdump : p.jsonModeItems ((key, value) :: rest) = .ok dumped) :
    ∃ value' rest', p.jsonMode value = .ok value' ∧ p.jsonModeItems rest = .ok rest' ∧
      dumped = (key, value') :: rest' := by
  rw [jsonModeItems] at hdump
  cases hvalue : p.jsonMode value with
  | error e =>
      rw [hvalue] at hdump
      cases hdump
  | ok value' =>
      rw [bind_of_ok hvalue] at hdump
      cases hrest : p.jsonModeItems rest with
      | error e =>
          rw [hrest] at hdump
          cases hdump
      | ok rest' =>
          rw [bind_of_ok hrest] at hdump
          cases hdump
          exact ⟨value', rest', rfl, rfl, rfl⟩

theorem keys_jsonModeItems {items dumped : Dict} (hdump : p.jsonModeItems items = .ok dumped) :
    Assoc.keys dumped = Assoc.keys items := by
  induction items generalizing dumped with
  | nil =>
      cases hdump
      rfl
  | cons item rest ih =>
      obtain ⟨value', rest', -, hrest, rfl⟩ := jsonModeItems_cons hdump
      rw [Assoc.keys_cons, Assoc.keys_cons, ih hrest]

/-- What is dumped of an ordinary value can be read back, if it can be written. -/
theorem faithful_of_jsonMode {value dumped : Value} (hvalue : p.Ordinary value)
    (hdump : p.jsonMode value = .ok dumped) (hwritten : refusal dumped = none) :
    Faithful dumped := by
  induction value using value_induction generalizing dumped with
  | hscalar value hlist hdict =>
      cases value with
      | list items => exact absurd rfl (hlist items)
      | dict items => exact absurd rfl (hdict items)
      | int n =>
          cases hdump
          by_contra hbig
          rw [refusal, if_pos (Nat.not_lt.mp hbig)] at hwritten
          cases hwritten
      | float text =>
          cases hdump
          exact hvalue
      | object typeName => exact hvalue dumped hdump hwritten
      | none | bool b | str s | datetime t =>
          cases hdump
          trivial
  | hlist items ih =>
      rw [Ordinary, ordinaryList_iff] at hvalue
      rw [jsonMode] at hdump
      cases hitems : p.jsonModeList items with
      | error e =>
          rw [hitems] at hdump
          cases hdump
      | ok dumpedItems =>
          rw [hitems] at hdump
          cases hdump
          rw [refusal, refusalList_eq_none] at hwritten
          rw [Faithful, faithfulList_iff]
          induction items generalizing dumpedItems with
          | nil =>
              cases hitems
              exact List.forall_mem_nil _
          | cons value rest ihrest =>
              obtain ⟨value', rest', hfirst, hrest, rfl⟩ := jsonModeList_cons hitems
              rw [List.forall_mem_cons] at ih hvalue hwritten ⊢
              exact ⟨ih.1 hvalue.1 hfirst hwritten.1,
                ihrest ih.2 hvalue.2 rest' hrest hwritten.2⟩
  | hdict items ih =>
      rw [Ordinary, ordinaryItems_iff] at hvalue
      obtain ⟨hkeys, hvalue⟩ := hvalue
      rw [jsonMode] at hdump
      cases hitems : p.jsonModeItems items with
      | error e =>
          rw [hitems] at hdump
          cases hdump
      | ok dumpedItems =>
          rw [hitems] at hdump
          cases hdump
          rw [refusal, refusalItems_eq_none] at hwritten
          rw [Faithful, faithfulItems_iff]
          refine ⟨?_, ?_⟩
          · rw [← keys_jsonModeItems hitems] at hkeys
            exact hkeys
          clear hkeys
          induction items generalizing dumpedItems with
          | nil =>
              cases hitems
              exact List.forall_mem_nil _
          | cons item rest ihrest =>
              obtain ⟨value', rest', hfirst, hrest, rfl⟩ := jsonModeItems_cons hitems
              rw [List.forall_mem_cons] at ih hvalue hwritten ⊢
              exact ⟨ih.1 hvalue.1 hfirst hwritten.1,
                ihrest ih.2 hvalue.2 rest' hrest hwritten.2⟩

theorem faithful_of_jsonModeItems {items dumped : Dict} (hitems : p.Ordinary (.dict items))
    (hdump : p.jsonModeItems items = .ok dumped) (hwritten : refusal (.dict dumped) = none) :
    Faithful (.dict dumped) := by
  apply faithful_of_jsonMode hitems _ hwritten
  rw [jsonMode, hdump]
  rfl

/-- The dict has a dump in JSON mode, and JSON carries this dump. -/
def Dumpable (p : Pydantic) (d : Dict) : Prop :=
  ∃ dump, p.jsonModeItems d = .ok dump ∧ Faithful (.dict dump)

/-- The dict that comes back from a file, which is the dump with sorted keys. -/
def dumped (p : Pydantic) (d : Dict) : Dict :=
  match p.jsonModeItems d with
  | .ok dump => sortedDict dump
  | .error _ => d

theorem dumped_eq {d dump : Dict} (hdump : p.jsonModeItems d = .ok dump) :
    p.dumped d = sortedDict dump := by
  rw [dumped, hdump]

theorem dumpable_of_faithful {d : Dict} (hd : Faithful (.dict d)) : p.Dumpable d :=
  ⟨d, p.jsonModeItems_eq hd, hd⟩

theorem jsonModeItems_insert {d dump : Dict} {key : String} {value value' : Value}
    (hdump : p.jsonModeItems d = .ok dump) (hvalue : p.jsonMode value = .ok value') :
    p.jsonModeItems (Assoc.insert key value d) = .ok (Assoc.insert key value' dump) := by
  induction d generalizing dump with
  | nil =>
      cases hdump
      rw [Assoc.insert, Assoc.insert, jsonModeItems, bind_of_ok hvalue]
      rfl
  | cons item rest ih =>
      obtain ⟨k, old⟩ := item
      obtain ⟨old', rest', hold, hrest, rfl⟩ := jsonModeItems_cons hdump
      rw [Assoc.insert, Assoc.insert]
      by_cases hk : k = key
      · rw [if_pos hk, if_pos hk, jsonModeItems, bind_of_ok hvalue, bind_of_ok hrest]
        rfl
      · rw [if_neg hk, if_neg hk, jsonModeItems, bind_of_ok hold, bind_of_ok (ih hrest)]
        rfl

theorem Dumpable.update {d other : Dict} (hd : p.Dumpable d) (hother : p.Dumpable other) :
    p.Dumpable (Dict.update d other) := by
  obtain ⟨dump', hdump', hfaithful'⟩ := hother
  rw [Faithful, faithfulItems_iff] at hfaithful'
  have hitems := hfaithful'.2
  clear hfaithful'
  unfold Dict.update
  induction other generalizing d dump' with
  | nil => exact hd
  | cons item rest ih =>
      obtain ⟨key, value⟩ := item
      obtain ⟨value', rest', hvalue, hrest, rfl⟩ := jsonModeItems_cons hdump'
      obtain ⟨dump, hdump, hfaithful⟩ := hd
      rw [List.forall_mem_cons] at hitems
      rw [List.foldl_cons, Dict.insert_eq]
      refine ih ⟨_, jsonModeItems_insert hdump hvalue, ?_⟩ rest' hrest hitems.2
      exact faithful_insert hfaithful hitems.1

/-- What came back from a file is dumped as it is. -/
theorem Dumpable.dumped {d : Dict} (hd : p.Dumpable d) : p.Dumpable (p.dumped d) := by
  obtain ⟨dump, hdump, hfaithful⟩ := hd
  rw [dumped_eq hdump]
  apply dumpable_of_faithful
  exact hfaithful.sorted

end Pydantic

end Conductor
