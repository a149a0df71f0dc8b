/-
Dicts as association lists, over any type of keys: setting and deleting an item,
and looking one up.
-/
import Mathlib.Data.List.Induction
import Mathlib.Data.List.Sort
import Mathlib.Data.List.Nodup
import Mathlib.Tactic.Common

namespace Conductor

namespace Assoc

variable {K V W : Type*}

/-- The keys, in the order of the items. -/
def keys (items : List (K × V)) : List K := items.map (·.1)

@[simp] theorem keys_nil : keys ([] : List (K × V)) = [] := rfl

@[simp] theorem keys_cons (item : K × V) (items : List (K × V)) :
    keys (item :: items) = item.1 :: keys items := rfl

theorem mem_keys_of_mem {item : K × V} {items : List (K × V)} (hmem : item ∈ items) :
    item.1 ∈ keys items :=
  List.mem_map_of_mem hmem

variable [DecidableEq K]

/-- `d[key] = value`: an existing key keeps its place. -/
def insert (key : K) (value : V) : List (K × V) → List (K × V)
  | [] => [(key, value)]
  | (k, v) :: rest => if k = key then (k, value) :: rest else (k, v) :: insert key value rest

/-- `del d[key]`. -/
def erase (key : K) : List (K × V) → List (K × V)
  | [] => []
  | (k, v) :: rest => if k = key then rest else (k, v) :: erase key rest

theorem lookup_cons_of_ne {key key' : K} (hne : key ≠ key') (value : V) (items : List (K × V)) :
    ((key', value) :: items).lookup key = items.lookup key := by
  rw [List.lookup_cons, beq_eq_false_iff_ne.mpr hne]

theorem lookup_insert (key key' : K) (value : V) (items : List (K × V)) :
    (insert key value items).lookup key' =
      if key' = key then some value else items.lookup key' := by
  induction items with
  | nil =>
      by_cases hkey : key' = key
      · rw [hkey, insert, List.lookup_cons_self, if_pos rfl]
      · rw [insert, lookup_cons_of_ne hkey, if_neg hkey]
  | cons item rest ih =>
      obtain ⟨k, v⟩ := item
      rw [insert]
      by_cases hk : k = key
      · subst hk
        rw [if_pos rfl]
        by_cases hkey : key' = k
        · rw [hkey, if_pos rfl, List.lookup_cons_self]
        · rw [if_neg hkey, lookup_cons_of_ne hkey, lookup_cons_of_ne hkey]
      · rw [if_neg hk]
        by_cases hkey : key' = k
        · rw [hkey, if_neg hk, List.lookup_cons_self, List.lookup_cons_self]
        · rw [lookup_cons_of_ne hkey, lookup_cons_of_ne hkey, ih]

theorem keys_insert (key : K) (value : V) (items : List (K × V)) :
    keys (insert key value items) =
      if key ∈ keys items then keys items else keys items ++ [key] := by
  induction items with
  | nil => rfl
  | cons item rest ih =>
      obtain ⟨k, v⟩ := item
      rw [insert]
      by_cases hk : k = key
      · simp [hk]
      · rw [if_neg hk, keys_cons, ih]
        have hmem : key ∈ keys ((k, v) :: rest) ↔ key ∈ keys rest := by
          simp [Ne.symm hk]
        by_cases hkey : key ∈ keys rest
        · rw [if_pos hkey, if_pos (hmem.mpr hkey), keys_cons]
        · rw [if_neg hkey, if_neg (fun h => hkey (hmem.mp h)), keys_cons, List.cons_append]

theorem nodup_insert {key : K} {value : V} {items : List (K × V)} (hnodup : (keys items).Nodup) :
    (keys (insert key value items)).Nodup := by
  rw [keys_insert]
  split
  · exact hnodup
  · rename_i hkey
    exact List.nodup_append'.mpr ⟨hnodup, List.nodup_singleton key, by simpa using hkey⟩

theorem mem_insert {key : K} {value : V} {items : List (K × V)} {item : K × V}
    (hmem : item ∈ insert key value items) : item ∈ items ∨ item = (key, value) := by
  induction items with
  | nil => exact .inr (List.mem_singleton.mp hmem)
  | cons head rest ih =>
      obtain ⟨k, v⟩ := head
      rw [insert] at hmem
      split at hmem
      · rename_i hk
        rcases List.mem_cons.mp hmem with rfl | hrest
        · exact .inr (by rw [hk])
        · exact .inl (List.mem_cons_of_mem _ hrest)
      · rcases List.mem_cons.mp hmem with rfl | hrest
        · exact .inl List.mem_cons_self
        · exact (ih hrest).imp_left (List.mem_cons_of_mem _)

theorem lookup_eq_none_iff {key : K} {items : List (K × V)} :
    items.lookup key = none ↔ key ∉ keys items := by
  induction items with
  | nil => simp
  | cons item rest ih =>
      obtain ⟨k, v⟩ := item
      by_cases hk : key = k
      · simp [hk]
      · rw [lookup_cons_of_ne hk, ih, keys_cons, List.mem_cons, not_or]
        exact (and_iff_right hk).symm

theorem any_key (key : String) (items : List (String × V)) :
    (items.any fun item => item.1 == key) = (items.lookup key).isSome := by
  induction items with
  | nil => rfl
  | cons item rest ih =>
      rw [List.any_cons, List.lookup_cons, ih]
      by_cases hkey : item.1 = key
      · rw [hkey, beq_self_eq_true]
        rfl
      · rw [beq_false_of_ne hkey, beq_false_of_ne (Ne.symm hkey), Bool.false_or]

theorem mem_of_lookup {key : K} {value : V} {items : List (K × V)}
    (hlookup : items.lookup key = some value) : (key, value) ∈ items := by
  induction items with
  | nil => cases hlookup
  | cons item rest ih =>
      obtain ⟨k, v⟩ := item
      by_cases hk : key = k
      · subst hk
        rw [List.lookup_cons_self] at hlookup
        cases hlookup
        exact List.mem_cons_self
      · rw [lookup_cons_of_ne hk] at hlookup
        exact List.mem_cons_of_mem _ (ih hlookup)

theorem lookup_of_mem {key : K} {value : V} {items : List (K × V)} (hnodup : (keys items).Nodup)
    (hmem : (key, value) ∈ items) : items.lookup key = some value := by
  induction items with
  | nil => cases hmem
  | cons item rest ih =>
      obtain ⟨k, v⟩ := item
      obtain ⟨hk, hrest⟩ := List.nodup_cons.mp hnodup
      rcases List.mem_cons.mp hmem with heq | hbehind
      · cases heq
        exact List.lookup_cons_self
      · have hkey : key ∈ keys rest := mem_keys_of_mem hbehind
        have hne : key ≠ k := by
          rintro rfl
          exact hk hkey
        rw [lookup_cons_of_ne hne]
        exact ih hrest hbehind

/-- The order of the items does not matter to a lookup. -/
theorem lookup_perm {key : K} {items items' : List (K × V)} (hperm : items.Perm items')
    (hnodup : (keys items).Nodup) : items.lookup key = items'.lookup key := by
  have hnodup' : (keys items').Nodup := (hperm.map _).nodup_iff.mp hnodup
  cases hlookup : items'.lookup key with
  | none =>
      rw [lookup_eq_none_iff] at hlookup ⊢
      exact fun hkey => hlookup ((hperm.map _).mem_iff.mp hkey)
  | some value => exact lookup_of_mem hnodup (hperm.mem_iff.mpr (mem_of_lookup hlookup))

/-- Items with distinct keys are told by their lookups. -/
theorem perm_of_lookup {items items' : List (K × V)} (hnodup : (keys items).Nodup)
    (hnodup' : (keys items').Nodup) (hlookup : ∀ key, items.lookup key = items'.lookup key) :
    items.Perm items' := by
  apply (List.perm_ext_iff_of_nodup (.of_map _ hnodup) (.of_map _ hnodup')).mpr
  intro item
  constructor
  · intro hmem
    exact mem_of_lookup ((hlookup item.1).symm.trans (lookup_of_mem hnodup hmem))
  · intro hmem
    exact mem_of_lookup ((hlookup item.1).trans (lookup_of_mem hnodup' hmem))

/-- Of items with distinct keys, each is known by its key. -/
theorem eq_of_key {items : List (K × V)} (hnodup : (keys items).Nodup) {item item' : K × V}
    (hmem : item ∈ items) (hmem' : item' ∈ items) (hkey : item.1 = item'.1) : item = item' := by
  have hvalue := lookup_of_mem hnodup hmem
  rw [hkey, lookup_of_mem hnodup hmem'] at hvalue
  exact Prod.ext hkey (Option.some.inj hvalue.symm)

theorem lookup_map (f : K → V → W) (key : K) (items : List (K × V)) :
    (items.map fun item => (item.1, f item.1 item.2)).lookup key =
      (items.lookup key).map (f key) := by
  induction items with
  | nil => rfl
  | cons item rest ih =>
      obtain ⟨k, v⟩ := item
      rw [List.map_cons]
      by_cases hk : key = k
      · rw [hk, List.lookup_cons_self, List.lookup_cons_self]
        rfl
      · rw [lookup_cons_of_ne hk, lookup_cons_of_ne hk, ih]

theorem insert_map (f : V → W) (key : K) (value : V) (items : List (K × V)) :
    insert key (f value) (items.map fun item => (item.1, f item.2)) =
      (insert key value items).map fun item => (item.1, f item.2) := by
  induction items with
  | nil => rfl
  | cons item rest ih =>
      obtain ⟨k, v⟩ := item
      rw [List.map_cons, insert, insert]
      by_cases hk : k = key
      · rw [if_pos hk, if_pos hk, List.map_cons]
      · rw [if_neg hk, if_neg hk, List.map_cons, ih]

theorem lookup_erase {items : List (K × V)} (hnodup : (keys items).Nodup) (key key' : K) :
    (erase key items).lookup key' = if key' = key then none else items.lookup key' := by
  induction items with
  | nil => simp [erase]
  | cons item rest ih =>
      obtain ⟨k, v⟩ := item
      obtain ⟨hk, hrest⟩ := List.nodup_cons.mp hnodup
      rw [erase]
      by_cases hkey : k = key
      · subst hkey
        rw [if_pos rfl]
        by_cases hkey' : key' = k
        · rw [hkey', if_pos rfl]
          exact lookup_eq_none_iff.mpr hk
        · rw [if_neg hkey', lookup_cons_of_ne hkey']
      · rw [if_neg hkey]
        by_cases hkey' : key' = k
        · rw [hkey', if_neg hkey, List.lookup_cons_self, List.lookup_cons_self]
        · rw [lookup_cons_of_ne hkey', lookup_cons_of_ne hkey', ih hrest]

theorem erase_sublist (key : K) (items : List (K × V)) : (erase key items).Sublist items := by
  induction items with
  | nil => exact List.Sublist.slnil
  | cons item rest ih =>
      obtain ⟨k, v⟩ := item
      rw [erase]
      split
      · exact List.sublist_cons_self _ _
      · exact ih.cons_cons _

theorem erase_of_not_mem {key : K} {items : List (K × V)}
    (hkey : key ∉ keys items) : erase key items = items := by
  induction items with
  | nil => rfl
  | cons item rest ih =>
      obtain ⟨k, v⟩ := item
      rw [keys_cons, List.mem_cons, not_or] at hkey
      rw [erase, if_neg (Ne.symm hkey.1), ih hkey.2]

theorem nodup_erase {key : K} {items : List (K × V)} (hnodup : (keys items).Nodup) :
    (keys (erase key items)).Nodup :=
  ((erase_sublist key items).map _).nodup hnodup

/-- `d.setdefault(key, []).append(value)`. -/
def appendTo (key : K) (value : V) (items : List (K × List V)) : List (K × List V) :=
  insert key ((items.lookup key).getD [] ++ [value]) items

/-- The values under their keys, each group in the order of the values; what
has no key is left out. -/
def groupBy (key : V → Option K) (values : List V) : List (K × List V) :=
  values.foldl (fun items value =>
    match key value with
    | none => items
    | some k => appendTo k value items) []

theorem groupBy_concat (key : V → Option K) (values : List V) (value : V) :
    groupBy key (values ++ [value]) =
      match key value with
      | none => groupBy key values
      | some k => appendTo k value (groupBy key values) := by
  rw [groupBy, List.foldl_append]
  rfl

theorem nodup_groupBy (key : V → Option K) (values : List V) :
    (keys (groupBy key values)).Nodup := by
  induction values using List.reverseRecOn with
  | nil => exact List.nodup_nil
  | append_singleton values value ih =>
      rw [groupBy_concat]
      cases key value with
      | none => exact ih
      | some k => exact nodup_insert ih

/-- A key holds the values of that key, if there are any. -/
theorem lookup_groupBy (key : V → Option K) (values : List V) (k : K) :
    (groupBy key values).lookup k =
      if ∃ value ∈ values, key value = some k then
        some (values.filter fun value => key value = some k)
      else none := by
  induction values using List.reverseRecOn with
  | nil => simp [groupBy]
  | append_singleton values value ih =>
      rw [groupBy_concat, List.filter_append]
      cases hkey : key value with
      | none => simp [ih, hkey]
      | some k' =>
          simp only [appendTo, lookup_insert]
          by_cases hk : k = k'
          · subst hk
            have hsome : ∃ value' ∈ values ++ [value], key value' = some k := ⟨value, by simp, hkey⟩
            rw [if_pos rfl, ih, if_pos hsome]
            by_cases hearlier : ∃ value' ∈ values, key value' = some k
            · rw [if_pos hearlier]
              simp [hkey]
            · have hempty : values.filter (fun value' => key value' = some k) = [] := by
                simpa using hearlier
              rw [if_neg hearlier, hempty]
              simp [hkey]
          · rw [if_neg hk, ih]
            simp [hkey, Ne.symm hk]

/-- The values of a group are those of its key. -/
theorem mem_groupBy {label : V → K} {values : List V} {group : K × List V} :
    group ∈ groupBy (fun value => some (label value)) values ↔
      (∃ value ∈ values, label value = group.1) ∧
        group.2 = values.filter fun value => label value = group.1 := by
  have hlookup := lookup_groupBy (fun value => some (label value)) values group.1
  simp only [Option.some.injEq] at hlookup
  constructor
  · intro hmem
    rw [lookup_of_mem (nodup_groupBy _ values) hmem] at hlookup
    split at hlookup
    · next hlabel => exact ⟨hlabel, Option.some.inj hlookup⟩
    · cases hlookup
  · intro hgroup
    rw [if_pos hgroup.1, ← hgroup.2] at hlookup
    exact mem_of_lookup hlookup

theorem mem_keys_groupBy {label : V → K} {values : List V} {key : K} :
    key ∈ keys (groupBy (fun value => some (label value)) values) ↔
      ∃ value ∈ values, label value = key := by
  constructor
  · intro hmem
    obtain ⟨group, hgroup, hkey⟩ := List.mem_map.mp hmem
    rw [← hkey]
    exact (mem_groupBy.mp hgroup).1
  · intro hlabel
    have hmem : (key, values.filter fun value => label value = key) ∈
        groupBy (fun value => some (label value)) values := mem_groupBy.mpr ⟨hlabel, rfl⟩
    exact mem_keys_of_mem hmem

theorem flatMap_appendTo_perm (key : K) (value : V) (items : List (K × List V)) :
    ((appendTo key value items).flatMap (·.2)).Perm (value :: items.flatMap (·.2)) := by
  unfold appendTo
  induction items with
  | nil => exact .refl _
  | cons item rest ih =>
      obtain ⟨k, group⟩ := item
      rw [insert]
      by_cases hkey : k = key
      · rw [if_pos hkey, hkey, List.lookup_cons_self, List.flatMap_cons, List.flatMap_cons]
        rw [Option.getD_some, List.append_assoc]
        exact List.perm_middle
      · rw [if_neg hkey, lookup_cons_of_ne (Ne.symm hkey), List.flatMap_cons, List.flatMap_cons]
        exact (ih.append_left group).trans List.perm_middle

/-- The groups hold the values, each once. -/
theorem flatMap_groupBy_perm (label : V → K) (values : List V) :
    ((groupBy (fun value => some (label value)) values).flatMap (·.2)).Perm values := by
  induction values using List.reverseRecOn with
  | nil => exact .refl _
  | append_singleton values value ih =>
      rw [groupBy_concat]
      apply (flatMap_appendTo_perm _ _ _).trans
      exact (ih.cons value).trans (List.perm_append_singleton value values).symm

end Assoc

end Conductor
