/-
Sorting: `sorted(values, key=key, reverse=True)`, the greatest key first, where
values of one key keep their order; and `sorted` of a set.
-/
import Mathlib.Data.List.Dedup
import Mathlib.Data.List.Sort
import Mathlib.Order.Defs.LinearOrder

namespace Conductor

universe u v

variable {α : Type u} {β : Type v} [LinearOrder β] {key : α → β}

/-- `sorted(values, key=key, reverse=True)`. -/
def sortedDescending (key : α → β) (values : List α) : List α :=
  values.insertionSort fun a b => key b ≤ key a

theorem sortedDescending_perm (key : α → β) (values : List α) :
    (sortedDescending key values).Perm values :=
  List.perm_insertionSort _ _

@[simp] theorem mem_sortedDescending {value : α} {values : List α} :
    value ∈ sortedDescending key values ↔ value ∈ values :=
  (sortedDescending_perm key values).mem_iff

instance total_keyGe : Std.Total fun a b : α => key b ≤ key a :=
  ⟨fun a b => le_total (key b) (key a)⟩

instance trans_keyGe : IsTrans α fun a b => key b ≤ key a := ⟨fun _ _ _ hle hle' => hle'.trans hle⟩

theorem sortedDescending_pairwise (key : α → β) (values : List α) :
    (sortedDescending key values).Pairwise fun a b => key b ≤ key a :=
  List.pairwise_insertionSort _ values

/-- The first `n` of the sorted values, and the rest. -/
theorem sortedDescending_split (key : α → β) (n : Nat) (values : List α) :
    ∃ rest, ((sortedDescending key values).take n ++ rest).Perm values ∧
      ((sortedDescending key values).take n).Pairwise (fun a b => key b ≤ key a) ∧
      ((sortedDescending key values).take n).length = min n values.length ∧
      ∀ a ∈ (sortedDescending key values).take n, ∀ b ∈ rest, key b ≤ key a := by
  have hpairwise := sortedDescending_pairwise key values
  have hperm := sortedDescending_perm key values
  rw [← List.take_append_drop n (sortedDescending key values), List.pairwise_append] at hpairwise
  refine ⟨(sortedDescending key values).drop n, ?_, hpairwise.1, ?_, hpairwise.2.2⟩
  · rw [List.take_append_drop]
    exact hperm
  · rw [List.length_take, hperm.length_eq]

/-- Values of one key keep their order. -/
theorem sortedDescending_stable {R : α → α → Prop} {values : List α} (hvalues : values.Pairwise R) :
    (sortedDescending key values).Pairwise fun a b => key a = key b → R a b := by
  induction values with
  | nil => exact List.Pairwise.nil
  | cons value rest ih =>
      obtain ⟨hvalue, hrest⟩ := List.pairwise_cons.mp hvalues
      have hsorted := sortedDescending_pairwise key rest
      have hstable := ih hrest
      have hnew : ∀ other ∈ sortedDescending key rest, R value other :=
        fun other hmem => hvalue other (mem_sortedDescending.mp hmem)
      change (List.orderedInsert _ value (sortedDescending key rest)).Pairwise _
      generalize sortedDescending key rest = sorted at hsorted hstable hnew
      -- the value goes before the first one whose key is not greater
      induction sorted with
      | nil => exact List.pairwise_singleton _ _
      | cons first others ih =>
          rw [List.orderedInsert_cons]
          split
          · exact List.pairwise_cons.mpr ⟨fun other hmem _ => hnew other hmem, hstable⟩
          · next hlt =>
              rw [List.pairwise_cons] at hsorted hstable
              have hothers := ih hsorted.2 hstable.2 fun other hmem =>
                hnew other (List.mem_cons_of_mem first hmem)
              refine List.pairwise_cons.mpr ⟨fun other hmem hkey => ?_, hothers⟩
              rcases List.mem_cons.mp ((List.perm_orderedInsert _ value others).mem_iff.mp hmem)
                with heq | hold
              · rw [heq] at hkey
                exact absurd hkey.le hlt
              · exact hstable.1 other hold hkey

/-- The keys of the sorted values do not depend on the order of the values. -/
theorem keys_sortedDescending {values values' : List α} (hperm : values'.Perm values) :
    (sortedDescending key values').map key = (sortedDescending key values).map key := by
  have hkeys : ((sortedDescending key values').map key).Perm
      ((sortedDescending key values).map key) :=
    ((sortedDescending_perm key values').trans
      (hperm.trans (sortedDescending_perm key values).symm)).map key
  have hsorted (values : List α) :
      ((sortedDescending key values).map key).Pairwise fun x y => y ≤ x :=
    List.pairwise_map.mpr (sortedDescending_pairwise key values)
  exact hkeys.eq_of_pairwise (fun _ _ _ _ hle hge => le_antisymm hge hle) (hsorted values')
    (hsorted values)

/-- Sorted values that come in the same order where they have one key, are the same. -/
theorem eq_of_ranked {γ : Type*} [LinearOrder γ] {tag : α → γ} {values values' : List α}
    (hperm : values'.Perm values)
    (htag : ∀ a ∈ values, ∀ b ∈ values, tag a = tag b → a = b)
    (hties' : (sortedDescending key values').Pairwise fun a b => key a = key b → tag a ≤ tag b)
    (hties : (sortedDescending key values).Pairwise fun a b => key a = key b → tag a ≤ tag b) :
    sortedDescending key values' = sortedDescending key values := by
  have hsorted : (sortedDescending key values').Perm (sortedDescending key values) :=
    (sortedDescending_perm key values').trans (hperm.trans (sortedDescending_perm key values).symm)
  have hranked' := (sortedDescending_pairwise key values').and hties'
  have hranked := (sortedDescending_pairwise key values).and hties
  apply hsorted.eq_of_pairwise ?_ hranked' hranked
  intro a b ha hb hab hba
  have hkey : key a = key b := le_antisymm hba.1 hab.1
  apply htag a (hperm.mem_iff.mp (mem_sortedDescending.mp ha)) b (mem_sortedDescending.mp hb)
  exact le_antisymm (hab.2 hkey) (hba.2 hkey.symm)

/-- The value comes first of those that have the greatest key. -/
def FirstGreatest (key : α → β) (values : List α) (value : α) : Prop :=
  ∃ before after, values = before ++ value :: after ∧
    (∀ other ∈ before, key other < key value) ∧ ∀ other ∈ after, key other ≤ key value

theorem FirstGreatest.mem {values : List α} {value : α} (hfirst : FirstGreatest key values value) :
    value ∈ values := by
  obtain ⟨before, after, hvalues, _⟩ := hfirst
  rw [hvalues]
  exact List.mem_append_right _ List.mem_cons_self

theorem FirstGreatest.le {values : List α} {value other : α}
    (hfirst : FirstGreatest key values value) (hmem : other ∈ values) : key other ≤ key value := by
  obtain ⟨before, after, hvalues, hbefore, hafter⟩ := hfirst
  rw [hvalues] at hmem
  rcases List.mem_append.mp hmem with hmem | hmem
  · exact (hbefore other hmem).le
  · rcases List.mem_cons.mp hmem with heq | hmem
    · rw [heq]
    · exact hafter other hmem

/-- The first of the sorted values. -/
theorem firstGreatest_of_head {values rest : List α} {value : α}
    (hsorted : sortedDescending key values = value :: rest) : FirstGreatest key values value := by
  induction values generalizing value rest with
  | nil => cases hsorted
  | cons head tail ih =>
      rw [sortedDescending, List.insertionSort_cons] at hsorted
      change List.orderedInsert _ head (sortedDescending key tail) = value :: rest at hsorted
      cases htail : sortedDescending key tail with
      | nil =>
          rw [htail, List.orderedInsert_nil] at hsorted
          cases hsorted
          have hnone : tail = [] := by
            have hperm := sortedDescending_perm key tail
            rw [htail] at hperm
            exact hperm.nil_eq.symm
          rw [hnone]
          exact ⟨[], [], rfl, by simp, by simp⟩
      | cons greatest others =>
          have hgreatest := ih htail
          rw [htail, List.orderedInsert_cons] at hsorted
          split at hsorted
          · next hle =>
              cases hsorted
              exact ⟨[], tail, rfl, by simp, fun other hmem => (hgreatest.le hmem).trans hle⟩
          · next hlt =>
              cases hsorted
              obtain ⟨before, after, hvalues, hbefore, hafter⟩ := hgreatest
              refine ⟨head :: before, after, by rw [hvalues, List.cons_append], ?_, hafter⟩
              intro other hmem
              rcases List.mem_cons.mp hmem with heq | hmem
              · rw [heq]
                exact not_le.mp hlt
              · exact hbefore other hmem

theorem FirstGreatest.unique {values : List α} {value other : α}
    (hfirst : FirstGreatest key values value) (hother : FirstGreatest key values other) :
    value = other := by
  obtain ⟨before, after, hvalues, hbefore, hafter⟩ := hfirst
  obtain ⟨before', after', hvalues', hbefore', hafter'⟩ := hother
  rw [hvalues, List.append_eq_append_iff] at hvalues'
  rcases hvalues' with ⟨middle, hmiddle, hrest⟩ | ⟨middle, hmiddle, hrest⟩
  · cases middle with
    | nil => cases hrest; rfl
    | cons first middle =>
        cases hrest
        have hlt := hbefore' value (by simp [hmiddle])
        exact absurd (hafter other (by simp)) (not_le.mpr hlt)
  · cases middle with
    | nil => cases hrest; rfl
    | cons first middle =>
        cases hrest
        have hlt := hbefore other (by simp [hmiddle])
        exact absurd (hafter' value (by simp)) (not_le.mpr hlt)

/-- `sorted(set(values))`. -/
def sortedSet {γ : Type v} [LinearOrder γ] (values : List γ) : List γ :=
  values.dedup.insertionSort (· ≤ ·)

end Conductor
