/-
Trials that are repeated until one succeeds.  A pattern says which of the
trials, numbered from one, succeed; a log holds the outcomes of the trials that
were made, the last one first.
-/
import Mathlib.Data.ENat.Lattice

namespace Conductor.Effects

/-- The number of the first trial that succeeds, infinite if none does. -/
noncomputable def firstSuccess (pattern : Nat → Bool) : ℕ∞ :=
  ⨅ n : {n : Nat // 1 ≤ n ∧ pattern n = true}, (n.1 : ℕ∞)

/-- The trials of the log came out as in the pattern. -/
def Plays (pattern : Nat → Bool) : List Bool → Prop
  | [] => True
  | outcome :: log => pattern (log.length + 1) = outcome ∧ Plays pattern log

variable {pattern : Nat → Bool}

theorem Plays.pattern_eq_false {n k : Nat} (hplays : Plays pattern (List.replicate n false))
    (hk : 1 ≤ k) (hkn : k ≤ n) : pattern k = false := by
  induction n with
  | zero => omega
  | succ n ih =>
      obtain ⟨hlast, hplays⟩ := hplays
      rw [List.length_replicate] at hlast
      by_cases hkn' : k ≤ n
      · exact ih hplays hkn'
      · obtain rfl : k = n + 1 := by omega
        exact hlast

/-- After failures only, the first success is still to come. -/
theorem lt_firstSuccess_of_plays {n : Nat} (hplays : Plays pattern (List.replicate n false)) :
    (n : ℕ∞) < firstSuccess pattern := by
  apply (ENat.add_one_le_iff (ENat.natCast_ne_top n)).mp
  refine le_iInf fun k => ?_
  obtain ⟨k, hk, hsuccess⟩ := k
  have hlt : n < k := by
    by_contra hle
    rw [hplays.pattern_eq_false hk (by omega)] at hsuccess
    cases hsuccess
  exact_mod_cast hlt

/-- A success after failures only is the first one. -/
theorem firstSuccess_eq_of_plays {n : Nat}
    (hplays : Plays pattern (true :: List.replicate n false)) :
    firstSuccess pattern = (n + 1 : ℕ) := by
  obtain ⟨hlast, hfails⟩ := hplays
  rw [List.length_replicate] at hlast
  apply le_antisymm
  · exact iInf_le_of_le ⟨n + 1, Nat.succ_pos n, hlast⟩ le_rfl
  · have hlt := lt_firstSuccess_of_plays hfails
    exact_mod_cast (ENat.add_one_le_iff (ENat.natCast_ne_top n)).mpr hlt

end Conductor.Effects
