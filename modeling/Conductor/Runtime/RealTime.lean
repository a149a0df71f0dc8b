/-
The calls of the store in the order in which they take effect.  Whatever is in the
file, a call takes effect at one moment between its beginning and its end, so the
order never contradicts what the processes can see of each other.
-/
import Conductor.Runtime.Linearised

namespace Conductor.LocalTaskStore.Steps

open Effects Crowd StoreDisk

variable {ι α : Type} [DecidableEq ι] {codec : Codec TaskRecord} {file : TaskFile}
variable {crowd : Processes ι α}

/-- A turn has the effect of one call that is being made, or it has no effect. -/
theorem Sound.turn (hsound : Sound codec false file crowd) (turn : Crowd.Turn ι DiskFault) :
    (linearised codec (crowd.step (device false) turn).trace = linearised codec crowd.trace ∧
        (crowd.step (device false) turn).state.file = crowd.state.file) ∨
      ∃ i entry, linearised codec (crowd.step (device false) turn).trace =
          (i, entry) :: linearised codec crowd.trace ∧
        underway (ownCalls i crowd.trace) = some entry.1 := by
  have hchange := step_change (device false) crowd turn
  generalize crowd.step (device false) turn = crowd' at hchange ⊢
  cases hchange with
  | nothing => exact .inl ⟨rfl, rfl⟩
  | death halive => exact .inl ⟨rfl, rfl⟩
  | call hprogram hanswer =>
      rename_i i c next answer state
      have hagrees := hsound.agrees i (by rw [hprogram]; rfl)
      have hguarantees := hsound.keeps.guarantees hprogram
      rcases effect_cases hagrees hguarantees (outcome_of_mayAnswer hanswer) with
        ⟨hnone, hsame⟩ | ⟨entry, hsome, -⟩
      · exact .inl ⟨linearised_none hnone, hsame⟩
      · exact .inr ⟨i, entry, linearised_some hsome,
          (calling_view codec _).symm.trans (calling_of_effect hsome)⟩

/-- What has taken effect before stays as it is. -/
theorem linearised_append (codec : Codec TaskRecord) (later earlier : FileLog ι) :
    ∃ new, linearised codec (later ++ earlier) = new ++ linearised codec earlier := by
  induction later with
  | nil => exact ⟨[], rfl⟩
  | cons event later ih =>
      obtain ⟨i, c, answer⟩ := event
      obtain ⟨new, hnew⟩ := ih
      cases heffect : effectOf codec (desk codec (later ++ earlier) i) c answer with
      | none => exact ⟨new, (linearised_none heffect).trans hnew⟩
      | some entry =>
          exact ⟨(i, entry) :: new, (linearised_some heffect).trans (congrArg _ hnew)⟩

theorem kept_of_append {later earlier : FileLog ι} {i : ι}
    (hkept : (contract codec).Kept (ownCalls i (later ++ earlier))) :
    (contract codec).Kept (ownCalls i earlier) := by
  rw [ownCalls_append] at hkept
  exact hkept.of_append

/-- The order in which the calls take effect, at the end of a run and at every
moment of it. -/
structure RealTime (codec : Codec TaskRecord) (start : TaskFile) (crowd : Processes ι α) :
    Prop where
  /-- The file is what the saves have made of it, and the other calls were answered
  from what they found, -/
  legal : Legal codec start (linearised codec crowd.trace) crowd.state.file
  /-- at each moment the order has the calls that have returned by then, and for each
  process at most the one that it is in, and what comes later comes after these, -/
  moment : ∀ later earlier, crowd.trace = later ++ earlier →
    (∀ i, Covers (linearised codec earlier) earlier i) ∧
      ∃ new, linearised codec crowd.trace = new ++ linearised codec earlier
  /-- and whatever comes next leaves the order and the file alone, or is the effect of
  a call that is being made. -/
  turn : ∀ turn, (linearised codec (crowd.step (device false) turn).trace =
        linearised codec crowd.trace ∧
      (crowd.step (device false) turn).state.file = crowd.state.file) ∨
    ∃ i entry, linearised codec (crowd.step (device false) turn).trace =
        (i, entry) :: linearised codec crowd.trace ∧
      underway (ownCalls i crowd.trace) = some entry.1

/-- Calls on a file take effect one after the other while they are made, whatever
the file holds, whatever fails but a stat, and whoever dies. -/
theorem calls_in_real_time (codec : Codec TaskRecord)
    (programs : ι → Prog StoreCall StoreReply α) (file : TaskFile)
    (schedule : List (Crowd.Turn ι DiskFault)) :
    RealTime codec file
      ((processes codec programs file).run (device false) schedule) := by
  have hsound := run_sound codec false programs file schedule
  generalize (processes codec programs file).run (device false) schedule = crowd at hsound ⊢
  refine ⟨hsound.legal rfl, ?_, hsound.turn⟩
  intro later earlier htrace
  have hkept i : (contract codec).Kept (ownCalls i (later ++ earlier)) := by
    rw [← htrace]
    exact hsound.keeps.done i
  rw [htrace]
  exact ⟨fun i => covers_linearised codec (kept_of_append (hkept i)),
    linearised_append codec later earlier⟩

end Conductor.LocalTaskStore.Steps
