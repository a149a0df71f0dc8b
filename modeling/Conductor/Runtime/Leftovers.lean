/-
What the processes leave behind.  Whoever has the lock gives it back, so that
everybody else can finish; and a temporary file is left only where a process has
died in a save, or could not remove it.
-/
import Conductor.Runtime.Linearised

namespace Conductor.LocalTaskStore.Steps

open Effects Crowd StoreDisk

variable {ι α : Type} [DecidableEq ι] {codec : Codec TaskRecord} {start : TaskFile}
variable {crowd : Processes ι α} {i : ι} {c : FileCall} {answer : FileReply c}
variable {disk' : StoreDisk ι} {d : Desk} {statFails : Bool}

/-- A process is dead, or it has no further call to make. -/
def Stopped : Option (Prog FileCall FileReply α) → Prop
  | some (.call _ _) => False
  | _ => True

/-- The lock is with a process that knows it. -/
def Held (codec : Codec TaskRecord) (crowd : Processes ι α) : Prop :=
  ∀ i, crowd.state.holder = some i →
    (crowd.program i).isSome ∧ (desk codec crowd.trace i).locked = true

theorem locked_next (hguarantees : Guarantees codec d c) (hlocked : d.locked = true)
    (hunlock : c ≠ .unlock) : (next codec d c answer).locked = true := by
  have hadvance : (advance d c answer).locked = true := by
    cases c with
    | began call =>
        cases hguarantees
        cases hlocked
    | returned call reply =>
        rw [hguarantees.2.1] at hlocked
        cases hlocked
    | unlock => exact absurd rfl hunlock
    | «exists» | tempExists tmp => rcases answer with e | _ | _ <;> exact hlocked
    | flock => cases answer <;> first | exact hlocked | rfl
    | _ => cases answer <;> exact hlocked
  unfold next
  cases effectOf codec d c answer <;> exact hadvance

theorem Held.call (hheld : Held codec crowd) (hsound : Sound codec statFails start crowd)
    {rest : FileReply c → Prog FileCall FileReply α}
    (hprogram : crowd.program i = some (.call c rest))
    (houtcome : Outcome statFails i crowd.state c answer disk') :
    Held codec
      { program := Function.update crowd.program i (some (rest answer))
        trace := (i, ⟨c, answer⟩) :: crowd.trace
        state := disk' } := by
  have hguarantees := hsound.keeps.guarantees hprogram
  have hkept (hunlock : c ≠ .unlock) {j : ι} (hholder : crowd.state.holder = some j) :
      (Function.update crowd.program i (some (rest answer)) j).isSome ∧
        (desk codec ((i, ⟨c, answer⟩) :: crowd.trace) j).locked = true := by
    obtain ⟨halive, hlocked⟩ := hheld j hholder
    by_cases hsame : j = i
    · subst hsame
      rw [Function.update_self, desk_cons_self]
      exact ⟨rfl, locked_next hguarantees hlocked hunlock⟩
    · rw [Function.update_of_ne hsame, desk_cons_of_ne hsame]
      exact ⟨halive, hlocked⟩
  intro j hholder
  cases houtcome with
  | flock hfree =>
      cases hholder
      dsimp only
      rw [Function.update_self, desk_cons_self]
      exact ⟨rfl, rfl⟩
  | unlock => cases hholder
  | failed hfails e =>
      apply hkept _ hholder
      rintro rfl
      cases hfails
  | _ => exact hkept (by simp) hholder

theorem Held.death (hheld : Held codec crowd) (i : ι) :
    Held codec
      { program := Function.update crowd.program i none
        trace := crowd.trace
        state := StoreDisk.bury i crowd.state } := by
  intro j hholder
  rw [StoreDisk.bury] at hholder
  dsimp only at hholder ⊢
  by_cases hdead : crowd.state.holder = some i
  · rw [if_pos hdead] at hholder
    cases hholder
  · rw [if_neg hdead] at hholder
    have hne : j ≠ i := by
      rintro rfl
      exact hdead hholder
    rw [Function.update_of_ne hne]
    exact hheld j hholder

theorem Held.step (hheld : Held codec crowd) (hsound : Sound codec statFails start crowd)
    (turn : Crowd.Turn ι DiskFault) : Held codec (crowd.step (device statFails) turn) := by
  have hchange := step_change (device statFails) crowd turn
  generalize crowd.step (device statFails) turn = crowd' at hchange ⊢
  cases hchange with
  | nothing => exact hheld
  | call hprogram hanswer => exact hheld.call hsound hprogram (outcome_of_mayAnswer hanswer)
  | death halive => exact hheld.death _

/-- Everything is as it should be, and the lock is where it belongs. -/
structure Orderly (codec : Codec TaskRecord) (statFails : Bool) (start : TaskFile)
    (crowd : Processes ι α) : Prop where
  sound : Sound codec statFails start crowd
  held : Held codec crowd

theorem Orderly.run (horderly : Orderly codec statFails start crowd)
    (schedule : List (Crowd.Turn ι DiskFault)) :
    Orderly codec statFails start (crowd.run (device statFails) schedule) :=
  run_invariant (I := Orderly codec statFails start)
    (fun _ turn h => ⟨h.sound.step turn, h.held.step h.sound turn⟩) horderly

theorem orderly_start (codec : Codec TaskRecord) (statFails : Bool)
    (programs : ι → Prog StoreCall StoreReply α)
    (file : TaskFile) :
    Orderly codec statFails file (processes codec programs file) where
  sound := sound_start programs file
  held i hholder := by cases hholder

/-- A process stops between two calls only. -/
theorem Orderly.stopped_free (horderly : Orderly codec statFails start crowd)
    {program : Prog FileCall FileReply α} (hprogram : crowd.program i = some program)
    (hstopped : Stopped (crowd.program i)) : desk codec crowd.trace i = .free := by
  rw [hprogram] at hstopped
  have hrest := horderly.sound.keeps.rest i program hprogram
  cases program with
  | done value | outOfFuel => exact hrest
  | call c rest => cases hstopped

/-- A process that has stopped does not have the lock. -/
theorem Orderly.not_holder (horderly : Orderly codec statFails start crowd)
    (hstopped : Stopped (crowd.program i)) : crowd.state.holder ≠ some i := by
  intro hholder
  obtain ⟨halive, hlocked⟩ := horderly.held i hholder
  obtain ⟨program, hprogram⟩ := Option.isSome_iff_exists.mp halive
  rw [horderly.stopped_free hprogram hstopped] at hlocked
  cases hlocked

/-- A process is answered, unless another one has the lock. -/
theorem Orderly.answered (horderly : Orderly codec statFails start crowd)
    {rest : FileReply c → Prog FileCall FileReply α}
    (hprogram : crowd.program i = some (.call c rest))
    (hfree : crowd.state.holder = none ∨ crowd.state.holder = some i) :
    ∃ answer disk', respond i crowd.state c = some (answer, disk') := by
  cases c with
  | flock =>
      have hunlocked := horderly.sound.keeps.guarantees hprogram
      rcases hfree with hnone | hmine
      · exact ⟨_, _, by rw [respond, hnone]⟩
      · have hlocked := (horderly.held i hmine).2
        rw [hunlocked] at hlocked
        cases hlocked
  | readText =>
      cases hfile : crowd.state.file with
      | none => exact ⟨_, _, by rw [respond, hfile]⟩
      | some text => exact ⟨_, _, by rw [respond, hfile]⟩
  | replace tmp =>
      cases htmp : crowd.state.temps tmp with
      | none => exact ⟨_, _, by rw [respond, htmp]⟩
      | some text => exact ⟨_, _, by rw [respond, htmp]⟩
  | _ => exact ⟨_, _, rfl⟩

omit [DecidableEq ι] in
theorem holder_of_outcome {disk : StoreDisk ι} (houtcome : Outcome statFails i disk c answer disk')
    (hfree : disk.holder = none ∨ disk.holder = some i) :
    disk'.holder = none ∨ disk'.holder = some i := by
  cases houtcome with
  | flock => exact .inr rfl
  | unlock => exact .inl rfl
  | _ => exact hfree

/-- A process that nobody keeps waiting comes to its end, the others stand still,
and then the lock is free. -/
theorem Orderly.finishes (horderly : Orderly codec statFails start crowd)
    {program : Prog FileCall FileReply α} (hprogram : crowd.program i = some program)
    (hfree : crowd.state.holder = none ∨ crowd.state.holder = some i) :
    ∃ n, Stopped ((crowd.run (device statFails) (List.replicate n (.act i))).program i) ∧
      (crowd.run (device statFails) (List.replicate n (.act i))).state.holder = none ∧
      ∀ j, j ≠ i →
        (crowd.run (device statFails) (List.replicate n (.act i))).program j = crowd.program j := by
  have hended (hstopped : Stopped (crowd.program i)) : crowd.state.holder = none :=
    hfree.resolve_right (horderly.not_holder hstopped)
  induction program generalizing crowd with
  | done value | outOfFuel =>
      have hstopped : Stopped (crowd.program i) := by
        rw [hprogram]
        trivial
      exact ⟨0, hstopped, hended hstopped, fun _ _ => rfl⟩
  | call c rest ih =>
      obtain ⟨answer, disk', hrespond⟩ := horderly.answered hprogram hfree
      have hstep : crowd.step (device statFails) (.act i) =
          { program := Function.update crowd.program i (some (rest answer))
            trace := (i, ⟨c, answer⟩) :: crowd.trace
            state := disk' } := by
        simp only [step, Crowd.answered, hprogram, device, hrespond]
      have horderly' := horderly.run [.act i]
      change Orderly codec statFails start (crowd.step (device statFails) (.act i)) at horderly'
      rw [hstep] at horderly'
      have hfree' := holder_of_outcome (outcome_of_respond statFails hrespond) hfree
      obtain ⟨n, hstopped, hholder, hothers⟩ := ih answer horderly'
        (Function.update_self _ _ _) hfree'
        fun hstopped => hfree'.resolve_right (horderly'.not_holder hstopped)
      have hrun : crowd.run (device statFails) (List.replicate (n + 1) (.act i)) =
          (crowd.step (device statFails) (.act i)).run (device statFails)
            (List.replicate n (.act i)) := rfl
      refine ⟨n + 1, ?_⟩
      rw [hrun, hstep]
      refine ⟨hstopped, hholder, ?_⟩
      intro j hne
      rw [hothers j hne]
      exact Function.update_of_ne hne _ _

/-- Only calls, no failures and no deaths. -/
def Undisturbed (later : List (Crowd.Turn ι DiskFault)) : Prop :=
  ∀ turn ∈ later, ∃ i, turn = .act i

omit [DecidableEq ι] in
theorem undisturbed_replicate (n : Nat) (i : ι) : Undisturbed (List.replicate n (.act i)) := by
  intro turn hturn
  exact ⟨i, List.eq_of_mem_replicate hturn⟩

omit [DecidableEq ι] in
theorem Undisturbed.append {later later' : List (Crowd.Turn ι DiskFault)}
    (hlater : Undisturbed later) (hlater' : Undisturbed later') :
    Undisturbed (later ++ later') := by
  intro turn hturn
  rcases List.mem_append.mp hturn with hmem | hmem
  · exact hlater turn hmem
  · exact hlater' turn hmem

/-- One more process stops, if the lock is free or its own. -/
theorem Orderly.stops (horderly : Orderly codec statFails start crowd) (i : ι)
    (hfree : crowd.state.holder = none ∨ crowd.state.holder = some i) :
    ∃ later, Undisturbed later ∧ Stopped ((crowd.run (device statFails) later).program i) ∧
      (∀ j, Stopped (crowd.program j) → Stopped ((crowd.run (device statFails) later).program j)) ∧
      (crowd.run (device statFails) later).state.holder = none := by
  cases hprogram : crowd.program i with
  | none =>
      have hstopped : Stopped (crowd.program i) := by
        rw [hprogram]
        trivial
      have hnone := hfree.resolve_right (horderly.not_holder hstopped)
      exact ⟨[], by simp [Undisturbed], hstopped, fun _ hj => hj, hnone⟩
  | some program =>
      obtain ⟨n, hstopped, hholder, hothers⟩ := horderly.finishes hprogram hfree
      refine ⟨_, undisturbed_replicate n i, hstopped, ?_, hholder⟩
      intro j hj
      by_cases hsame : j = i
      · subst hsame
        exact hstopped
      · rw [hothers j hsame]
        exact hj

/-- The lock becomes free. -/
theorem Orderly.unlocks (horderly : Orderly codec statFails start crowd) :
    ∃ later, Undisturbed later ∧
      (∀ j, Stopped (crowd.program j) → Stopped ((crowd.run (device statFails) later).program j)) ∧
      (crowd.run (device statFails) later).state.holder = none := by
  cases hholder : crowd.state.holder with
  | none => exact ⟨[], by simp [Undisturbed], fun _ hj => hj, hholder⟩
  | some i =>
      obtain ⟨later, hlater, -, hothers, hnone⟩ := horderly.stops i (.inr hholder)
      exact ⟨later, hlater, hothers, hnone⟩

/-- A group of processes stops, one after the other. -/
theorem Orderly.all_stop (group : List ι) {crowd : Processes ι α}
    (horderly : Orderly codec statFails start crowd) (hfree : crowd.state.holder = none) :
    ∃ later, Undisturbed later ∧
      (∀ i ∈ group, Stopped ((crowd.run (device statFails) later).program i)) ∧
      (∀ j, Stopped (crowd.program j) → Stopped ((crowd.run (device statFails) later).program j)) ∧
      (crowd.run (device statFails) later).state.holder = none := by
  induction group generalizing crowd with
  | nil => exact ⟨[], by simp [Undisturbed], by simp, fun _ hj => hj, hfree⟩
  | cons i group ih =>
      obtain ⟨first, hfirst, hstopped, hbefore, hnone⟩ := horderly.stops i (.inl hfree)
      obtain ⟨later, hlater, hgroup, hafter, hlast⟩ := ih (horderly.run first) hnone
      refine ⟨first ++ later, hfirst.append hlater, ?_⟩
      rw [run_append]
      refine ⟨?_, fun j hj => hafter j (hbefore j hj), hlast⟩
      intro j hj
      rcases List.mem_cons.mp hj with rfl | hmem
      · exact hafter j hstopped
      · exact hgroup j hmem

/-- Whatever has happened, failures and deaths in the middle of a call included,
nobody waits for ever: the processes of any group can run to their ends from
there, undisturbed, and then the lock is free. -/
theorem store_never_deadlocks (codec : Codec TaskRecord) (statFails : Bool)
    (programs : ι → Prog StoreCall StoreReply α) (file : TaskFile)
    (schedule : List (Crowd.Turn ι DiskFault)) (group : List ι) :
    ∃ later, Undisturbed later ∧
      (∀ i ∈ group, Stopped (((processes codec programs file).run (device statFails)
        (schedule ++ later)).program i)) ∧
      ((processes codec programs file).run (device statFails)
        (schedule ++ later)).state.holder = none := by
  have horderly := (orderly_start codec statFails programs file).run schedule
  obtain ⟨first, hfirst, -, hnone⟩ := horderly.unlocks
  obtain ⟨later, hlater, hgroup, -, hlast⟩ := (horderly.run first).all_stop group hnone
  refine ⟨first ++ later, hfirst.append hlater, ?_⟩
  rw [run_append, run_append]
  exact ⟨hgroup, hlast⟩

/-- The file has been made and neither moved nor removed. -/
def Temp.Owns (temp : Temp) (tmp : Nat) : Prop :=
  temp = .begun tmp ∨ ∃ text, temp = .complete tmp text

/-- The temporary file could not be removed here, or was said not to be there. -/
def RemovalFailed (tmp : Nat) : Event FileCall FileReply → Prop
  | ⟨.tempExists tmp', .ok false⟩ | ⟨.unlink tmp', .error _⟩ => tmp' = tmp
  | _ => False

theorem Temp.Owns.name {temp : Temp} {tmp : Nat} (howns : temp.Owns tmp) :
    temp.name = some tmp := by
  rcases howns with rfl | ⟨text, rfl⟩ <;> rfl

theorem Temp.Owns.not_tidy {temp : Temp} {tmp : Nat} (howns : temp.Owns tmp) : ¬ temp.Tidy := by
  rcases howns with rfl | ⟨text, rfl⟩ <;> exact id

theorem temp_next (d : Desk) (c : FileCall) (answer : FileReply c) :
    (next codec d c answer).temp = (advance d c answer).temp := by
  unfold next
  cases effectOf codec d c answer <;> rfl

/-- A process has made the temporary file that it knows of. -/
theorem made_next {tmp : Nat} (hguarantees : Guarantees codec d c)
    (hname : (next codec d c answer).temp.name = some tmp) :
    d.temp.name = some tmp ∨ (⟨c, answer⟩ : Event FileCall FileReply) = ⟨.mkstemp, .ok tmp⟩ := by
  rw [temp_next] at hname
  cases c with
  | mkstemp =>
      cases answer with
      | error e => exact .inl hname
      | ok tmp' =>
          cases hname
          exact .inr rfl
  | began call | returned call reply => cases hname
  | write tmp' text =>
      rw [hguarantees.2]
      cases answer <;> exact .inl hname
  | replace tmp' =>
      obtain ⟨-, -, task, file, text, -, -, htemp, -⟩ := hguarantees
      cases answer with
      | error e => exact .inl hname
      | ok _ =>
          rw [htemp]
          exact .inl hname
  | tempExists tmp' =>
      left
      rcases answer with e | _ | _
      · exact hguarantees.2.trans hname
      · rw [← hname]
        exact hguarantees.2.trans (Temp.name_unseen hguarantees.2).symm
      · exact hname
  | unlink tmp' =>
      cases answer with
      | error e => exact .inl (hguarantees.2.trans hname)
      | ok _ => cases hname
  | unlock =>
      cases answer with
      | error e => exact .inl hname
      | ok _ => cases hname
  | «exists» => rcases answer with e | _ | _ <;> exact .inl hname
  | _ => cases answer <;> exact .inl hname

/-- Only a save makes a temporary file. -/
theorem saving_next (hguarantees : Guarantees codec d c)
    (hsaving : ¬ d.temp.Tidy → ∃ task, d.calling = some (.save task))
    (huntidy : ¬ (next codec d c answer).temp.Tidy) :
    ∃ task, (next codec d c answer).calling = some (.save task) := by
  rw [temp_next] at huntidy
  have hadvance : ∃ task, (advance d c answer).calling = some (.save task) := by
    cases c with
    | mkstemp =>
        cases answer with
        | error e => exact hsaving huntidy
        | ok tmp => exact hguarantees.2.2
    | began call | returned call reply => exact absurd trivial huntidy
    | write tmp text =>
        have hbegun : ¬ d.temp.Tidy := by
          rw [hguarantees.2]
          exact id
        cases answer <;> exact hsaving hbegun
    | unlock | unlink tmp | replace tmp =>
        cases answer with
        | error e => first | exact hsaving huntidy | exact absurd trivial huntidy
        | ok _ => exact absurd trivial huntidy
    | «exists» => rcases answer with e | _ | _ <;> exact hsaving huntidy
    | tempExists tmp =>
        rcases answer with e | _ | _
        · exact absurd trivial huntidy
        · exact absurd (Temp.unseen_tidy tmp d.temp) huntidy
        · exact hsaving huntidy
    | _ => cases answer <;> exact hsaving huntidy
  unfold next
  cases effectOf codec d c answer <;> exact hadvance

/-- Somebody answers for a temporary file after an operation: the process that made
the operation, or it was there before, and that process was not its owner or has
failed to remove it. -/
def Accounted (disk : StoreDisk ι) (d : Desk) (c : FileCall) (answer : FileReply c)
    (tmp : Nat) : Prop :=
  (advance d c answer).temp.Owns tmp ∨
    disk.temps tmp ≠ none ∧ (d.temp.Owns tmp → RemovalFailed tmp ⟨c, answer⟩)

section Accounted

variable {disk : StoreDisk ι} {tmp tmp' : Nat}

omit [DecidableEq ι] in
theorem accounted_tidy (htidy : d.temp.Tidy) (hthere : disk.temps tmp ≠ none) :
    Accounted disk d c answer tmp :=
  .inr ⟨hthere, fun howns => absurd htidy howns.not_tidy⟩

omit [DecidableEq ι] in
theorem accounted_kept (hsame : (advance d c answer).temp = d.temp)
    (hthere : disk.temps tmp ≠ none) : Accounted disk d c answer tmp := by
  by_cases howns : d.temp.Owns tmp
  · left
    rw [hsame]
    exact howns
  · exact .inr ⟨hthere, fun h => absurd h howns⟩

omit [DecidableEq ι] in
/-- The owner changes its own file and no other. -/
theorem accounted_update {text : Option String} (hname : d.temp.name = some tmp')
    (howns : text ≠ none → (advance d c answer).temp.Owns tmp')
    (hthere : Function.update disk.temps tmp' text tmp ≠ none) :
    Accounted disk d c answer tmp := by
  by_cases hsame : tmp = tmp'
  · subst hsame
    rw [Function.update_self] at hthere
    exact .inl (howns hthere)
  · rw [Function.update_of_ne hsame] at hthere
    refine .inr ⟨hthere, fun howned => ?_⟩
    rw [howned.name] at hname
    exact absurd (Option.some.inj hname) hsame

end Accounted

omit [DecidableEq ι] in
/-- A process stays the owner of its temporary file for as long as it is there,
unless it fails to remove it; and it comes to own the files that it makes. -/
theorem accounted_of_outcome {tmp : Nat} (hagrees : Agrees statFails d crowd.state i)
    (hguarantees : Guarantees codec d c)
    (houtcome : Outcome statFails i crowd.state c answer disk')
    (hthere : disk'.temps tmp ≠ none) : Accounted crowd.state d c answer tmp := by
  -- the file that is not removed here is the one that the process owns
  have hmissed {tmp' : Nat} {reply : FileReply c} (hname : d.temp.name = some tmp')
      (hstays : crowd.state.temps tmp ≠ none)
      (hfailed : tmp' = tmp → RemovalFailed tmp ⟨c, reply⟩) :
      Accounted crowd.state d c reply tmp := by
    refine .inr ⟨hstays, fun howns => hfailed ?_⟩
    rw [howns.name] at hname
    exact (Option.some.inj hname).symm
  cases houtcome with
  | failed hfails e =>
      cases c with
      | unlink tmp' => exact hmissed hguarantees.2 hthere id
      | «exists» | tempExists | write | unlock | began | returned => cases hfails
      | _ => exact accounted_kept rfl hthere
  | tempUnseen _ tmp' => exact hmissed hguarantees.2 hthere id
  | began call =>
      cases hguarantees
      exact accounted_tidy trivial hthere
  | returned call reply =>
      have htidy : d.temp.Tidy := by
        rw [(hagrees.outside hguarantees.2.1).2]
        trivial
      exact accounted_tidy htidy hthere
  | unlock => exact accounted_tidy hguarantees.2 hthere
  | mkstemp =>
      dsimp only at hthere
      by_cases hsame : tmp = crowd.state.fresh
      · subst hsame
        exact .inl (.inl rfl)
      · rw [Function.update_of_ne hsame] at hthere
        refine accounted_tidy ?_ hthere
        rw [hguarantees.2.1]
        trivial
  | write tmp' text =>
      refine accounted_update ?_ (fun _ => .inr ⟨text, rfl⟩) hthere
      rw [hguarantees.2]
      rfl
  | torn tmp' text written e =>
      refine accounted_update ?_ (fun _ => .inl rfl) hthere
      rw [hguarantees.2]
      rfl
  | replace htmp =>
      obtain ⟨-, -, task, file, text, -, -, htemp, -⟩ := hguarantees
      refine accounted_update ?_ (absurd rfl) hthere
      rw [htemp]
      rfl
  | unlink tmp' => exact accounted_update hguarantees.2 (absurd rfl) hthere
  | tempExists tmp' =>
      cases htmp : crowd.state.temps tmp' with
      | some text => exact accounted_kept (by rfl) hthere
      | none => exact hmissed hguarantees.2 hthere id
  | _ => exact accounted_kept rfl hthere

/-- A temporary file is one of a process that made it and is not done with it, or
could not remove it. -/
structure Littered (codec : Codec TaskRecord) (crowd : Processes ι α) : Prop where
  made : ∀ i tmp, (desk codec crowd.trace i).temp.name = some tmp →
    (i, ⟨.mkstemp, .ok tmp⟩) ∈ crowd.trace
  saving : ∀ i, ¬ (desk codec crowd.trace i).temp.Tidy →
    ∃ task, (desk codec crowd.trace i).calling = some (.save task)
  owned : ∀ tmp, crowd.state.temps tmp ≠ none → ∃ i, (i, ⟨.mkstemp, .ok tmp⟩) ∈ crowd.trace ∧
    ((desk codec crowd.trace i).temp.Owns tmp ∨ ∃ e, (i, e) ∈ crowd.trace ∧ RemovalFailed tmp e)

theorem Littered.call (hlittered : Littered codec crowd)
    (hsound : Sound codec statFails start crowd)
    {rest : FileReply c → Prog FileCall FileReply α}
    (hprogram : crowd.program i = some (.call c rest))
    (houtcome : Outcome statFails i crowd.state c answer disk') :
    Littered codec
      { program := Function.update crowd.program i (some (rest answer))
        trace := (i, ⟨c, answer⟩) :: crowd.trace
        state := disk' } := by
  have hguarantees := hsound.keeps.guarantees hprogram
  have hagrees := hsound.agrees i (by rw [hprogram]; rfl)
  have hmade : ∀ j tmp, (desk codec ((i, ⟨c, answer⟩) :: crowd.trace) j).temp.name = some tmp →
      (j, ⟨.mkstemp, .ok tmp⟩) ∈ (i, ⟨c, answer⟩) :: crowd.trace := by
    intro j tmp hname
    by_cases hsame : j = i
    · subst hsame
      rw [desk_cons_self] at hname
      rcases made_next hguarantees hname with hbefore | hevent
      · exact List.mem_cons_of_mem _ (hlittered.made j tmp hbefore)
      · rw [hevent]
        exact List.mem_cons_self
    · rw [desk_cons_of_ne hsame] at hname
      exact List.mem_cons_of_mem _ (hlittered.made j tmp hname)
  refine ⟨hmade, ?_, ?_⟩
  · intro j huntidy
    dsimp only at huntidy ⊢
    by_cases hsame : j = i
    · subst hsame
      rw [desk_cons_self] at huntidy ⊢
      exact saving_next hguarantees (hlittered.saving j) huntidy
    · rw [desk_cons_of_ne hsame] at huntidy ⊢
      exact hlittered.saving j huntidy
  · intro tmp hthere
    dsimp only at hthere ⊢
    rcases accounted_of_outcome hagrees hguarantees houtcome hthere with
      howns | ⟨hbefore, hfailed⟩
    · rw [← temp_next, ← desk_cons_self] at howns
      exact ⟨i, hmade i tmp howns.name, .inl howns⟩
    · obtain ⟨j, hmem, howns | ⟨e, he, hremoval⟩⟩ := hlittered.owned tmp hbefore
      · refine ⟨j, List.mem_cons_of_mem _ hmem, ?_⟩
        by_cases hsame : j = i
        · subst hsame
          exact .inr ⟨_, List.mem_cons_self, hfailed howns⟩
        · rw [desk_cons_of_ne hsame]
          exact .inl howns
      · exact ⟨j, List.mem_cons_of_mem _ hmem, .inr ⟨e, List.mem_cons_of_mem _ he, hremoval⟩⟩

theorem run_littered (codec : Codec TaskRecord) (statFails : Bool)
    (programs : ι → Prog StoreCall StoreReply α) (file : TaskFile)
    (schedule : List (Crowd.Turn ι DiskFault)) :
    Littered codec ((processes codec programs file).run (device statFails) schedule) := by
  have hboth :
      Sound codec statFails file
          ((processes codec programs file).run (device statFails) schedule) ∧
        Littered codec ((processes codec programs file).run (device statFails) schedule) := by
    refine run_invariant
      (I := fun crowd => Sound codec statFails file crowd ∧ Littered codec crowd) ?_ ?_
    · rintro crowd turn ⟨hsound, hlittered⟩
      refine ⟨hsound.step turn, ?_⟩
      have hchange := step_change (device statFails) crowd turn
      generalize crowd.step (device statFails) turn = crowd' at hchange ⊢
      cases hchange with
      | nothing => exact hlittered
      | call hprogram hanswer =>
          exact hlittered.call hsound hprogram (outcome_of_mayAnswer hanswer)
      | death halive => exact ⟨hlittered.made, hlittered.saving, hlittered.owned⟩
    · refine ⟨sound_start programs file, ?_, ?_, ?_⟩
      · exact fun _ _ hname => by cases hname
      · exact fun _ huntidy => absurd trivial huntidy
      · exact fun _ hthere => absurd rfl hthere
  exact hboth.2

/-- The process is in the middle of a save, or has died there. -/
structure InSave (crowd : Processes ι α) (i : ι) : Prop where
  underway : ∃ task, underway (ownCalls i crowd.trace) = some (.save task)
  program : crowd.program i = none ∨ ¬ Stopped (crowd.program i)

/-- A temporary file is left only by a process that is in the middle of a save, or
has died there, or that could not remove it; and it is the file of that process. -/
theorem store_leaves_no_litter (codec : Codec TaskRecord) (statFails : Bool)
    (programs : ι → Prog StoreCall StoreReply α) (file : TaskFile)
    (schedule : List (Crowd.Turn ι DiskFault)) (tmp : Nat) :
    ((processes codec programs file).run (device statFails) schedule).state.temps tmp = none ∨
      ∃ i, (i, ⟨.mkstemp, .ok tmp⟩) ∈
          ((processes codec programs file).run (device statFails) schedule).trace ∧
        (InSave ((processes codec programs file).run (device statFails) schedule) i ∨
          ∃ e, (i, e) ∈ ((processes codec programs file).run (device statFails) schedule).trace ∧
            RemovalFailed tmp e) := by
  have horderly := (orderly_start codec statFails programs file).run schedule
  have hlittered := run_littered codec statFails programs file schedule
  generalize (processes codec programs file).run (device statFails) schedule = crowd
    at horderly hlittered ⊢
  by_cases hthere : crowd.state.temps tmp = none
  · exact .inl hthere
  · obtain ⟨i, hmade, howns | hremoval⟩ := hlittered.owned tmp hthere
    · refine .inr ⟨i, hmade, .inl ⟨?_, ?_⟩⟩
      · obtain ⟨task, hcalling⟩ := hlittered.saving i howns.not_tidy
        exact ⟨task, (calling_view codec _).symm.trans hcalling⟩
      · cases hprogram : crowd.program i with
        | none => exact .inl rfl
        | some program =>
            refine .inr fun hstopped => howns.not_tidy ?_
            rw [← hprogram] at hstopped
            rw [horderly.stopped_free hprogram hstopped]
            trivial
    · exact .inr ⟨i, hmade, .inr hremoval⟩

end Conductor.LocalTaskStore.Steps
