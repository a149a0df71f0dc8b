/-
The store of tasks in a file is linearizable.  Whatever the processes do, fail at
or die of, the file is what the calls have made of it that have taken effect, in
the order in which they have, and each of them was answered accordingly.
-/
import Conductor.Runtime.FileContract
import Conductor.Runtime.Interchange

namespace Conductor.LocalTaskStore.Steps

open Effects Crowd StoreDisk

variable {ι α : Type} [DecidableEq ι] (codec : Codec TaskRecord)

/-- Processes that work on one file. -/
abbrev Processes (ι α : Type) := Crowd ι (StoreDisk ι) FileCall FileReply α

abbrev FileLog (ι : Type) := CallLog ι FileCall FileReply

/-- Processes that are about to run their programs. -/
def processes (programs : ι → Prog StoreCall StoreReply α) (file : TaskFile) : Processes ι α :=
  .start (fun i => process codec (programs i)) (.idle file)

/-- What a process knows. -/
abbrev desk (log : FileLog ι) (i : ι) : Desk := known (contract codec) log i

/-- The calls that have taken effect with their responses, the last one first. -/
def linearised : FileLog ι → List (ι × Entry)
  | [] => []
  | (i, e) :: log =>
      match effectOf codec (desk codec log i) e.call e.answer with
      | some entry => (i, entry) :: linearised log
      | none => linearised log

/-- What one of the processes has done. -/
def ownEntries (i : ι) : List (ι × Entry) → List Entry
  | [] => []
  | (j, entry) :: entries =>
      if j = i then entry :: ownEntries i entries else ownEntries i entries

/-- The calls of a process that have returned and not raised, the last one first. -/
def completed : History FileCall FileReply → List Entry
  | [] => []
  | ⟨.returned call reply, _⟩ :: h =>
      (reply.toOption.map fun response => ⟨call, response⟩).toList ++ completed h
  | _ :: h => completed h

/-- The call that a process has begun and not returned from. -/
def underway : History FileCall FileReply → Option StoreCall
  | [] => none
  | ⟨.began call, _⟩ :: _ => some call
  | ⟨.returned _ _, _⟩ :: _ => none
  | _ :: h => underway h

/-- Of this process the order has the calls that have returned, the last one first,
and perhaps the one that the process is in. -/
def Covers (order : List (ι × Entry)) (log : FileLog ι) (i : ι) : Prop :=
  ownEntries i order = completed (ownCalls i log) ∨
    ∃ entry, underway (ownCalls i log) = some entry.1 ∧
      ownEntries i order = entry :: completed (ownCalls i log)

/-- The file after the calls, one after the other: each is answered on the
content that it finds. -/
def Legal (start : TaskFile) : List (ι × Entry) → TaskFile → Prop
  | [], file => file = start
  | (_, ⟨.save task, response⟩) :: entries, file =>
      response = task ∧ ∃ before, Legal start entries before ∧
        LocalTaskStore.save codec task before = .ok file
  | (_, ⟨.get taskId, response⟩) :: entries, file =>
      Legal start entries file ∧ LocalTaskStore.get codec taskId file = .ok response
  | (_, ⟨.list q, response⟩) :: entries, file =>
      Legal start entries file ∧ LocalTaskStore.list codec q file = .ok response

variable {codec} {d : Desk} {disk disk' : StoreDisk ι} {i : ι} {c : FileCall}
variable {answer : FileReply c} {statFails : Bool}

/-- What a process knows is so on the disk.  Of the file it knows what there is,
unless a stat may have failed. -/
structure Agrees (statFails : Bool) (d : Desk) (disk : StoreDisk ι) (i : ι) : Prop where
  holder : d.locked = true → disk.holder = some i
  outside : d.locked = false → d.read = none ∧ d.temp = .absent
  read : statFails = false → ∀ file, d.read = some file → file = disk.file
  complete : ∀ tmp text, d.temp = .complete tmp text → disk.temps tmp = some text
  moved : ∀ tmp, d.temp = .moved tmp → disk.temps tmp = none

omit [DecidableEq ι] in
/-- The effect of an operation apart, a process knows what `advance` says. -/
theorem agrees_next :
    Agrees statFails (next codec d c answer) disk i ↔
      Agrees statFails (advance d c answer) disk i := by
  unfold next
  cases effectOf codec d c answer with
  | none => exact Iff.rfl
  | some entry =>
      constructor
      · exact fun h => ⟨h.holder, h.outside, h.read, h.complete, h.moved⟩
      · exact fun h => ⟨h.holder, h.outside, h.read, h.complete, h.moved⟩

omit [DecidableEq ι] in
/-- The answers of the disk are those that the process relies on. -/
theorem Agrees.relies (hagrees : Agrees statFails d disk i)
    (houtcome : Outcome statFails i disk c answer disk') :
    Relies d c answer := by
  cases c with
  | tempExists tmp =>
      intro hmoved
      have hgone := hagrees.moved tmp hmoved
      cases houtcome with
      | tempExists =>
          rw [hgone]
          rfl
      | tempUnseen => rfl
      | failed hfails e => cases hfails
  | unlock =>
      cases houtcome with
      | unlock => rfl
      | failed hfails e => cases hfails
  | _ => trivial

omit [DecidableEq ι] in
/-- A process that changes the disk has the lock, or takes it while it is free. -/
theorem Agrees.alone (hagrees : Agrees statFails d disk i) (hguarantees : Guarantees codec d c)
    (houtcome : Outcome statFails i disk c answer disk') :
    disk' = disk ∨ disk.holder = none ∨ disk.holder = some i := by
  cases houtcome with
  | flock hfree => exact .inr (.inl hfree)
  | unlock | mkstemp | unlink tmp | write | torn | replace =>
      exact .inr (.inr (hagrees.holder hguarantees.1))
  | _ => exact .inl rfl

omit [DecidableEq ι] in
theorem agrees_outside (hlocked : d.locked = false) (houtside : d.read = none ∧ d.temp = .absent) :
    Agrees statFails d disk i where
  holder hholds := absurd hholds (ne_true_of_eq_false hlocked)
  outside _ := houtside
  read _ file hfile := by
    rw [houtside.1] at hfile
    cases hfile
  complete tmp text hcomplete := by
    rw [houtside.2] at hcomplete
    cases hcomplete
  moved tmp hmoved := by
    rw [houtside.2] at hmoved
    cases hmoved

omit [DecidableEq ι] in
/-- With the lock, another temporary file is known of, and neither the lock nor the
file has changed. -/
theorem Agrees.withTemp (hagrees : Agrees statFails d disk i) (hlocked : d.locked = true)
    {temp : Temp} (hholder : disk'.holder = disk.holder) (hfile : disk'.file = disk.file)
    (hcomplete : ∀ tmp text, temp = .complete tmp text → disk'.temps tmp = some text)
    (hmoved : ∀ tmp, temp = .moved tmp → disk'.temps tmp = none) :
    Agrees statFails { d with temp := temp } disk' i where
  holder hholds := hholder.trans (hagrees.holder hholds)
  outside hunlocked := absurd hlocked (ne_true_of_eq_false hunlocked)
  read hstat file hread := (hagrees.read hstat file hread).trans hfile.symm
  complete := hcomplete
  moved := hmoved

omit [DecidableEq ι] in
/-- A temporary file is said not to be there, and what was moved is not. -/
theorem Agrees.unseen (hagrees : Agrees statFails d disk i) (hlocked : d.locked = true)
    (tmp : Nat) : Agrees statFails { d with temp := d.temp.unseen tmp } disk i := by
  apply hagrees.withTemp hlocked rfl rfl
  · intro tmp' text htemp
    cases hold : d.temp <;> rw [hold] at htemp <;> cases htemp
  · intro tmp' htemp
    apply hagrees.moved tmp'
    cases hold : d.temp with
    | moved tmp'' =>
        rw [hold] at htemp
        exact htemp
    | _ =>
        rw [hold] at htemp
        cases htemp

omit [DecidableEq ι] in
/-- With the lock, the file has been read, and what was read is what there is. -/
theorem Agrees.withRead (hagrees : Agrees statFails d disk i) (hlocked : d.locked = true)
    {file : TaskFile} (hfile : statFails = false → disk.file = file) :
    Agrees statFails { d with read := some file } disk i where
  holder := hagrees.holder
  outside hunlocked := absurd hlocked (ne_true_of_eq_false hunlocked)
  read hstat read hread := by
    cases hread
    exact (hfile hstat).symm
  complete := hagrees.complete
  moved := hagrees.moved

omit [DecidableEq ι] in
theorem Agrees.advance (hagrees : Agrees statFails d disk i) (hguarantees : Guarantees codec d c)
    (houtcome : Outcome statFails i disk c answer disk') :
    Agrees statFails (Steps.advance d c answer) disk' i := by
  cases houtcome with
  | failed hfails e =>
      cases c with
      | unlink tmp => exact hagrees.withTemp hguarantees.1 rfl rfl nofun nofun
      | «exists» | tempExists | write | unlock | began | returned => cases hfails
      | _ => exact hagrees
  | began | returned | unlock => exact agrees_outside rfl ⟨rfl, rfl⟩
  | mkdir | openLock | fsync | there => exact hagrees
  | unseen hstat =>
      apply hagrees.withRead hguarantees.1
      intro hseen
      rw [hstat] at hseen
      cases hseen
  | tempUnseen _ tmp => exact hagrees.unseen hguarantees.1 tmp
  | tempExists tmp =>
      cases htmp : disk.temps tmp with
      | some text => exact hagrees
      | none => exact hagrees.unseen hguarantees.1 tmp
  | flock hfree =>
      constructor
      · exact fun _ => rfl
      · exact fun hlocked => by cases hlocked
      · exact hagrees.read
      · exact hagrees.complete
      · exact hagrees.moved
  | missing hfile => exact hagrees.withRead hguarantees.1 fun _ => hfile
  | readText hfile => exact hagrees.withRead hguarantees.1 fun _ => hfile
  | mkstemp | torn | unlink => exact hagrees.withTemp hguarantees.1 rfl rfl nofun nofun
  | write tmp text =>
      refine hagrees.withTemp hguarantees.1 rfl rfl ?_ nofun
      intro tmp' text' htemp
      cases htemp
      exact Function.update_self _ _ _
  | replace htmp =>
      constructor
      · exact hagrees.holder
      · exact fun hunlocked => absurd hguarantees.1 (ne_true_of_eq_false hunlocked)
      · exact fun _ _ hread => by cases hread
      · exact fun _ _ htemp => by cases htemp
      · intro tmp' htemp
        cases htemp
        exact Function.update_self _ _ _

/-- An effect is one of the call that the process is in. -/
theorem calling_of_effect {entry : Entry} (heffect : effectOf codec d c answer = some entry) :
    d.calling = some entry.1 := by
  have hanswered {file : TaskFile} (hanswer : answerFrom codec file d.calling = some entry) :
      d.calling = some entry.1 := by
    cases hcalling : d.calling with
    | none =>
        rw [hcalling] at hanswer
        cases hanswer
    | some call =>
        rw [hcalling] at hanswer
        cases call with
        | save task => cases hanswer
        | get taskId =>
            obtain ⟨found, -, hentry⟩ := Option.map_eq_some_iff.mp hanswer
            rw [← hentry]
        | list q =>
            obtain ⟨found, -, hentry⟩ := Option.map_eq_some_iff.mp hanswer
            rw [← hentry]
  cases c with
  | «exists» =>
      rcases answer with e | _ | _
      · cases heffect
      · exact hanswered heffect
      · cases heffect
  | readText =>
      cases answer with
      | error e => cases heffect
      | ok raw => exact hanswered heffect
  | replace tmp =>
      cases answer with
      | error e => cases heffect
      | ok _ =>
          cases hcalling : d.calling with
          | none =>
              simp only [effectOf, hcalling] at heffect
              cases heffect
          | some call =>
              simp only [effectOf, hcalling] at heffect
              cases call with
              | save task =>
                  cases heffect
                  rfl
              | get taskId => cases heffect
              | list q => cases heffect
  | _ => cases heffect

omit [DecidableEq ι] in
/-- Another process is not affected. -/
theorem Agrees.frame {j : ι} {dj : Desk} (hagrees : Agrees statFails dj disk j) (hne : j ≠ i)
    (halone : disk' = disk ∨ disk.holder = none ∨ disk.holder = some i) :
    Agrees statFails dj disk' j := by
  rcases halone with rfl | hfree
  · exact hagrees
  · have hunlocked : dj.locked = false := by
      cases hlocked : dj.locked with
      | false => rfl
      | true =>
          have hholder := hagrees.holder hlocked
          rcases hfree with hnone | hother
          · rw [hnone] at hholder
            cases hholder
          · rw [hother] at hholder
            exact absurd (Option.some.inj hholder).symm hne
    exact agrees_outside hunlocked (hagrees.outside hunlocked)

omit [DecidableEq ι] in
/-- Only a replacement changes the file. -/
theorem file_of_outcome (houtcome : Outcome statFails i disk c answer disk')
    (hreplace : ∀ tmp, c ≠ .replace tmp) : disk'.file = disk.file := by
  cases houtcome with
  | replace htmp => exact absurd rfl (hreplace _)
  | _ => rfl

/-- What a process knows of its effect is what it has not returned yet. -/
theorem told_next (hguarantees : Guarantees codec d c) (h : History FileCall FileReply) :
    (next codec d c answer).effect.toList ++ completed (⟨c, answer⟩ :: h) =
      (effectOf codec d c answer).toList ++ (d.effect.toList ++ completed h) := by
  -- an operation that can have an effect is one of a call that has had none
  have hfirst (hnone : d.effect = none)
      (hadvance : (Steps.advance d c answer).effect = d.effect)
      (hsame : completed (⟨c, answer⟩ :: h) = completed h) :
      (next codec d c answer).effect.toList ++ completed (⟨c, answer⟩ :: h) =
        (effectOf codec d c answer).toList ++ (d.effect.toList ++ completed h) := by
    rw [hsame, hnone]
    unfold next
    cases effectOf codec d c answer with
    | none =>
        dsimp only
        rw [hadvance, hnone]
        rfl
    | some entry => rfl
  cases c with
  | began call =>
      cases hguarantees
      rfl
  | returned call reply =>
      rw [hguarantees.2.2]
      rfl
  | «exists» =>
      apply hfirst hguarantees.2 _ rfl
      rcases answer with e | _ | _ <;> rfl
  | readText =>
      apply hfirst hguarantees.2 _ rfl
      cases answer <;> rfl
  | replace tmp =>
      apply hfirst hguarantees.2.1 _ rfl
      cases answer <;> rfl
  | tempExists tmp => rcases answer with e | _ | _ <;> rfl
  | _ => cases answer <;> rfl

theorem calling_next {h : History FileCall FileReply} (hcalling : d.calling = underway h) :
    (next codec d c answer).calling = underway (⟨c, answer⟩ :: h) := by
  have hnext : (next codec d c answer).calling = (Steps.advance d c answer).calling := by
    unfold next
    cases effectOf codec d c answer <;> rfl
  rw [hnext]
  cases c with
  | began call | returned call reply => rfl
  | «exists» | tempExists tmp => rcases answer with e | _ | _ <;> exact hcalling
  | _ => cases answer <;> exact hcalling

/-- The effect that a process knows of is one of the call that it is in. -/
theorem current_next (hcurrent : ∀ entry, d.effect = some entry → d.calling = some entry.1)
    {entry : Entry} (heffect : (next codec d c answer).effect = some entry) :
    (next codec d c answer).calling = some entry.1 := by
  unfold next at heffect ⊢
  cases hnew : effectOf codec d c answer with
  | some new =>
      rw [hnew] at heffect
      cases heffect
      have hcalling := calling_of_effect hnew
      dsimp only
      cases c with
      | began call | returned call reply => cases hnew
      | «exists» | tempExists tmp => rcases answer with e | _ | _ <;> exact hcalling
      | _ => cases answer <;> exact hcalling
  | none =>
      rw [hnew] at heffect
      dsimp only at heffect ⊢
      cases c with
      | began call | returned call reply => cases heffect
      | «exists» | tempExists tmp => rcases answer with e | _ | _ <;> exact hcurrent entry heffect
      | _ => cases answer <;> exact hcurrent entry heffect

section Histories

variable (codec) {h : History FileCall FileReply}

/-- What the calls of a process have done, the last one first. -/
def effects : History FileCall FileReply → List Entry
  | [] => []
  | e :: h => (effectOf codec ((contract codec).view h) e.call e.answer).toList ++ effects h

/-- A process has done what it has returned, and perhaps the call that it is in. -/
theorem effects_eq (hkept : (contract codec).Kept h) :
    effects codec h = ((contract codec).view h).effect.toList ++ completed h := by
  induction h with
  | nil => rfl
  | cons e h ih =>
      rw [effects, ih hkept.2]
      exact (told_next hkept.1 h).symm

theorem calling_view (h : History FileCall FileReply) :
    ((contract codec).view h).calling = underway h := by
  induction h with
  | nil => rfl
  | cons e h ih => exact calling_next ih

theorem current_view (h : History FileCall FileReply) (entry : Entry)
    (heffect : ((contract codec).view h).effect = some entry) :
    underway h = some entry.1 := by
  rw [← calling_view codec]
  induction h generalizing entry with
  | nil => cases heffect
  | cons e h ih => exact current_next ih heffect

theorem ownEntries_linearised (i : ι) (log : FileLog ι) :
    ownEntries i (linearised codec log) = effects codec (ownCalls i log) := by
  induction log with
  | nil => rfl
  | cons event log ih =>
      obtain ⟨j, e⟩ := event
      rw [linearised, ownCalls]
      by_cases hsame : j = i
      · subst hsame
        rw [if_pos rfl, effects, ← ih]
        change ownEntries j (match effectOf codec (desk codec log j) e.call e.answer with
          | some entry => (j, entry) :: linearised codec log
          | none => linearised codec log) =
            (effectOf codec (desk codec log j) e.call e.answer).toList ++ _
        cases effectOf codec (desk codec log j) e.call e.answer with
        | none => rfl
        | some entry => exact if_pos rfl
      · rw [if_neg hsame, ← ih]
        cases effectOf codec (desk codec log j) e.call e.answer with
        | none => rfl
        | some entry => exact if_neg hsame

theorem covers_linearised {log : FileLog ι} (hkept : (contract codec).Kept (ownCalls i log)) :
    Covers (linearised codec log) log i := by
  rw [Covers, ownEntries_linearised, effects_eq codec hkept]
  cases heffect : ((contract codec).view (ownCalls i log)).effect with
  | none => exact .inl rfl
  | some entry => exact .inr ⟨entry, current_view codec _ entry heffect, rfl⟩

end Histories

section Effect

variable {start file : TaskFile} {entries : List (ι × Entry)} {log : FileLog ι}

theorem linearised_none (hnone : effectOf codec (desk codec log i) c answer = none) :
    linearised codec ((i, ⟨c, answer⟩) :: log) = linearised codec log := by
  rw [linearised, hnone]

theorem linearised_some {entry : Entry}
    (hsome : effectOf codec (desk codec log i) c answer = some entry) :
    linearised codec ((i, ⟨c, answer⟩) :: log) = (i, entry) :: linearised codec log := by
  rw [linearised, hsome]

omit [DecidableEq ι] in
/-- A call that reads is answered as it is on the content of the file. -/
theorem legal_answer {entry : Entry} {calling : Option StoreCall}
    (hanswer : answerFrom codec file calling = some entry)
    (hlegal : Legal codec start entries file) :
    Legal codec start ((i, entry) :: entries) file := by
  have hok {β : Type} {reply : Except PyExc β} {found : β} (hreply : reply.toOption = some found) :
      reply = .ok found := by
    cases reply with
    | error e => cases hreply
    | ok value =>
        cases hreply
        rfl
  cases calling with
  | none => cases hanswer
  | some call =>
      cases call with
      | save task => cases hanswer
      | get taskId =>
          obtain ⟨found, hfound, hentry⟩ := Option.map_eq_some_iff.mp hanswer
          rw [← hentry]
          exact ⟨hlegal, hok hfound⟩
      | list q =>
          obtain ⟨found, hfound, hentry⟩ := Option.map_eq_some_iff.mp hanswer
          rw [← hentry]
          exact ⟨hlegal, hok hfound⟩

omit [DecidableEq ι] in
/-- An operation of a call either has no effect and leaves the file, or it has
the effect of the call on the content that there was, as long as stats do not
fail. -/
theorem effect_cases (hagrees : Agrees false d disk i) (hguarantees : Guarantees codec d c)
    (houtcome : Outcome false i disk c answer disk') :
    (effectOf codec d c answer = none ∧ disk'.file = disk.file) ∨
      ∃ entry, effectOf codec d c answer = some entry ∧
        ∀ start (entries : List (ι × Entry)), Legal codec start entries disk.file →
          Legal codec start ((i, entry) :: entries) disk'.file := by
  have hread {file : TaskFile} (hfile : disk.file = file)
      (heffect : effectOf codec d c answer = answerFrom codec file d.calling)
      (hsame : disk'.file = disk.file) :
      (effectOf codec d c answer = none ∧ disk'.file = disk.file) ∨
        ∃ entry, effectOf codec d c answer = some entry ∧
          ∀ start (entries : List (ι × Entry)), Legal codec start entries disk.file →
            Legal codec start ((i, entry) :: entries) disk'.file := by
    cases hentry : answerFrom codec file d.calling with
    | none => exact .inl ⟨heffect.trans hentry, hsame⟩
    | some entry =>
        refine .inr ⟨entry, heffect.trans hentry, fun start entries hlegal => ?_⟩
        rw [hsame]
        rw [hfile] at hlegal ⊢
        exact legal_answer hentry hlegal
  cases houtcome with
  | unseen hstat | tempUnseen hstat => cases hstat
  | missing hfile => exact hread hfile rfl rfl
  | readText hfile => exact hread hfile rfl rfl
  | replace htmp =>
      obtain ⟨-, -, task, file, text, hcalling, hfile, htemp, htext⟩ := hguarantees
      refine .inr ⟨⟨.save task, task⟩, ?_, fun start entries hlegal => ?_⟩
      · simp only [effectOf, hcalling]
      · refine ⟨rfl, disk.file, hlegal, ?_⟩
        rw [← hagrees.read rfl file hfile, LocalTaskStore.save, htext]
        exact congrArg Except.ok ((hagrees.complete _ _ htemp).symm.trans htmp)
  | failed hfails e =>
      refine .inl ⟨?_, rfl⟩
      cases c <;> rfl
  | _ => exact .inl ⟨rfl, rfl⟩

theorem legal_step (hagrees : Agrees false (desk codec log i) disk i)
    (hguarantees : Guarantees codec (desk codec log i) c)
    (houtcome : Outcome false i disk c answer disk')
    (hlegal : Legal codec start (linearised codec log) disk.file) :
    Legal codec start (linearised codec ((i, ⟨c, answer⟩) :: log)) disk'.file := by
  rcases effect_cases hagrees hguarantees houtcome with ⟨hnone, hsame⟩ | ⟨entry, hsome, heffect⟩
  · rw [linearised_none hnone, hsame]
    exact hlegal
  · rw [linearised_some hsome]
    exact heffect start _ hlegal

end Effect

/-- The processes keep to the contract and know what is so, and the calls that
have taken effect are a legal history of the file, unless stats may fail. -/
structure Sound (codec : Codec TaskRecord) (statFails : Bool) (start : TaskFile)
    (crowd : Processes ι α) : Prop where
  keeps : Keeps (contract codec) crowd
  agrees : ∀ i, (crowd.program i).isSome →
    Agrees statFails (desk codec crowd.trace i) crowd.state i
  legal : statFails = false →
    Legal codec start (linearised codec crowd.trace) crowd.state.file

theorem sound_start (programs : ι → Prog StoreCall StoreReply α) (file : TaskFile) :
    Sound codec statFails file (processes codec programs file) where
  keeps := keeps_start _ fun i => wp_process codec (programs i)
  agrees _ _ := agrees_outside rfl ⟨rfl, rfl⟩
  legal _ := rfl

theorem desk_cons_self (log : FileLog ι) (i : ι) (c : FileCall) (answer : FileReply c) :
    desk codec ((i, ⟨c, answer⟩) :: log) i = next codec (desk codec log i) c answer :=
  known_cons_self log i _

theorem desk_cons_of_ne {j : ι} (hne : j ≠ i) (log : FileLog ι) (e : Event FileCall FileReply) :
    desk codec ((i, e) :: log) j = desk codec log j :=
  known_cons_of_ne log hne e

theorem Sound.call {start : TaskFile} {crowd : Processes ι α}
    (hsound : Sound codec statFails start crowd)
    {next : FileReply c → Prog FileCall FileReply α}
    (hprogram : crowd.program i = some (.call c next))
    (houtcome : Outcome statFails i crowd.state c answer disk') :
    Sound codec statFails start
      { program := Function.update crowd.program i (some (next answer))
        trace := (i, ⟨c, answer⟩) :: crowd.trace
        state := disk' } := by
  have hguarantees := hsound.keeps.guarantees hprogram
  have hagrees := hsound.agrees i (by rw [hprogram]; rfl)
  constructor
  · exact hsound.keeps.call hprogram (hagrees.relies houtcome) disk'
  · intro j hj
    by_cases hsame : j = i
    · subst hsame
      dsimp only
      rw [desk_cons_self]
      exact agrees_next.mpr (hagrees.advance hguarantees houtcome)
    · dsimp only at hj ⊢
      rw [Function.update_of_ne hsame] at hj
      have hother := hsound.agrees j hj
      rw [desk_cons_of_ne hsame]
      exact hother.frame hsame (hagrees.alone hguarantees houtcome)
  · intro hstat
    subst hstat
    exact legal_step hagrees hguarantees houtcome (hsound.legal rfl)

theorem bury_of_ne {j : ι} (hagrees : Agrees statFails d disk j) (hne : j ≠ i) :
    Agrees statFails d (StoreDisk.bury i disk) j := by
  refine ⟨fun hlocked => ?_, hagrees.outside, hagrees.read, hagrees.complete, hagrees.moved⟩
  have hholder := hagrees.holder hlocked
  have hother : disk.holder ≠ some i := by
    rw [hholder]
    exact fun hsame => hne (Option.some.inj hsame)
  rw [StoreDisk.bury]
  dsimp only
  rw [if_neg hother]
  exact hholder

/-- A process dies, and its lock is released. -/
theorem Sound.death {start : TaskFile} {crowd : Processes ι α}
    (hsound : Sound codec statFails start crowd)
    (i : ι) :
    Sound codec statFails start
      { program := Function.update crowd.program i none
        trace := crowd.trace
        state := StoreDisk.bury i crowd.state } := by
  refine ⟨hsound.keeps.death i _, ?_, hsound.legal⟩
  intro j hj
  dsimp only at hj ⊢
  by_cases hsame : j = i
  · subst hsame
    rw [Function.update_self] at hj
    cases hj
  · rw [Function.update_of_ne hsame] at hj
    exact bury_of_ne (hsound.agrees j hj) hsame

theorem Sound.step {start : TaskFile} {crowd : Processes ι α}
    (hsound : Sound codec statFails start crowd) (turn : Crowd.Turn ι DiskFault) :
    Sound codec statFails start (crowd.step (StoreDisk.device statFails) turn) := by
  have hchange := step_change (StoreDisk.device statFails) crowd turn
  generalize crowd.step (StoreDisk.device statFails) turn = crowd' at hchange ⊢
  cases hchange with
  | nothing => exact hsound
  | call hprogram hanswer => exact hsound.call hprogram (outcome_of_mayAnswer hanswer)
  | death halive => exact hsound.death _

theorem run_sound (codec : Codec TaskRecord) (statFails : Bool)
    (programs : ι → Prog StoreCall StoreReply α)
    (file : TaskFile) (schedule : List (Crowd.Turn ι DiskFault)) :
    Sound codec statFails file
      ((processes codec programs file).run (StoreDisk.device statFails) schedule) :=
  run_invariant (fun _ turn hsound => hsound.step turn) (sound_start programs file)

end Conductor.LocalTaskStore.Steps
