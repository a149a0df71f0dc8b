/-
The store in a file refines one whose calls are made at once.  Whatever processes
do on the file, step by step, they could have done by calls that take no time and
fail as a whole or not at all.  A stat must not fail: the file would look as if it
were not there, and a save would replace it.
-/
import Conductor.Runtime.Linearised

namespace Conductor.LocalTaskStore.Steps

open Effects Crowd StoreDisk

variable {ι α : Type}

namespace AtomicStore

/-- A call is answered from the file and changes it.  One that raises does not. -/
def respond (codec : Codec TaskRecord) (_ : ι) (file : TaskFile) :
    (call : StoreCall) → Option (StoreReply call × TaskFile)
  | .save task =>
      match LocalTaskStore.save codec task file with
      | .ok file' => some (.ok task, file')
      | .error e => some (.error e, file)
  | .get taskId => some (LocalTaskStore.get codec taskId file, file)
  | .list q => some (LocalTaskStore.list codec q file, file)

/-- A call that fails has done nothing. -/
def fail (e : PyExc) (_ : ι) (file : TaskFile) (call : StoreCall) :
    Option (StoreReply call × TaskFile) :=
  some (.error e, file)

def device (codec : Codec TaskRecord) : Device ι TaskFile StoreCall StoreReply PyExc :=
  ⟨respond codec, fail, fun _ file => file⟩

/-- A legal effect is an answer of this store. -/
theorem respond_of_legal {codec : Codec TaskRecord} {file file' : TaskFile} {i : ι} {entry : Entry}
    (hlegal : Legal codec file [(i, entry)] file') :
    respond codec i file entry.1 = some (.ok entry.2, file') := by
  obtain ⟨call, response⟩ := entry
  cases call with
  | save task =>
      obtain ⟨hsaved, before, hbefore, hsave⟩ := hlegal
      obtain rfl : before = file := hbefore
      simp only [respond, hsave, show response = task from hsaved]
  | get taskId =>
      obtain ⟨hbefore, hget⟩ := hlegal
      obtain rfl : file' = file := hbefore
      simp only [respond, hget]
  | list q =>
      obtain ⟨hbefore, hlist⟩ := hlegal
      obtain rfl : file' = file := hbefore
      simp only [respond, hlist]

end AtomicStore

/-- The calls of the store that have returned, the last one first. -/
def returnedCalls : History FileCall FileReply → History StoreCall StoreReply
  | [] => []
  | ⟨.returned call reply, _⟩ :: h => ⟨call, reply⟩ :: returnedCalls h
  | _ :: h => returnedCalls h

/-- The call that has taken effect and not returned, if there is one. -/
def Desk.pending (d : Desk) : History StoreCall StoreReply :=
  d.effect.toList.map fun entry => ⟨entry.1, .ok entry.2⟩

/-- The body of a call makes no notes. -/
def quiet : Contract Unit FileCall FileReply where
  initial := ()
  next _ _ _ := ()
  guarantees _ c := c.isMark = false
  relies _ _ _ := True
  rests _ := True

/-- The rest of a call: its body, and what follows when it has returned. -/
def callBody (codec : Codec TaskRecord) (call : StoreCall)
    (next : StoreReply call → Prog StoreCall StoreReply α)
    (body : Prog FileCall FileReply (StoreReply call × Unit)) : Prog FileCall FileReply α :=
  body.bind fun ended => .call (.returned call ended.1) fun _ => process codec (next ended.1)

/-- What is left to do on the file, and what is left to do on the store. -/
inductive Tracks (codec : Codec TaskRecord) :
    Desk → Prog FileCall FileReply α → Prog StoreCall StoreReply α → Prop
  | resting (program : Prog StoreCall StoreReply α) :
      Tracks codec .free (process codec program) program
  | working {d : Desk} {call : StoreCall} {next : StoreReply call → Prog StoreCall StoreReply α}
      {body : Prog FileCall FileReply (StoreReply call × Unit)}
      (hcalling : d.calling = some call) (heffect : d.effect = none)
      (hquiet : body.wp quiet.logic (fun _ _ => True) ())
      (hbody : body.wp (logic codec) (fun ended d => Settled call ended.1 d) d) :
      Tracks codec d (callBody codec call next body) (.call call next)
  | worked {d : Desk} {call : StoreCall} {next : StoreReply call → Prog StoreCall StoreReply α}
      {body : Prog FileCall FileReply (StoreReply call × Unit)} {response : StoreResponse call}
      (hcalling : d.calling = some call) (heffect : d.effect = some ⟨call, response⟩)
      (hquiet : body.wp quiet.logic (fun _ _ => True) ())
      (hbody : body.wp (logic codec) (fun ended d => Settled call ended.1 d) d) :
      Tracks codec d (callBody codec call next body) (next (.ok response))

section Step

variable {codec : Codec TaskRecord} {d : Desk} {c : FileCall} {answer : FileReply c}

theorem calling_of_quiet (hquiet : c.isMark = false) :
    (next codec d c answer).calling = d.calling := by
  have hadvance : (advance d c answer).calling = d.calling := by
    cases c with
    | began call | returned call reply => cases hquiet
    | «exists» | tempExists tmp => rcases answer with e | _ | _ <;> rfl
    | _ => cases answer <;> rfl
  unfold next
  cases effectOf codec d c answer <;> exact hadvance

theorem effect_of_none (hquiet : c.isMark = false) (hnone : effectOf codec d c answer = none) :
    (next codec d c answer).effect = d.effect := by
  unfold next
  rw [hnone]
  cases c with
  | began call | returned call reply => cases hquiet
  | «exists» | tempExists tmp => rcases answer with e | _ | _ <;> rfl
  | _ => cases answer <;> rfl

theorem effect_of_some {entry : Entry} (hsome : effectOf codec d c answer = some entry) :
    (next codec d c answer).effect = some entry := by
  unfold next
  rw [hsome]

/-- Only a call that has not taken effect takes effect. -/
theorem effect_first (hguarantees : Guarantees codec d c) {entry : Entry}
    (hsome : effectOf codec d c answer = some entry) : d.effect = none := by
  cases c with
  | «exists» | readText => exact hguarantees.2
  | replace tmp => exact hguarantees.2.1
  | tempExists tmp => rcases answer with e | _ | _ <;> cases hsome
  | _ => cases answer <;> cases hsome

theorem returnedCalls_of_quiet (hquiet : c.isMark = false) (h : History FileCall FileReply) :
    returnedCalls (⟨c, answer⟩ :: h) = returnedCalls h := by
  cases c with
  | began call | returned call reply => cases hquiet
  | _ => rfl

end Step

/-- What an operation of the file is on the store: nothing, or one of its calls. -/
inductive Matched (codec : Codec TaskRecord) (d : Desk) (h : History FileCall FileReply)
    (file file' : TaskFile) (i : ι) (program' : Prog FileCall FileReply α)
    (e : Event FileCall FileReply) : Prog StoreCall StoreReply α → Prop
  | nothing {program : Prog StoreCall StoreReply α}
      (htracks : Tracks codec (next codec d e.call e.answer) program' program)
      (hfile : file' = file)
      (hcalls : (next codec d e.call e.answer).pending ++ returnedCalls (e :: h) =
        d.pending ++ returnedCalls h) :
      Matched codec d h file file' i program' e program
  | call {call : StoreCall} {rest : StoreReply call → Prog StoreCall StoreReply α}
      {reply : StoreReply call}
      (hanswer : MayAnswer (AtomicStore.device codec) i file call reply file')
      (htracks : Tracks codec (next codec d e.call e.answer) program' (rest reply))
      (hcalls : (next codec d e.call e.answer).pending ++ returnedCalls (e :: h) =
        ⟨call, reply⟩ :: (d.pending ++ returnedCalls h)) :
      Matched codec d h file file' i program' e (.call call rest)

section Match

variable {codec : Codec TaskRecord} {d : Desk} {disk disk' : StoreDisk ι} {i : ι}
variable {h : History FileCall FileReply} {c : FileCall} {answer : FileReply c}
variable {rest : FileReply c → Prog FileCall FileReply α}

/-- The process begins with its next call. -/
theorem matched_resting {program : Prog StoreCall StoreReply α}
    (hprogram : process codec program = .call c rest)
    (houtcome : Outcome false i disk c answer disk') :
    Matched codec .free h disk.file disk'.file i (rest answer) ⟨c, answer⟩ program := by
  cases program with
  | done value => cases hprogram
  | outOfFuel => cases hprogram
  | call call next =>
      cases hprogram
      have hfile : disk'.file = disk.file := by
        apply file_of_outcome houtcome
        simp
      refine .nothing ?_ hfile rfl
      exact .working rfl rfl (wp_perform_any (fun _ _ hmark => hmark) call) (wp_perform codec call)

/-- The body of a call goes on, or the call returns. -/
theorem matched_working {call : StoreCall}
    {next : StoreReply call → Prog StoreCall StoreReply α}
    {body : Prog FileCall FileReply (StoreReply call × Unit)}
    (hcalling : d.calling = some call) (heffect : d.effect = none)
    (hquiet : body.wp quiet.logic (fun _ _ => True) ())
    (hbody : body.wp (logic codec) (fun ended d => Settled call ended.1 d) d)
    (hprogram : callBody codec call next body = .call c rest) (hagrees : Agrees false d disk i)
    (houtcome : Outcome false i disk c answer disk') :
    Matched codec d h disk.file disk'.file i (rest answer) ⟨c, answer⟩ (.call call next) := by
  have hpending : d.pending = [] := by
    rw [Desk.pending, heffect]
    rfl
  cases body with
  | outOfFuel => cases hprogram
  | done ended =>
      cases hprogram
      have hfile : disk'.file = disk.file := by
        apply file_of_outcome houtcome
        simp
      -- the call has had no effect, so it raises
      have hnone : ended.1.toOption = none := by
        have hsettled : d.effect = ended.1.toOption.map fun response => ⟨call, response⟩ :=
          hbody.effect
        rw [heffect] at hsettled
        exact Option.map_eq_none_iff.mp hsettled.symm
      obtain ⟨reply, _⟩ := ended
      cases reply with
      | ok response => cases hnone
      | error e =>
          have hanswer : MayAnswer (AtomicStore.device codec) i disk.file call (.error e)
              disk'.file := by
            rw [hfile]
            exact .inr ⟨e, rfl⟩
          refine .call hanswer (.resting _) ?_
          rw [hpending]
          rfl
  | call c' rest' =>
      cases hprogram
      have hmark : c.isMark = false := hquiet.1
      have hcalling' : (Steps.next codec d c answer).calling = some call :=
        (calling_of_quiet hmark).trans hcalling
      have hbody' := hbody.2 answer (hagrees.relies houtcome)
      rcases effect_cases hagrees hbody.1 houtcome with ⟨hnone, hfile⟩ | ⟨entry, hsome, hlegal⟩
      · refine .nothing ?_ hfile ?_
        · exact .working hcalling' ((effect_of_none hmark hnone).trans heffect)
            (hquiet.2 answer trivial) hbody'
        · rw [Desk.pending, effect_of_none hmark hnone]
          exact congrArg _ (returnedCalls_of_quiet hmark h)
      · have hentry := calling_of_effect hsome
        rw [hcalling, Option.some.injEq] at hentry
        obtain ⟨call', response⟩ := entry
        dsimp only at hentry
        subst hentry
        have hanswer : MayAnswer (AtomicStore.device codec) i disk.file call (.ok response)
            disk'.file := .inl (AtomicStore.respond_of_legal (hlegal disk.file [] rfl))
        refine .call hanswer ?_ ?_
        · exact .worked hcalling' (effect_of_some hsome) (hquiet.2 answer trivial) hbody'
        · rw [Desk.pending, effect_of_some hsome, hpending]
          exact congrArg _ (returnedCalls_of_quiet hmark h)

/-- A call that has had its effect goes on, or it returns what it has done. -/
theorem matched_worked {call : StoreCall} {next : StoreReply call → Prog StoreCall StoreReply α}
    {body : Prog FileCall FileReply (StoreReply call × Unit)} {response : StoreResponse call}
    (hcalling : d.calling = some call) (heffect : d.effect = some ⟨call, response⟩)
    (hquiet : body.wp quiet.logic (fun _ _ => True) ())
    (hbody : body.wp (logic codec) (fun ended d => Settled call ended.1 d) d)
    (hprogram : callBody codec call next body = .call c rest) (hagrees : Agrees false d disk i)
    (houtcome : Outcome false i disk c answer disk') :
    Matched codec d h disk.file disk'.file i (rest answer) ⟨c, answer⟩ (next (.ok response)) := by
  cases body with
  | outOfFuel => cases hprogram
  | done ended =>
      cases hprogram
      have hfile : disk'.file = disk.file := by
        apply file_of_outcome houtcome
        simp
      have hsettled : d.effect = ended.1.toOption.map fun response => ⟨call, response⟩ :=
        hbody.effect
      rw [heffect] at hsettled
      obtain ⟨reply, _⟩ := ended
      cases reply with
      | error e => cases hsettled
      | ok returned =>
          cases hsettled
          have hpending : d.pending = [⟨call, .ok response⟩] := by
            rw [Desk.pending, heffect]
            rfl
          refine .nothing (.resting _) hfile ?_
          rw [hpending]
          rfl
  | call c' rest' =>
      cases hprogram
      have hmark : c.isMark = false := hquiet.1
      have hcalling' : (Steps.next codec d c answer).calling = some call :=
        (calling_of_quiet hmark).trans hcalling
      have hbody' := hbody.2 answer (hagrees.relies houtcome)
      rcases effect_cases hagrees hbody.1 houtcome with ⟨hnone, hfile⟩ | ⟨entry, hsome, -⟩
      · refine .nothing ?_ hfile ?_
        · exact .worked hcalling' ((effect_of_none hmark hnone).trans heffect)
            (hquiet.2 answer trivial) hbody'
        · rw [Desk.pending, effect_of_none hmark hnone]
          exact congrArg _ (returnedCalls_of_quiet hmark h)
      · rw [effect_first hbody.1 hsome] at heffect
        cases heffect

theorem Tracks.matched {program' : Prog FileCall FileReply α}
    {program : Prog StoreCall StoreReply α} (htracks : Tracks codec d program' program)
    (hprogram : program' = .call c rest) (hagrees : Agrees false d disk i)
    (houtcome : Outcome false i disk c answer disk') (h : History FileCall FileReply) :
    Matched codec d h disk.file disk'.file i (rest answer) ⟨c, answer⟩ program := by
  cases htracks with
  | resting => exact matched_resting hprogram houtcome
  | working hcalling heffect hquiet hbody =>
      exact matched_working hcalling heffect hquiet hbody hprogram hagrees houtcome
  | worked hcalling heffect hquiet hbody =>
      exact matched_worked hcalling heffect hquiet hbody hprogram hagrees houtcome

end Match

variable [DecidableEq ι]

/-- Clients of a store whose calls are made at once. -/
abbrev Clients (ι α : Type) := Crowd ι TaskFile StoreCall StoreReply α

/-- The clients are where the processes are, as far as the store can tell. -/
structure Follows (codec : Codec TaskRecord) (start : TaskFile) (crowd : Processes ι α)
    (clients : Clients ι α) : Prop where
  sound : Sound codec false start crowd
  file : clients.state = crowd.state.file
  dead : ∀ i, crowd.program i = none → clients.program i = none
  tracks : ∀ i program', crowd.program i = some program' → ∃ program,
    clients.program i = some program ∧ Tracks codec (desk codec crowd.trace i) program' program
  calls : ∀ i, ownCalls i clients.trace =
    (desk codec crowd.trace i).pending ++ returnedCalls (ownCalls i crowd.trace)

theorem follows_start (codec : Codec TaskRecord) (programs : ι → Prog StoreCall StoreReply α)
    (file : TaskFile) :
    Follows codec file (processes codec programs file) (.start programs file) where
  sound := sound_start programs file
  file := rfl
  dead i hdead := by cases hdead
  tracks i program' hprogram := by
    cases hprogram
    exact ⟨_, rfl, .resting _⟩
  calls _ := rfl

section Step

variable {codec : Codec TaskRecord} {start : TaskFile} {crowd : Processes ι α}
variable {clients : Clients ι α} {i : ι} {c : FileCall} {answer : FileReply c}
variable {disk' : StoreDisk ι} {rest : FileReply c → Prog FileCall FileReply α}

/-- Who has not moved is still followed. -/
theorem Follows.others (hfollows : Follows codec start crowd clients) {j : ι} (hne : j ≠ i)
    (e : Event FileCall FileReply) :
    ownCalls j clients.trace = (desk codec ((i, e) :: crowd.trace) j).pending ++
      returnedCalls (ownCalls j ((i, e) :: crowd.trace)) := by
  rw [desk_cons_of_ne hne, ownCalls, if_neg (Ne.symm hne)]
  exact hfollows.calls j

theorem Follows.call (hfollows : Follows codec start crowd clients)
    (hprogram : crowd.program i = some (.call c rest))
    (houtcome : Outcome false i crowd.state c answer disk') :
    ∃ turns, Follows codec start
      { program := Function.update crowd.program i (some (rest answer))
        trace := (i, ⟨c, answer⟩) :: crowd.trace
        state := disk' }
      (clients.run (AtomicStore.device codec) turns) := by
  have hsound := hfollows.sound.call hprogram houtcome
  have hagrees := hfollows.sound.agrees i (by rw [hprogram]; rfl)
  obtain ⟨program, hclient, htracks⟩ := hfollows.tracks i _ hprogram
  have hmatched := htracks.matched rfl hagrees houtcome (ownCalls i crowd.trace)
  cases hmatched with
  | nothing htracks' hfile hcalls =>
      refine ⟨[], hsound, hfollows.file.trans hfile.symm, ?_, ?_, ?_⟩
      · intro j hdead
        by_cases hsame : j = i
        · subst hsame
          dsimp only at hdead
          rw [Function.update_self] at hdead
          cases hdead
        · dsimp only at hdead
          rw [Function.update_of_ne hsame] at hdead
          exact hfollows.dead j hdead
      · intro j program' hj
        dsimp only at hj ⊢
        by_cases hsame : j = i
        · subst hsame
          rw [Function.update_self] at hj
          cases hj
          rw [desk_cons_self]
          exact ⟨program, hclient, htracks'⟩
        · rw [Function.update_of_ne hsame] at hj
          rw [desk_cons_of_ne hsame]
          exact hfollows.tracks j program' hj
      · intro j
        by_cases hsame : j = i
        · subst hsame
          dsimp only
          rw [desk_cons_self, ownCalls, if_pos rfl, hcalls]
          exact hfollows.calls j
        · exact hfollows.others hsame _
  | call hanswer htracks' hcalls =>
      rename_i call next reply
      rw [← hfollows.file] at hanswer
      obtain ⟨turn, hturn⟩ := exists_turn hclient hanswer
      refine ⟨[turn], ?_⟩
      change Follows codec start _ (clients.step (AtomicStore.device codec) turn)
      rw [hturn]
      refine ⟨hsound, rfl, ?_, ?_, ?_⟩
      · intro j hdead
        dsimp only at hdead ⊢
        by_cases hsame : j = i
        · subst hsame
          rw [Function.update_self] at hdead
          cases hdead
        · rw [Function.update_of_ne hsame] at hdead ⊢
          exact hfollows.dead j hdead
      · intro j program' hj
        dsimp only at hj ⊢
        by_cases hsame : j = i
        · subst hsame
          rw [Function.update_self] at hj ⊢
          cases hj
          rw [desk_cons_self]
          exact ⟨_, rfl, htracks'⟩
        · rw [Function.update_of_ne hsame] at hj ⊢
          rw [desk_cons_of_ne hsame]
          exact hfollows.tracks j program' hj
      · intro j
        dsimp only
        by_cases hsame : j = i
        · subst hsame
          rw [ownCalls, if_pos rfl, desk_cons_self, ownCalls, if_pos rfl, hcalls]
          exact congrArg _ (hfollows.calls j)
        · rw [ownCalls, if_neg (Ne.symm hsame)]
          exact hfollows.others hsame _

theorem Follows.death (hfollows : Follows codec start crowd clients)
    (halive : (crowd.program i).isSome) :
    Follows codec start
      { program := Function.update crowd.program i none
        trace := crowd.trace
        state := StoreDisk.bury i crowd.state }
      (clients.run (AtomicStore.device codec) [.die i]) := by
  obtain ⟨program', hprogram⟩ := Option.isSome_iff_exists.mp halive
  obtain ⟨program, hclient, -⟩ := hfollows.tracks i _ hprogram
  have hdies : clients.run (AtomicStore.device codec) [.die i] =
      { program := Function.update clients.program i none
        trace := clients.trace
        state := clients.state } := by
    change clients.step (AtomicStore.device codec) (.die i) = _
    simp only [Crowd.step, hclient]
    rfl
  rw [hdies]
  refine ⟨hfollows.sound.death i, hfollows.file, ?_, ?_, hfollows.calls⟩
  · intro j hdead
    dsimp only at hdead ⊢
    by_cases hsame : j = i
    · subst hsame
      exact Function.update_self _ _ _
    · rw [Function.update_of_ne hsame] at hdead ⊢
      exact hfollows.dead j hdead
  · intro j program' hj
    dsimp only at hj ⊢
    by_cases hsame : j = i
    · subst hsame
      rw [Function.update_self] at hj
      cases hj
    · rw [Function.update_of_ne hsame] at hj ⊢
      exact hfollows.tracks j program' hj

theorem Follows.step (hfollows : Follows codec start crowd clients)
    (turn : Crowd.Turn ι DiskFault) :
    ∃ turns, Follows codec start (crowd.step (StoreDisk.device false) turn)
      (clients.run (AtomicStore.device codec) turns) := by
  have hchange := step_change (StoreDisk.device false) crowd turn
  generalize crowd.step (StoreDisk.device false) turn = crowd' at hchange ⊢
  cases hchange with
  | nothing => exact ⟨[], hfollows⟩
  | call hprogram hanswer => exact hfollows.call hprogram (outcome_of_mayAnswer hanswer)
  | death halive => exact ⟨_, hfollows.death halive⟩

end Step

/-- Where the program has ended on the file, it has ended on the store. -/
theorem Tracks.done {codec : Codec TaskRecord} {d : Desk} {value : α}
    {program : Prog StoreCall StoreReply α} (htracks : Tracks codec d (.done value) program) :
    program = .done value := by
  generalize hdone : (.done value : Prog FileCall FileReply α) = program' at htracks
  cases htracks with
  | resting =>
      cases program with
      | done other =>
          cases hdone
          rfl
      | outOfFuel => cases hdone
      | call call next => cases hdone
  | working hcalling heffect hquiet hbody =>
      rename_i call next body
      cases body <;> cases hdone
  | worked hcalling heffect hquiet hbody =>
      rename_i call next body response
      cases body <;> cases hdone

/-- The processes on the file and the clients of the store cannot be told apart:
the same file, the same ones dead, the same values where they have ended, and the
same calls returned, but for one that has had its effect already. -/
structure LooksLike (crowd : Processes ι α) (clients : Clients ι α) : Prop where
  file : crowd.state.file = clients.state
  dead : ∀ i, crowd.program i = none ↔ clients.program i = none
  values : ∀ i value, crowd.program i = some (.done value) → clients.program i = some (.done value)
  calls : ∀ i, ownCalls i clients.trace = returnedCalls (ownCalls i crowd.trace) ∨
    ∃ call response, underway (ownCalls i crowd.trace) = some call ∧
      ownCalls i clients.trace = ⟨call, .ok response⟩ :: returnedCalls (ownCalls i crowd.trace)

theorem Follows.looksLike {codec : Codec TaskRecord} {start : TaskFile} {crowd : Processes ι α}
    {clients : Clients ι α} (hfollows : Follows codec start crowd clients) :
    LooksLike crowd clients := by
  refine ⟨hfollows.file.symm, ?_, ?_, ?_⟩
  · intro i
    refine ⟨hfollows.dead i, fun hdead => ?_⟩
    cases hprogram : crowd.program i with
    | none => rfl
    | some program' =>
        obtain ⟨program, hclient, -⟩ := hfollows.tracks i _ hprogram
        rw [hdead] at hclient
        cases hclient
  · intro i value hdone
    obtain ⟨program, hclient, htracks⟩ := hfollows.tracks i _ hdone
    rw [hclient, htracks.done]
  · intro i
    have hcalls := hfollows.calls i
    cases heffect : (desk codec crowd.trace i).effect with
    | none =>
        rw [Desk.pending, heffect] at hcalls
        exact .inl hcalls
    | some entry =>
        rw [Desk.pending, heffect] at hcalls
        exact .inr ⟨entry.1, entry.2, current_view codec _ entry heffect, hcalls⟩

/-- Each run on the file looks like one of the store whose calls are made at once,
whatever else fails, as long as no stat does. -/
theorem store_refines_atomic (codec : Codec TaskRecord)
    (programs : ι → Prog StoreCall StoreReply α) (file : TaskFile)
    (schedule : List (Crowd.Turn ι DiskFault)) :
    ∃ schedule' : List (Crowd.Turn ι PyExc),
      LooksLike ((processes codec programs file).run (StoreDisk.device false) schedule)
        ((Crowd.start programs file).run (AtomicStore.device codec) schedule') := by
  obtain ⟨schedule', hfollows⟩ := run_simulates (R := Follows codec file)
    (fun _ _ turn hfollows => hfollows.step turn) schedule (follows_start codec programs file)
  exact ⟨schedule', hfollows.looksLike⟩

end Conductor.LocalTaskStore.Steps
