/-
What clients of one Redis see of each other.  A call of the store is no snapshot,
but each record in its reply was the one held under its id at a moment in the course
of the call, and none is missing whose save has returned before.
-/
import Conductor.Runtime.Interchange
import Conductor.Runtime.PlainMap
import Conductor.Runtime.RedisSteps

namespace Conductor.RedisTaskStore.Steps

open Effects Crowd RedisServer

variable {ι α : Type} {codec : Codec TaskRecord} {keyspace : String}

/-- Nothing is taken away. -/
structure Grown (data data' : RedisData) : Prop where
  texts : ∀ key, (data.get key).isSome → (data'.get key).isSome
  members : ∀ key member, member ∈ data.smembers key → member ∈ data'.smembers key

theorem Grown.refl (data : RedisData) : Grown data data := ⟨fun _ h => h, fun _ _ h => h⟩

theorem Grown.trans {data data' data'' : RedisData} (hfirst : Grown data data')
    (hsecond : Grown data' data'') : Grown data data'' where
  texts key hthere := hsecond.texts key (hfirst.texts key hthere)
  members key member hmem := hsecond.members key member (hfirst.members key member hmem)

theorem get_set (data : RedisData) (key value key' : String) :
    (data.set key value).get key' = if key' = key then some value else data.get key' :=
  Assoc.lookup_insert _ _ _ _

theorem get_sadd (data : RedisData) (key member key' : String) :
    (data.sadd key member).get key' = data.get key' := by
  rw [RedisData.sadd]
  split <;> rfl

theorem smembers_sadd (data : RedisData) (key member key' : String) :
    (data.sadd key member).smembers key' =
      if key' = key ∧ member ∉ data.smembers key then data.smembers key ++ [member]
      else data.smembers key' := by
  rw [RedisData.sadd]
  by_cases hmem : member ∈ data.smembers key
  · rw [if_pos hmem, if_neg fun h => h.2 hmem]
  · rw [if_neg hmem, RedisData.smembers, Assoc.lookup_insert]
    by_cases hkey : key' = key
    · rw [if_pos hkey, if_pos ⟨hkey, hmem⟩]
      rfl
    · rw [if_neg hkey, if_neg fun h => hkey h.1]
      rfl

theorem grown_after (data : RedisData) (c : RedisCommand) : Grown data (after data c) := by
  cases c with
  | set key value =>
      refine ⟨fun key' hthere => ?_, fun _ _ hmem => hmem⟩
      rw [after, get_set]
      split
      · rfl
      · exact hthere
  | sadd key member =>
      constructor
      · intro key' hthere
        rwa [after, get_sadd]
      · intro key' member' hmem
        rw [after, smembers_sadd]
        split
        · rename_i hkey
          rw [hkey.1] at hmem
          exact List.mem_append_left _ hmem
        · exact hmem
  | _ => exact .refl data

/-- Each text under the key of a task was made of a task with this id, and the index
has only ids of tasks that are there. -/
structure Stocked (codec : Codec TaskRecord) (keyspace : String) (sent : TaskRecord → Prop)
    (data : RedisData) : Prop where
  texts : ∀ taskId text, data.get (recordKey keyspace taskId) = some text →
    ∃ task, sent task ∧ task.taskId = taskId ∧ codec.serializeTask task = .ok text
  there : ∀ taskId ∈ data.smembers (indexKey keyspace),
    (data.get (recordKey keyspace taskId)).isSome
  nodup : (data.smembers (indexKey keyspace)).Nodup

variable {sent : TaskRecord → Prop} {data : RedisData}

theorem Stocked.mono {sent' : TaskRecord → Prop} (hstocked : Stocked codec keyspace sent data)
    (hsent : ∀ task, sent task → sent' task) : Stocked codec keyspace sent' data where
  texts taskId text htext := by
    obtain ⟨task, htask, hrest⟩ := hstocked.texts taskId text htext
    exact ⟨task, hsent task htask, hrest⟩
  there := hstocked.there
  nodup := hstocked.nodup

theorem Stocked.set (hstocked : Stocked codec keyspace sent data) {task : TaskRecord}
    {text : String} (hsent : sent task) (htext : codec.serializeTask task = .ok text) :
    Stocked codec keyspace sent (data.set (recordKey keyspace task.taskId) text) where
  texts taskId text' htext' := by
    rw [get_set] at htext'
    split at htext'
    · rename_i hkey
      cases htext'
      exact ⟨task, hsent, (recordKey_inj.mp hkey).symm, htext⟩
    · exact hstocked.texts taskId text' htext'
  there taskId hmem :=
    (grown_after data (.set _ _)).texts _ (hstocked.there taskId hmem)
  nodup := hstocked.nodup

theorem Stocked.sadd (hstocked : Stocked codec keyspace sent data) {taskId : TaskId}
    (hthere : (data.get (recordKey keyspace taskId)).isSome) :
    Stocked codec keyspace sent (data.sadd (indexKey keyspace) taskId) where
  texts taskId' text htext := by
    rw [get_sadd] at htext
    exact hstocked.texts taskId' text htext
  there taskId' hmem := by
    rw [get_sadd]
    rw [smembers_sadd] at hmem
    split at hmem
    · rcases List.mem_append.mp hmem with hmem | hmem
      · exact hstocked.there taskId' hmem
      · rwa [List.mem_singleton.mp hmem]
    · exact hstocked.there taskId' hmem
  nodup := by
    rw [smembers_sadd]
    split
    · rename_i hnew
      exact hstocked.nodup.append (List.nodup_singleton taskId)
        (List.disjoint_singleton.mpr hnew.2)
    · exact hstocked.nodup

/-! ### All the clients -/

variable [DecidableEq ι]

/-- Clients of one server. -/
abbrev Clients (ι α : Type) := Crowd ι RedisData RedisCommand RedisReply α

abbrev RedisLog (ι : Type) := CallLog ι RedisCommand RedisReply

/-- Clients that are about to run their programs. -/
def clients (codec : Codec TaskRecord) (keyspace : String)
    (programs : ι → Prog StoreCall StoreReply α) (data : RedisData) : Clients ι α :=
  .start (fun i => client codec keyspace (programs i)) data

/-- What a client knows. -/
abbrev desk (codec : Codec TaskRecord) (keyspace : String) (log : RedisLog ι) (i : ι) : Desk :=
  known (contract codec keyspace) log i

/-- A client has begun to save the task. -/
def Begun (log : RedisLog ι) (task : TaskRecord) : Prop :=
  ∃ i answer, (i, ⟨.began (.save task), answer⟩) ∈ log

omit [DecidableEq ι] in
theorem Begun.cons {log : RedisLog ι} {task : TaskRecord} (hbegun : Begun log task)
    (entry : ι × Event RedisCommand RedisReply) : Begun (entry :: log) task := by
  obtain ⟨i, answer, hmem⟩ := hbegun
  exact ⟨i, answer, List.mem_cons_of_mem _ hmem⟩

/-- The call that a client is in it has begun. -/
theorem began_of_calling {h : History RedisCommand RedisReply} {call : StoreCall}
    (hcalling : ((contract codec keyspace).view h).calling = some call) :
    ∃ answer, ⟨.began call, answer⟩ ∈ h := by
  induction h with
  | nil => cases hcalling
  | cons e h ih =>
      obtain ⟨c, answer⟩ := e
      have hrest (hsame : ((contract codec keyspace).view (⟨c, answer⟩ :: h)).calling =
          ((contract codec keyspace).view h).calling) :
          ∃ began, ⟨.began call, began⟩ ∈ (⟨c, answer⟩ :: h : History _ RedisReply) := by
        rw [hsame] at hcalling
        obtain ⟨began, hmem⟩ := ih hcalling
        exact ⟨began, List.mem_cons_of_mem _ hmem⟩
      cases c with
      | began begun =>
          cases hcalling
          exact ⟨answer, List.mem_cons_self⟩
      | returned ended reply => cases hcalling
      | _ => cases answer <;> exact hrest rfl

theorem begun_of_calling {log : RedisLog ι} {i : ι} {task : TaskRecord}
    (hcalling : (desk codec keyspace log i).calling = some (.save task)) : Begun log task := by
  obtain ⟨answer, hmem⟩ := began_of_calling hcalling
  exact ⟨i, answer, mem_ownCalls.mp hmem⟩

/-- What the clients have been told is so on the server. -/
structure Sound (codec : Codec TaskRecord) (keyspace : String) (initial : TaskRecord → Prop)
    (crowd : Clients ι α) : Prop where
  keeps : Keeps (contract codec keyspace) crowd
  stocked : Stocked codec keyspace (fun task => initial task ∨ Begun crowd.trace task) crowd.state
  written : ∀ i task, (desk codec keyspace crowd.trace i).calling = some (.save task) →
    (desk codec keyspace crowd.trace i).written = true →
      (crowd.state.get (recordKey keyspace task.taskId)).isSome
  indexed : ∀ i task, (desk codec keyspace crowd.trace i).calling = some (.save task) →
    (desk codec keyspace crowd.trace i).indexed = true →
      task.taskId ∈ crowd.state.smembers (indexKey keyspace)
  completed : ∀ i task saved ended,
    (i, ⟨.returned (.save task) (.ok saved), ended⟩) ∈ crowd.trace →
      task.taskId ∈ crowd.state.smembers (indexKey keyspace)

variable {initial : TaskRecord → Prop} {crowd : Clients ι α}

theorem sound_start (programs : ι → Prog StoreCall StoreReply α) {data : RedisData}
    (hstart : Stocked codec keyspace initial data) :
    Sound codec keyspace initial (clients codec keyspace programs data) where
  keeps := keeps_start _ fun i => wp_client (programs i)
  stocked := hstart.mono fun _ => .inl
  written _ _ hcalling := by cases hcalling
  indexed _ _ hcalling := by cases hcalling
  completed _ _ _ _ hmem := by cases hmem

/-- The data after a command that a client may send. -/
theorem Sound.stocked_after (hsound : Sound codec keyspace initial crowd) {i : ι}
    {c : RedisCommand}
    (hguarantees : Guarantees codec keyspace (desk codec keyspace crowd.trace i) c) :
    Stocked codec keyspace (fun task => initial task ∨ Begun crowd.trace task)
      (after crowd.state c) := by
  cases c with
  | set key value =>
      obtain ⟨task, hcalling, rfl, htext⟩ := hguarantees
      exact hsound.stocked.set (.inr (begun_of_calling hcalling)) htext
  | sadd key member =>
      obtain ⟨hwritten, task, hcalling, rfl, rfl⟩ := hguarantees
      exact hsound.stocked.sadd (hsound.written i task hcalling hwritten)
  | _ => exact hsound.stocked

/-- What a client knows of its own save stays true, and becomes true. -/
theorem written_next {d : Desk} {data data' : RedisData} {c : RedisCommand} {reply : RedisReply c}
    (hguarantees : Guarantees codec keyspace d c) (hgrown : Grown data data')
    (hdone : ∀ response, reply = .ok response → data' = after data c)
    (hbefore : ∀ task, d.calling = some (.save task) → d.written = true →
      (data.get (recordKey keyspace task.taskId)).isSome) :
    ∀ task, (next d c reply).calling = some (.save task) → (next d c reply).written = true →
      (data'.get (recordKey keyspace task.taskId)).isSome := by
  intro task hcalling hwritten
  cases c with
  | began call => cases hwritten
  | returned call reply => cases hcalling
  | set key value =>
      obtain ⟨other, hother, rfl, -⟩ := hguarantees
      cases reply with
      | error e => exact hgrown.texts _ (hbefore task hcalling hwritten)
      | ok response =>
          cases hother.symm.trans hcalling
          rw [hdone response rfl, after, get_set, if_pos rfl]
          rfl
  | _ => cases reply <;> exact hgrown.texts _ (hbefore task hcalling hwritten)

theorem indexed_next {d : Desk} {data data' : RedisData} {c : RedisCommand} {reply : RedisReply c}
    (hguarantees : Guarantees codec keyspace d c) (hgrown : Grown data data')
    (hdone : ∀ response, reply = .ok response → data' = after data c)
    (hbefore : ∀ task, d.calling = some (.save task) → d.indexed = true →
      task.taskId ∈ data.smembers (indexKey keyspace)) :
    ∀ task, (next d c reply).calling = some (.save task) → (next d c reply).indexed = true →
      task.taskId ∈ data'.smembers (indexKey keyspace) := by
  intro task hcalling hindexed
  cases c with
  | began call => cases hindexed
  | returned call reply => cases hcalling
  | sadd key member =>
      obtain ⟨-, other, hother, rfl, rfl⟩ := hguarantees
      cases reply with
      | error e => exact hgrown.members _ _ (hbefore task hcalling hindexed)
      | ok response =>
          cases hother.symm.trans hcalling
          rw [hdone response rfl, after, smembers_sadd]
          split
          · exact List.mem_append_right _ (List.mem_singleton_self _)
          · rename_i hthere
            by_contra hnot
            exact hthere ⟨rfl, hnot⟩
  | _ => cases reply <;> exact hgrown.members _ _ (hbefore task hcalling hindexed)

theorem Sound.step (hsound : Sound codec keyspace initial crowd)
    (turn : Crowd.Turn ι RedisFault) : Sound codec keyspace initial (crowd.step device turn) := by
  have hchange := step_change device crowd turn
  generalize crowd.step device turn = crowd' at hchange ⊢
  cases hchange with
  | nothing => exact hsound
  | death halive =>
      exact ⟨hsound.keeps.death _ _, hsound.stocked, hsound.written, hsound.indexed,
        hsound.completed⟩
  | @call i c _ reply data' hprogram hanswer =>
      have hguarantees := hsound.keeps.guarantees hprogram
      have hdata := of_mayAnswer hanswer
      have hcases : data' = crowd.state ∨ data' = after crowd.state c := by
        rcases hdata with ⟨-, hdata⟩ | ⟨-, hdata⟩
        · exact .inr hdata
        · exact hdata
      have hgrown : Grown crowd.state data' := by
        rcases hcases with rfl | rfl
        · exact .refl _
        · exact grown_after _ c
      have hdone : ∀ response, reply = .ok response → data' = after crowd.state c := by
        rintro response rfl
        rcases hdata with ⟨-, hdata⟩ | ⟨⟨e, herror⟩, -⟩
        · exact hdata
        · cases herror
      constructor
      · exact hsound.keeps.call hprogram trivial _
      · have hstocked : Stocked codec keyspace
            (fun task => initial task ∨ Begun crowd.trace task) data' := by
          rcases hcases with rfl | rfl
          · exact hsound.stocked
          · exact hsound.stocked_after hguarantees
        exact hstocked.mono fun task => Or.imp_right fun hbegun => hbegun.cons _
      · intro j
        by_cases hsame : j = i
        · subst hsame
          rw [desk, known_cons_self]
          exact written_next hguarantees hgrown hdone (hsound.written j)
        · rw [desk, known_cons_of_ne _ hsame]
          exact fun task hcalling hwritten =>
            hgrown.texts _ (hsound.written j task hcalling hwritten)
      · intro j
        by_cases hsame : j = i
        · subst hsame
          rw [desk, known_cons_self]
          exact indexed_next hguarantees hgrown hdone (hsound.indexed j)
        · rw [desk, known_cons_of_ne _ hsame]
          exact fun task hcalling hindexed =>
            hgrown.members _ _ (hsound.indexed j task hcalling hindexed)
      · intro j task saved ended hmem
        rcases List.mem_cons.mp hmem with hnew | hold
        · cases hnew
          obtain ⟨hcalling, -, -, hindexed⟩ := hguarantees
          exact hgrown.members _ _ (hsound.indexed _ task hcalling hindexed)
        · exact hgrown.members _ _ (hsound.completed j task saved ended hold)

/-- Whatever fails and whoever dies, in every order of the commands. -/
theorem Sound.run (hsound : Sound codec keyspace initial crowd)
    (schedule : List (Crowd.Turn ι RedisFault)) :
    Sound codec keyspace initial (crowd.run device schedule) :=
  run_invariant (fun _ turn hcrowd => hcrowd.step turn) hsound

theorem step_grown (crowd : Clients ι α) (turn : Crowd.Turn ι RedisFault) :
    Grown crowd.state (crowd.step device turn).state := by
  have hchange := step_change device crowd turn
  generalize crowd.step device turn = crowd' at hchange ⊢
  cases hchange with
  | nothing | death halive => exact .refl _
  | call hprogram hanswer =>
      rcases of_mayAnswer hanswer with ⟨-, rfl⟩ | ⟨-, rfl | rfl⟩
      · exact grown_after _ _
      · exact .refl _
      · exact grown_after _ _

theorem run_grown (crowd : Clients ι α) (schedule : List (Crowd.Turn ι RedisFault)) :
    Grown crowd.state (crowd.run device schedule).state := by
  induction schedule generalizing crowd with
  | nil => exact .refl _
  | cons turn schedule ih => exact (step_grown crowd turn).trans (ih _)

/-! ### Moments -/

/-- At a moment while these turns are taken. -/
def Sometime (crowd : Clients ι α) (turns : List (Crowd.Turn ι RedisFault))
    (P : RedisData → Prop) : Prop :=
  ∃ moment, moment <+: turns ∧ P (crowd.run device moment).state

theorem Sometime.later {turns : List (Crowd.Turn ι RedisFault)} {P : RedisData → Prop}
    (hsometime : Sometime crowd turns P) (turn : Crowd.Turn ι RedisFault) :
    Sometime crowd (turns ++ [turn]) P := by
  obtain ⟨moment, hinitial, hmoment⟩ := hsometime
  exact ⟨moment, hinitial.trans (List.prefix_append _ _), hmoment⟩

theorem Sometime.now {turns : List (Crowd.Turn ι RedisFault)} {P : RedisData → Prop}
    (hnow : P (crowd.run device turns).state) : Sometime crowd turns P :=
  ⟨turns, List.prefix_rfl, hnow⟩

/-- What a client has come to know in a call was so at a moment of the call. -/
structure Within (codec : Codec TaskRecord) (keyspace : String)
    (sometime : (RedisData → Prop) → Prop) (d : Desk) : Prop where
  written : ∀ task, d.calling = some (.save task) → d.written = true → sometime fun data =>
    ∃ text, codec.serializeTask task = .ok text ∧
      data.get (recordKey keyspace task.taskId) = some text
  members : ∀ members, d.members = some members → sometime fun data =>
    data.smembers (indexKey keyspace) = members
  texts : ∀ (k : Nat) (key : String) (text : Option String),
    (keysToRead keyspace d)[k]? = some key → d.texts[k]? = some text →
      sometime fun data => data.get key = text

theorem within_begun (sometime : (RedisData → Prop) → Prop) (call : StoreCall) :
    Within codec keyspace sometime (.begun call) where
  written _ _ hwritten := by cases hwritten
  members _ hmembers := by cases hmembers
  texts _ _ _ _ htext := by cases htext

theorem Within.mono {sometime sometime' : (RedisData → Prop) → Prop} {d : Desk}
    (hwithin : Within codec keyspace sometime d) (hmono : ∀ P, sometime P → sometime' P) :
    Within codec keyspace sometime' d where
  written task hcalling hwritten := hmono _ (hwithin.written task hcalling hwritten)
  members members hmembers := hmono _ (hwithin.members members hmembers)
  texts k key text hkey htext := hmono _ (hwithin.texts k key text hkey htext)

/-- A command of the call adds what was so when it was executed. -/
theorem Within.next {sometime : (RedisData → Prop) → Prop} {d : Desk}
    (hwithin : Within codec keyspace sometime d) {c : RedisCommand} {reply : RedisReply c}
    {data : RedisData} (hguarantees : Guarantees codec keyspace d c) (hmark : c.isMark = false)
    (hbefore : ∀ P : RedisData → Prop, P data → sometime P)
    (hafter : ∀ P : RedisData → Prop, P (after data c) → ∀ response, reply = .ok response →
      sometime P)
    (hreply : ∀ response, reply = .ok response → reply = answer data c) :
    Within codec keyspace sometime (Steps.next d c reply) := by
  cases c with
  | began call | returned call reply => cases hmark
  | set key value =>
      cases reply with
      | error e => exact hwithin
      | ok response =>
          refine ⟨?_, hwithin.members, hwithin.texts⟩
          intro task hcalling _
          obtain ⟨other, hother, rfl, htext⟩ := hguarantees
          cases hother.symm.trans hcalling
          apply hafter _ _ response rfl
          refine ⟨value, htext, ?_⟩
          rw [after, get_set, if_pos rfl]
  | sadd key member =>
      cases reply with
      | error e => exact hwithin
      | ok response => exact ⟨hwithin.written, hwithin.members, hwithin.texts⟩
  | smembers key =>
      cases reply with
      | error e => exact hwithin
      | ok members =>
          obtain ⟨rfl, -, hnone, -⟩ := hguarantees
          refine ⟨hwithin.written, ?_, ?_⟩
          · intro members' hmembers
            cases hmembers
            apply hbefore
            exact (Except.ok.inj (hreply members rfl)).symm
          · intro k key text _ htext
            rw [Steps.next, hnone] at htext
            cases htext
  | get key =>
      cases reply with
      | error e => exact hwithin
      | ok text =>
          refine ⟨hwithin.written, hwithin.members, ?_⟩
          intro k key' text' hkey htext
          rw [Steps.next, List.getElem?_append] at htext
          split at htext
          · exact hwithin.texts k key' text' hkey htext
          · rename_i hlast
            have hk : k = d.texts.length := by
              rw [List.getElem?_singleton] at htext
              split at htext
              · omega
              · cases htext
            subst hk
            rw [Nat.sub_self] at htext
            cases htext
            have hsame : some key = some key' := hguarantees.symm.trans hkey
            cases hsame
            apply hbefore
            exact (Except.ok.inj (hreply text rfl)).symm

theorem Sound.within (hsound : Sound codec keyspace initial crowd) {i : ι} {c : RedisCommand}
    {program : RedisReply c → Prog RedisCommand RedisReply α} {reply : RedisReply c}
    {data : RedisData} (hprogram : crowd.program i = some (.call c program))
    (hanswer : MayAnswer device i crowd.state c reply data) (hmark : c.isMark = false)
    {sometime : (RedisData → Prop) → Prop}
    (hwithin : Within codec keyspace sometime (desk codec keyspace crowd.trace i))
    (hbefore : ∀ P : RedisData → Prop, P crowd.state → sometime P)
    (hafter : ∀ P : RedisData → Prop, P data → sometime P) :
    Within codec keyspace sometime (Steps.next (desk codec keyspace crowd.trace i) c reply) := by
  apply hwithin.next (hsound.keeps.guarantees hprogram) hmark hbefore
  · rintro P hP response rfl
    rcases of_mayAnswer hanswer with ⟨-, rfl⟩ | ⟨⟨e, herror⟩, -⟩
    · exact hafter P hP
    · cases herror
  · rintro response rfl
    rcases of_mayAnswer hanswer with ⟨hreply, -⟩ | ⟨⟨e, herror⟩, -⟩
    · exact hreply
    · cases herror

/-- None of these commands is a mark. -/
def Unmarked (h : History RedisCommand RedisReply) : Prop := ∀ e ∈ h, e.call.isMark = false

/-- What a client comes to know in the course of a call was so at a moment since it has
begun. -/
theorem within_run (hsound : Sound codec keyspace initial crowd) {i : ι} {call : StoreCall}
    {began : RedisReply (.began call)} {rest : History RedisCommand RedisReply}
    (hbegan : ownCalls i crowd.trace = ⟨.began call, began⟩ :: rest)
    (turns : List (Crowd.Turn ι RedisFault)) {later mid : History RedisCommand RedisReply}
    (hown : ownCalls i (crowd.run device turns).trace =
      later ++ (mid ++ ownCalls i crowd.trace)) (hmid : Unmarked mid) :
    Within codec keyspace (Sometime crowd turns)
      ((contract codec keyspace).view (mid ++ ownCalls i crowd.trace)) := by
  have hnothing (sometime : (RedisData → Prop) → Prop) : Within codec keyspace sometime
      ((contract codec keyspace).view ([] ++ ownCalls i crowd.trace)) := by
    rw [List.nil_append, hbegan]
    exact within_begun sometime call
  induction turns using List.reverseRecOn generalizing later mid with
  | nil =>
      have hlength := congrArg List.length hown
      simp only [run, List.foldl_nil, List.length_append] at hlength
      obtain rfl : mid = [] := List.eq_nil_of_length_eq_zero (by omega)
      exact hnothing _
  | append_singleton turns turn ih =>
      have hkept {later : History RedisCommand RedisReply}
          (hown : ownCalls i (crowd.run device turns).trace =
            later ++ (mid ++ ownCalls i crowd.trace)) :
          Within codec keyspace (Sometime crowd (turns ++ [turn]))
            ((contract codec keyspace).view (mid ++ ownCalls i crowd.trace)) :=
        (ih hown hmid).mono fun P hP => hP.later turn
      have hstep : crowd.run device (turns ++ [turn]) = (crowd.run device turns).step device turn :=
        run_append device crowd turns [turn]
      have hchange := step_change device (crowd.run device turns) turn
      rw [← hstep] at hchange
      generalize hlast : crowd.run device (turns ++ [turn]) = last at hown hchange
      cases hchange with
      | nothing | death halive => exact hkept hown
      | @call j c _ reply data hprogram hanswer =>
          dsimp only at hown
          rw [ownCalls] at hown
          by_cases hsame : j = i
          · subst hsame
            rw [if_pos rfl] at hown
            cases later with
            | cons e later => exact hkept (List.cons.inj hown).2
            | nil =>
                cases mid with
                | nil => exact hnothing _
                | cons e mid =>
                    obtain ⟨rfl, hmore⟩ := List.cons.inj hown
                    have hmore : ownCalls j (crowd.run device turns).trace =
                      [] ++ (mid ++ ownCalls j crowd.trace) := hmore
                    obtain ⟨hmark, hrest⟩ := List.forall_mem_cons.mp hmid
                    have hwithin := (ih hmore hrest).mono fun P hP => hP.later turn
                    rw [List.nil_append] at hmore
                    rw [← hmore] at hwithin
                    rw [List.cons_append, ← hmore]
                    apply (hsound.run turns).within hprogram hanswer hmark hwithin
                    · exact fun P hP => (Sometime.now hP).later turn
                    · intro P hP
                      apply Sometime.now
                      rw [hlast]
                      exact hP
          · rw [if_neg hsame] at hown
            exact hkept hown

/-- What is written for a task is read as its form in JSON. -/
theorem parseTask_of_serializeTask {p : Pydantic} {uuid4 : Value → TaskId} (hp : p.Lawful)
    {task : TaskRecord} (htask : task.Ordinary p) {text : String}
    (htext : (TaskRecord.codec p uuid4).serializeTask task = .ok text) :
    ∃ form, task.jsonForm p = .ok form ∧
      (TaskRecord.codec p uuid4).parseTask text = .ok form.sortedKeys := by
  obtain ⟨items, hdump, hwrite⟩ := Except.ok_of_bind htext
  have hitems : task.modelDump p = .ok items := hdump
  rw [TaskRecord.modelDump_jsonForm] at hitems
  obtain ⟨form, hform, hdumped⟩ := Except.ok_of_map hitems
  have hwritten := Json.refusal_of_dumps hwrite
  rw [← hdumped] at hwritten
  have hserialisable := TaskRecord.serialisable_of_jsonForm htask hform hwritten
  obtain ⟨text', htext', hparse⟩ := (TaskRecord.roundTrips hp uuid4 hserialisable).serialized
  have hsame : (TaskRecord.codec p uuid4).serializeTask task =
      (TaskRecord.codec p uuid4).serializeTask form := by
    change (task.modelDump p >>= _) = (form.modelDump p >>= _)
    rw [TaskRecord.modelDump_form hform hserialisable]
  rw [hsame, htext'] at htext
  cases htext
  exact ⟨form, hform, hparse⟩

/-- What was sent can be read again, and has its id. -/
def Readable (codec : Codec TaskRecord) (sent : TaskRecord → Prop) : Prop :=
  ∀ task text, sent task → codec.serializeTask task = .ok text →
    ∃ form, codec.parseTask text = .ok form ∧ form.taskId = task.taskId

/-- The record is what is read of a task that was sent. -/
def Genuine (codec : Codec TaskRecord) (sent : TaskRecord → Prop) (record : TaskRecord) : Prop :=
  ∃ task text, sent task ∧ task.taskId = record.taskId ∧ codec.serializeTask task = .ok text ∧
    codec.parseTask text = .ok record

/-- A text that is held at a moment is that of a record which `get` returns. -/
theorem Stocked.held {sent : TaskRecord → Prop} (hstocked : Stocked codec keyspace sent data)
    (hreadable : Readable codec sent) {taskId : TaskId} {text : String}
    (htext : data.get (recordKey keyspace taskId) = some text) :
    ∃ record, codec.parseTask text = .ok record ∧ record.taskId = taskId ∧
      Genuine codec sent record ∧
      RedisTaskStore.get codec keyspace taskId data = .ok (some record) := by
  obtain ⟨task, hsent, rfl, hserialized⟩ := hstocked.texts taskId text htext
  obtain ⟨record, hparse, hid⟩ := hreadable task text hsent hserialized
  refine ⟨record, hparse, hid, ⟨task, text, hsent, hid.symm, hserialized, hparse⟩, ?_⟩
  rw [RedisTaskStore.get, htext, Codec.deserializeTask, hparse]
  rfl

/-- The ids of a list in order, each of them once. -/
theorem pairwise_lt_sorted {members : List String} (hnodup : members.Nodup) :
    (members.insertionSort (· ≤ ·)).Pairwise (· < ·) := by
  have hsorted := List.pairwise_insertionSort (· ≤ ·) members
  have hdistinct : (members.insertionSort (· ≤ ·)).Pairwise (· ≠ ·) :=
    (List.perm_insertionSort _ members).nodup_iff.mpr hnodup
  exact (hsorted.and hdistinct).imp fun h => lt_of_le_of_ne h.1 h.2

/-- The records of a list, from what was held under each of the ids at some moment. -/
theorem records_explained {sometime : (RedisData → Prop) → Prop} {genuine : TaskRecord → Prop}
    {taskIds : List TaskId} {texts : List (Option String)} {records : List TaskRecord}
    (hreads : List.Forall₂ (fun taskId text => sometime fun data =>
      data.get (recordKey keyspace taskId) = text) taskIds texts)
    (hheld : ∀ taskId text, (sometime fun data =>
        data.get (recordKey keyspace taskId) = some text) →
      ∃ record, codec.parseTask text = .ok record ∧ record.taskId = taskId ∧ genuine record ∧
        sometime fun data => RedisTaskStore.get codec keyspace taskId data = .ok (some record))
    (hrecords : recordsOf codec texts = .ok records) :
    (records.map (·.taskId)).Sublist taskIds ∧
      (∀ record ∈ records, genuine record ∧ sometime fun data =>
        RedisTaskStore.get codec keyspace record.taskId data = .ok (some record)) ∧
      ∀ taskId ∈ taskIds, (¬ sometime fun data =>
        data.get (recordKey keyspace taskId) = none) →
          ∃ record ∈ records, record.taskId = taskId := by
  induction hreads generalizing records with
  | nil =>
      cases hrecords
      exact ⟨.slnil, List.forall_mem_nil _, List.forall_mem_nil _⟩
  | @cons taskId text taskIds texts hread _ ih =>
      obtain ⟨record, hrecord, hrest⟩ := Except.ok_of_bind hrecords
      obtain ⟨others, hothers, hdone⟩ := Except.ok_of_bind hrest
      cases hdone
      obtain ⟨hsublist, hall, hcomplete⟩ := ih hothers
      cases text with
      | none =>
          cases hrecord
          refine ⟨hsublist.cons _, hall, ?_⟩
          rw [List.forall_mem_cons]
          exact ⟨fun hnever => absurd hread hnever, hcomplete⟩
      | some text =>
          obtain ⟨held, hparse, rfl, hget⟩ := hheld taskId text hread
          rw [Codec.deserializeTask, hparse] at hrecord
          cases hrecord
          refine ⟨hsublist.cons_cons _, ?_, ?_⟩
          · exact List.forall_mem_cons.mpr ⟨hget, hall⟩
          · rw [List.forall_mem_cons]
            refine ⟨fun _ => ⟨held, List.mem_cons_self, rfl⟩, ?_⟩
            intro taskId hmem hthere
            obtain ⟨found, hfound, hid⟩ := hcomplete taskId hmem hthere
            exact ⟨found, List.mem_cons_of_mem _ hfound, hid⟩

/-! ### Calls -/

/-- How a reply comes about.  A task that was saved is what `get` returns at a moment;
`get` returns what it returns at a moment, and a list has such a record under each of
its ids, in their order and with none of the awaited ones missing.  No record is one
that was not sent. -/
def Explained (codec : Codec TaskRecord) (keyspace : String) (sent : TaskRecord → Prop)
    (sometime : (RedisData → Prop) → Prop) (awaited : TaskId → Prop) :
    (call : StoreCall) → StoreResponse call → Prop
  | .save task, saved => saved = task ∧ ∃ text record, codec.serializeTask task = .ok text ∧
      codec.parseTask text = .ok record ∧ sometime fun data =>
        RedisTaskStore.get codec keyspace task.taskId data = .ok (some record)
  | .get taskId, found =>
      (∀ record ∈ found, record.taskId = taskId ∧ Genuine codec sent record) ∧
        sometime fun data => RedisTaskStore.get codec keyspace taskId data = .ok found
  | .list q, found => ∃ records, found = q.filterRecords records ∧
      (records.map (·.taskId)).Pairwise (· < ·) ∧
      (∀ record ∈ records, Genuine codec sent record ∧ sometime fun data =>
        RedisTaskStore.get codec keyspace record.taskId data = .ok (some record)) ∧
      ∀ taskId, awaited taskId → ∃ record ∈ records, record.taskId = taskId

/-- A client has begun with a call, at the end of the earlier log, and has returned
from the same call at the end of the later one. -/
def Made (i : ι) (call : StoreCall) (response : StoreResponse call)
    (earlier later : RedisLog ι) : Prop :=
  ∃ began rest mid ended, ownCalls i earlier = ⟨.began call, began⟩ :: rest ∧
    ownCalls i later = ⟨.returned call (.ok response), ended⟩ :: (mid ++ ownCalls i earlier) ∧
      Unmarked mid

/-- A save of a task with this id has returned, and not raised. -/
def Completed (log : RedisLog ι) (taskId : TaskId) : Prop :=
  ∃ i task saved ended, (i, ⟨.returned (.save task) (.ok saved), ended⟩) ∈ log ∧
    task.taskId = taskId

omit [DecidableEq ι] in
theorem Begun.of_suffix {later earlier : RedisLog ι} {task : TaskRecord}
    (hbegun : Begun earlier task) : Begun (later ++ earlier) task := by
  obtain ⟨i, answer, hmem⟩ := hbegun
  exact ⟨i, answer, List.mem_append_right _ hmem⟩

section Explanations

variable {turns : List (Crowd.Turn ι RedisFault)}

/-- The tasks that were sent until the turns are taken. -/
def Sent (initial : TaskRecord → Prop) (crowd : Clients ι α)
    (turns : List (Crowd.Turn ι RedisFault)) (task : TaskRecord) : Prop :=
  initial task ∨ Begun (crowd.run device turns).trace task

/-- At each of the moments, whatever is held was sent. -/
theorem Sound.stocked_at (hsound : Sound codec keyspace initial crowd)
    {moment : List (Crowd.Turn ι RedisFault)} (hmoment : moment <+: turns) :
    Stocked codec keyspace (Sent initial crowd turns) (crowd.run device moment).state := by
  obtain ⟨rest, rfl⟩ := hmoment
  apply (hsound.run moment).stocked.mono
  intro task hsent
  refine hsent.imp_right fun hbegun => ?_
  obtain ⟨new, hnew⟩ := run_trace device (crowd.run device moment) rest
  rw [run_append, hnew]
  exact hbegun.of_suffix

theorem Sound.held (hsound : Sound codec keyspace initial crowd)
    (hreadable : Readable codec (Sent initial crowd turns)) {taskId : TaskId} {text : String}
    (htext : Sometime crowd turns fun data =>
      data.get (recordKey keyspace taskId) = some text) :
    ∃ record, codec.parseTask text = .ok record ∧ record.taskId = taskId ∧
      Genuine codec (Sent initial crowd turns) record ∧ Sometime crowd turns fun data =>
        RedisTaskStore.get codec keyspace taskId data = .ok (some record) := by
  obtain ⟨moment, hmoment, htext⟩ := htext
  obtain ⟨record, hparse, hid, hgenuine, hget⟩ :=
    (hsound.stocked_at hmoment).held hreadable htext
  exact ⟨record, hparse, hid, hgenuine, moment, hmoment, hget⟩

/-- What was saved before is there at every moment. -/
theorem Sound.there (hsound : Sound codec keyspace initial crowd) {taskId : TaskId}
    (hcompleted : Completed crowd.trace taskId) :
    taskId ∈ crowd.state.smembers (indexKey keyspace) ∧ ¬ Sometime crowd turns fun data =>
      data.get (recordKey keyspace taskId) = none := by
  obtain ⟨i, task, saved, ended, hmem, rfl⟩ := hcompleted
  have hindex := hsound.completed i task saved ended hmem
  refine ⟨hindex, ?_⟩
  rintro ⟨moment, -, hnone⟩
  have hthere := (run_grown crowd moment).texts _ (hsound.stocked.there _ hindex)
  rw [hnone] at hthere
  cases hthere

theorem Sound.explained_save (hsound : Sound codec keyspace initial crowd)
    (hreadable : Readable codec (Sent initial crowd turns)) {d : Desk} {task : TaskRecord}
    (hwithin : Within codec keyspace (Sometime crowd turns) d)
    (hcalling : d.calling = some (.save task)) (hwritten : d.written = true) :
    ∃ text record, codec.serializeTask task = .ok text ∧ codec.parseTask text = .ok record ∧
      Sometime crowd turns fun data =>
        RedisTaskStore.get codec keyspace task.taskId data = .ok (some record) := by
  obtain ⟨moment, hmoment, text, htext, hget⟩ := hwithin.written task hcalling hwritten
  obtain ⟨record, hparse, -, -, hheld⟩ := hsound.held hreadable ⟨moment, hmoment, hget⟩
  exact ⟨text, record, htext, hparse, hheld⟩

theorem Sound.explained_get (hsound : Sound codec keyspace initial crowd)
    (hreadable : Readable codec (Sent initial crowd turns)) {d : Desk} {taskId : TaskId}
    (hwithin : Within codec keyspace (Sometime crowd turns) d)
    (hcalling : d.calling = some (.get taskId)) {text : Option String} (htexts : d.texts = [text])
    {found : Option TaskRecord} (hfound : codec.deserializeTask text = .ok found) :
    (∀ record ∈ found, record.taskId = taskId ∧
        Genuine codec (Sent initial crowd turns) record) ∧
      Sometime crowd turns fun data =>
        RedisTaskStore.get codec keyspace taskId data = .ok found := by
  have hkeys : keysToRead keyspace d = [recordKey keyspace taskId] := by
    rw [keysToRead, hcalling]
  have hread := hwithin.texts 0 (recordKey keyspace taskId) text (by rw [hkeys]; rfl)
    (by rw [htexts]; rfl)
  constructor
  · cases text with
    | none =>
        cases hfound
        intro record hrecord
        cases hrecord
    | some text =>
        obtain ⟨record, hparse, hid, hgenuine, -⟩ := hsound.held hreadable hread
        rw [Codec.deserializeTask, hparse] at hfound
        cases hfound
        rintro _ ⟨⟩
        exact ⟨hid, hgenuine⟩
  · obtain ⟨moment, hmoment, hget⟩ := hread
    refine ⟨moment, hmoment, ?_⟩
    dsimp only
    rw [RedisTaskStore.get, hget, hfound]

theorem Sound.explained_list (hsound : Sound codec keyspace initial crowd)
    (hreadable : Readable codec (Sent initial crowd turns)) {d : Desk} {q : TaskQuery}
    (hwithin : Within codec keyspace (Sometime crowd turns) d)
    (hcalling : d.calling = some (.list q)) {members : List String}
    (hmembers : d.members = some members) (hcount : d.texts.length = members.length)
    {records : List TaskRecord} (hrecords : recordsOf codec d.texts = .ok records) :
    (records.map (·.taskId)).Pairwise (· < ·) ∧
      (∀ record ∈ records, Genuine codec (Sent initial crowd turns) record ∧
        Sometime crowd turns fun data =>
          RedisTaskStore.get codec keyspace record.taskId data = .ok (some record)) ∧
      ∀ taskId, Completed crowd.trace taskId → ∃ record ∈ records, record.taskId = taskId := by
  obtain ⟨moment, hmoment, hindex⟩ := hwithin.members members hmembers
  have hnodup := (hsound.stocked_at hmoment).nodup
  rw [hindex] at hnodup
  have hkeys : keysToRead keyspace d =
      (members.insertionSort (· ≤ ·)).map (recordKey keyspace) := by
    rw [keysToRead, hcalling, hmembers]
    rfl
  have hreads : List.Forall₂ (fun taskId text => Sometime crowd turns fun data =>
      data.get (recordKey keyspace taskId) = text) (members.insertionSort (· ≤ ·)) d.texts := by
    rw [List.forall₂_iff_get]
    refine ⟨by rw [List.length_insertionSort, hcount], fun k hid htext => ?_⟩
    apply hwithin.texts k
    · rw [hkeys, List.getElem?_map, List.getElem?_eq_getElem hid]
      rfl
    · exact List.getElem?_eq_getElem htext
  obtain ⟨hsublist, hall, hcomplete⟩ :=
    records_explained hreads (fun _ _ => hsound.held hreadable) hrecords
  refine ⟨(pairwise_lt_sorted hnodup).sublist hsublist, hall, ?_⟩
  intro taskId hcompleted
  obtain ⟨hbefore, hthere⟩ := hsound.there hcompleted
  apply hcomplete taskId _ hthere
  rw [(List.perm_insertionSort _ members).mem_iff, ← hindex]
  exact (run_grown crowd moment).members _ _ hbefore

/-- Every call that has returned is explained by moments of its own. -/
theorem Sound.explained (hsound : Sound codec keyspace initial crowd)
    (hreadable : Readable codec (Sent initial crowd turns)) {i : ι} {call : StoreCall}
    {response : StoreResponse call}
    (hmade : Made i call response crowd.trace (crowd.run device turns).trace) :
    Explained codec keyspace (Sent initial crowd turns) (Sometime crowd turns)
      (Completed crowd.trace) call response := by
  obtain ⟨began, rest, mid, ended, hbegan, hreturned, hmid⟩ := hmade
  have hown : ownCalls i (crowd.run device turns).trace =
    [⟨.returned call (.ok response), ended⟩] ++ (mid ++ ownCalls i crowd.trace) := hreturned
  have hwithin := within_run hsound hbegan turns hown hmid
  have hkept := (hsound.run turns).keeps.done i
  rw [hreturned] at hkept
  obtain ⟨hcalling, hreturns⟩ := hkept.1
  cases call with
  | save task =>
      obtain ⟨hsaved, hwritten, -⟩ := hreturns
      exact ⟨hsaved, hsound.explained_save hreadable hwithin hcalling hwritten⟩
  | get taskId =>
      obtain ⟨text, htexts, hfound⟩ := hreturns
      exact hsound.explained_get hreadable hwithin hcalling htexts hfound
  | list q =>
      obtain ⟨members, records, hmembers, hcount, hrecords, hfound⟩ := hreturns
      exact ⟨records, hfound,
        hsound.explained_list hreadable hwithin hcalling hmembers hcount hrecords⟩

end Explanations

/-- What clients of one Redis see of each other.  Whatever they call, in every order of
the commands, whatever fails and whoever dies, each call that returned is explained by
what the server held at moments of its own. -/
theorem redis_calls_explained {p : Pydantic} (hp : p.Lawful) (uuid4 : Value → TaskId)
    (keyspace : String) (programs : ι → Prog StoreCall StoreReply α) {data : RedisData}
    (hstart : Stocked (TaskRecord.codec p uuid4) keyspace initial data)
    (before during : List (Crowd.Turn ι RedisFault))
    (hordinary : ∀ task, Sent initial
      ((clients (TaskRecord.codec p uuid4) keyspace programs data).run device before) during task →
        task.Ordinary p) {i : ι} {call : StoreCall} {response : StoreResponse call}
    (hmade : Made i call response
      ((clients (TaskRecord.codec p uuid4) keyspace programs data).run device before).trace
      ((clients (TaskRecord.codec p uuid4) keyspace programs data).run device
        (before ++ during)).trace) :
    Explained (TaskRecord.codec p uuid4) keyspace
      (Sent initial
        ((clients (TaskRecord.codec p uuid4) keyspace programs data).run device before) during)
      (Sometime ((clients (TaskRecord.codec p uuid4) keyspace programs data).run device before)
        during)
      (Completed
        ((clients (TaskRecord.codec p uuid4) keyspace programs data).run device before).trace)
      call response := by
  rw [run_append] at hmade
  apply ((sound_start programs hstart).run before).explained _ hmade
  intro task text hsent htext
  obtain ⟨form, hform, hparse⟩ := parseTask_of_serializeTask hp (hordinary task hsent) htext
  have hid : form.taskId = task.taskId := TaskRecord.taskId_jsonForm hform
  exact ⟨form.sortedKeys, hparse, hid⟩

/-- The client begins to list. -/
def beginsList : Event RedisCommand RedisReply → Bool
  | ⟨.began (.list ⟨none, 0, none⟩), _⟩ => true
  | _ => false

/-- It has listed. -/
def endsList : Event RedisCommand RedisReply → Bool
  | ⟨.returned (.list ⟨none, 0, none⟩) (.ok _), _⟩ => true
  | _ => false

theorem began_of_beginsList {h : History RedisCommand RedisReply}
    (hbegins : h.head?.any beginsList = true) :
    ∃ began rest, h = ⟨.began (.list ⟨none, 0, none⟩), began⟩ :: rest := by
  cases h with
  | nil => cases hbegins
  | cons e rest =>
      change beginsList e = true at hbegins
      unfold beginsList at hbegins
      split at hbegins
      · exact ⟨_, rest, rfl⟩
      · cases hbegins

theorem ended_of_endsList {e : Event RedisCommand RedisReply} {h : History RedisCommand RedisReply}
    (hends : ((e :: h).head?.any endsList) = true) :
    ∃ found ended, e = ⟨.returned (.list ⟨none, 0, none⟩) (.ok found), ended⟩ := by
  change endsList e = true at hends
  unfold endsList at hends
  split at hends
  · exact ⟨_, _, rfl⟩
  · cases hends

/-- The same as `Made`, as a check of the calls of the client. -/
theorem exists_made {i : ι} {turns : List (Crowd.Turn ι RedisFault)} (count : Nat)
    (hbegins : (ownCalls i crowd.trace).head?.any beginsList = true)
    (hends : (ownCalls i (crowd.run device turns).trace).head?.any endsList = true)
    (hcount : (ownCalls i (crowd.run device turns).trace).length =
      1 + (count + (ownCalls i crowd.trace).length))
    (hmid : (((ownCalls i (crowd.run device turns).trace).drop 1).take count).all
      (fun e => !e.call.isMark) = true) :
    ∃ found, Made i (.list ⟨none, 0, none⟩) found crowd.trace
      (crowd.run device turns).trace := by
  obtain ⟨new, hnew⟩ := run_trace device crowd turns
  have hown : ownCalls i (crowd.run device turns).trace =
      ownCalls i new ++ ownCalls i crowd.trace := by
    rw [hnew, ownCalls_append]
  rw [hown] at hends hcount hmid
  cases hnewest : ownCalls i new with
  | nil =>
      rw [hnewest, List.nil_append] at hcount
      omega
  | cons e mid =>
      rw [hnewest] at hown hends hcount hmid
      have hlength : mid.length = count := by
        rw [List.length_append, List.length_cons] at hcount
        omega
      rw [List.cons_append, List.drop_one, List.tail_cons, ← hlength, List.take_left] at hmid
      obtain ⟨found, ended, rfl⟩ := ended_of_endsList hends
      obtain ⟨began, rest, hbegan⟩ := began_of_beginsList hbegins
      refine ⟨found, began, rest, mid, ended, hbegan, hown, ?_⟩
      simpa [Unmarked] using hmid

/-- One client saves a task, the other one lists. -/
def saveAndList (saves : Bool) : Prog StoreCall StoreReply Unit :=
  if saves then .call (.save (taskCreatedAt "a" 1000000)) fun _ => .done ()
  else .call (.list ⟨none, 0, none⟩) fun _ => .done ()

def saverAndLister : Clients Bool Unit :=
  clients (TaskRecord.codec .strict fun _ => "t") "conductor:tasks" saveAndList .empty

def bothBegun : List (Crowd.Turn Bool RedisFault) := [.act true, .act false]

def bothAtWork : List (Crowd.Turn Bool RedisFault) := [.act true, .act false, .act true, .act false]

theorem list_made : ∃ found, Made false (.list ⟨none, 0, none⟩) found
    (saverAndLister.run device bothBegun).trace
    (saverAndLister.run device (bothBegun ++ bothAtWork)).trace := by
  rw [run_append]
  apply exists_made 1
  · decide +kernel
  · decide +kernel
  · decide +kernel
  · decide +kernel

theorem stocked_empty (codec : Codec TaskRecord) (keyspace : String) :
    Stocked codec keyspace (fun _ => False) .empty where
  texts _ _ htext := by cases htext
  there _ hmem := by cases hmem
  nodup := List.nodup_nil

/-- A task without contents is saved. -/
def bareSave : Event RedisCommand RedisReply → Bool
  | ⟨.began (.save task), _⟩ =>
      task.input.isEmpty && task.metadata.isEmpty && task.result.isNone && task.auditTrail.isEmpty
  | _ => true

theorem ordinary_of_bareSave {p : Pydantic} {task : TaskRecord}
    {answer : RedisReply (.began (.save task))}
    (hbare : bareSave ⟨.began (.save task), answer⟩ = true) : task.Ordinary p := by
  simp only [bareSave, Bool.and_eq_true, List.isEmpty_iff, Option.isNone_iff_eq_none] at hbare
  obtain ⟨⟨⟨hinput, hmetadata⟩, hresult⟩, htrail⟩ := hbare
  constructor
  · rw [hinput]
    exact ⟨List.nodup_nil, trivial⟩
  · rw [hmetadata]
    exact ⟨List.nodup_nil, trivial⟩
  · rw [hresult]
    exact fun _ hr => by cases hr
  · rw [htrail]
    exact List.forall_mem_nil _

theorem redis_calls_explained_list : ∃ found, Explained (TaskRecord.codec .strict fun _ => "t")
    "conductor:tasks"
    (Sent (fun _ => False) (saverAndLister.run device bothBegun) bothAtWork)
    (Sometime (saverAndLister.run device bothBegun) bothAtWork)
    (Completed (saverAndLister.run device bothBegun).trace) (.list ⟨none, 0, none⟩) found := by
  obtain ⟨found, hmade⟩ := list_made
  refine ⟨found, redis_calls_explained Pydantic.strict_lawful (fun _ => "t") "conductor:tasks"
    saveAndList (stocked_empty _ _) bothBegun bothAtWork ?_ hmade⟩
  rintro task (hnone | ⟨i, answer, hmem⟩)
  · exact hnone.elim
  · have hbare : (((saverAndLister.run device bothBegun).run device bothAtWork).trace.all
        fun entry => bareSave entry.2) = true := by decide +kernel
    exact ordinary_of_bareSave (List.all_eq_true.mp hbare _ hmem)

end Conductor.RedisTaskStore.Steps
