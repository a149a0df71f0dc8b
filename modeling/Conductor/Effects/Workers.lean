/-
Calls with a deadline.  Such a call is made by a worker of its own, which sends
the answer over a queue that nobody else writes to.  The program joins the
worker, looks whether it is still alive, and takes the answer or goes on
without it; a worker that was given up lives on in the background.
-/
import Mathlib.Data.List.Forall2
import Conductor.Effects.Prog

namespace Conductor.Effects

universe u v w

variable {B : Type*} {C : Type u} {A : C → Type v} {α : Type w} {W : Type*}

theorem forall_mem_modify {P : B → Prop} {f : B → B} {l : List B} (hl : ∀ b ∈ l, P b)
    (hf : ∀ b, P b → P (f b)) (n : Nat) : ∀ b ∈ l.modify n f, P b := by
  induction l generalizing n with
  | nil => simp
  | cons a l ih =>
      simp only [List.forall_mem_cons] at hl
      cases n with
      | zero => simpa using ⟨hf a hl.1, hl.2⟩
      | succ n => simpa using ⟨hl.1, ih hl.2 n⟩

theorem forall₂_modify {D : Type*} {r : D → B → Prop} {f : B → B} {l : List D} {l' : List B}
    (hl : List.Forall₂ r l l') (hf : ∀ a b, r a b → r a (f b)) (n : Nat) :
    List.Forall₂ r l (l'.modify n f) := by
  induction hl generalizing n with
  | nil => simp
  | cons hhead htail ih =>
      cases n with
      | zero => exact .cons (hf _ _ hhead) htail
      | succ n => exact .cons hhead (ih n)

/-- How far a worker is: it makes its call, it is about to send the answer, it
has sent the answer, it is no longer alive. -/
inductive WorkerStage (B : Type*) where
  | calling
  | sending (own : B)
  | sent (own : B)
  | exited (own : B)

/-- What a worker has put into its queue. -/
def WorkerStage.queued : WorkerStage B → List B
  | .calling | .sending _ => []
  | .sent own | .exited own => [own]

inductive WorkerMove (B : Type*) where
  | ends (own : B)
  | puts
  | exits

/-- A worker and its queue, which has room for one answer. -/
structure Worker (B : Type*) where
  stage : WorkerStage B
  queue : List B

namespace Worker

def fresh : Worker B := ⟨.calling, []⟩

/-- One move of a worker, where it can make it.  A put into a full queue
waits. -/
def step (worker : Worker B) : WorkerMove B → Worker B
  | .ends own =>
      match worker.stage with
      | .calling => { worker with stage := .sending own }
      | _ => worker
  | .puts =>
      match worker.stage, worker.queue with
      | .sending own, [] => ⟨.sent own, [own]⟩
      | _, _ => worker
  | .exits =>
      match worker.stage with
      | .sent own => { worker with stage := .exited own }
      | _ => worker

def isAlive (worker : Worker B) : Bool :=
  match worker.stage with
  | .exited _ => false
  | _ => true

/-- What the call of the worker came to, once it has ended. -/
def outcome (worker : Worker B) : Option B :=
  match worker.stage with
  | .calling => none
  | .sending own | .sent own | .exited own => some own

/-- The queue holds what the worker has sent. -/
def Pending (worker : Worker B) : Prop :=
  worker.queue = worker.stage.queued

/-- The answer is in the queue, or somebody took it. -/
def Settled (worker : Worker B) : Prop :=
  worker.Pending ∨ ∃ own, worker = ⟨.exited own, []⟩

theorem pending_fresh : (fresh : Worker B).Pending := rfl

theorem Pending.step {worker : Worker B} (hpending : worker.Pending) (move : WorkerMove B) :
    (worker.step move).Pending := by
  obtain ⟨stage, queue⟩ := worker
  cases stage <;> cases hpending <;> cases move <;> rfl

theorem Settled.step {worker : Worker B} (hsettled : worker.Settled) (move : WorkerMove B) :
    (worker.step move).Settled := by
  rcases hsettled with hpending | ⟨own, rfl⟩
  · exact .inl (hpending.step move)
  · cases move <;> exact .inr ⟨own, rfl⟩

/-- A worker that is about to send finds its queue empty. -/
theorem Settled.put_ready {worker : Worker B} (hsettled : worker.Settled) {own : B}
    (hstage : worker.stage = .sending own) : worker.queue = [] := by
  rcases hsettled with hpending | ⟨own', rfl⟩
  · rw [Pending, hstage] at hpending
    exact hpending
  · rfl

/-- A call that has ended has ended for good. -/
theorem outcome_step {worker : Worker B} {own : B} (houtcome : worker.outcome = some own)
    (move : WorkerMove B) : (worker.step move).outcome = some own := by
  obtain ⟨stage, queue⟩ := worker
  cases stage with
  | calling => cases houtcome
  | sending own' => cases move <;> cases queue <;> exact houtcome
  | sent own' => cases move <;> exact houtcome
  | exited own' => cases move <;> exact houtcome

/-- What is found in the queue of a worker that is no longer alive is the
outcome of its call. -/
theorem Pending.of_exited {worker : Worker B} (hpending : worker.Pending)
    (halive : worker.isAlive = false) :
    ∃ own, worker = ⟨.exited own, [own]⟩ ∧ worker.outcome = some own := by
  obtain ⟨stage, queue⟩ := worker
  cases stage with
  | exited own =>
      cases hpending
      exact ⟨own, rfl, rfl⟩
  | _ => cases halive

end Worker

/-- A call and the worker that makes it. -/
structure Job (C : Type u) (A : C → Type v) where
  call : C
  worker : Worker (A call)

def Job.step (job : Job C A) (move : (c : C) → WorkerMove (A c)) : Job C A :=
  ⟨job.call, job.worker.step (move job.call)⟩

/-- How a call with a deadline is answered without its worker: when the
deadline is one that the join refuses, and when the worker is still alive after
the join. -/
structure Deadline (B : Type*) where
  refused : Option B
  expired : B

inductive Wait where
  | joining
  | checking
  | getting

/-- What the program does: it goes on, or it waits for the worker of a call. -/
inductive Control (C : Type u) (A : C → Type v) (α : Type w) where
  | go (p : Prog C A α)
  | await (c : C) (d : Deadline (A c)) (wait : Wait) (worker : Worker (A c))
      (next : A c → Prog C A α)

namespace Control

/-- The program that is left, the call that is waited for included. -/
def rest : Control C A α → Prog C A α
  | .go p => p
  | .await c _ _ _ next => .call c next

/-- The job that is waited for. -/
def jobs : Control C A α → List (Job C A)
  | .go _ => []
  | .await c _ _ worker _ => [⟨c, worker⟩]

/-- The worker that is waited for makes a move. -/
def workerStep (move : (c : C) → WorkerMove (A c)) : Control C A α → Control C A α
  | .go p => .go p
  | .await c d wait worker next => .await c d wait (worker.step (move c)) next

end Control

/-- A program with its configuration and the jobs it no longer waits for, the
oldest first. -/
structure Supervised (W : Type*) (C : Type u) (A : C → Type v) (α : Type w) where
  config : Config W C A
  control : Control C A α
  past : List (Job C A)

/-- Whose turn it is.  The job that is waited for comes after those that are
over. -/
inductive Turn (C : Type u) (A : C → Type v) where
  | program
  | worker (n : Nat) (move : (c : C) → WorkerMove (A c))

/-- The turn is one of the worker `n`. -/
def Turn.isOf (n : Nat) : Turn C A → Bool
  | .program => false
  | .worker m _ => m = n

namespace Supervised

variable (M : Machine W C A) (deadline : (c : C) → Option (Deadline (A c)))

def start (p : Prog C A α) (k : Config W C A) : Supervised W C A α := ⟨k, .go p, []⟩

/-- The program takes an answer for its call and waits no longer. -/
def finish (k : Config W C A) (c : C) (answer : A c) (worker : Worker (A c))
    (next : A c → Prog C A α) : Supervised W C A α :=
  ⟨⟨⟨c, answer⟩ :: k.history, k.state⟩, .go (next answer), [⟨c, worker⟩]⟩

/-- The next step of the program, with the job that it leaves behind.  It can
see the worker it waits for and no other one. -/
def advance (k : Config W C A) : Control C A α → Supervised W C A α
  | .go (.call c next) =>
      match deadline c with
      | none => ⟨(M.step k c).2, .go (next (M.step k c).1), []⟩
      | some d => ⟨k, .await c d .joining .fresh next, []⟩
  | .go p => ⟨k, .go p, []⟩
  | .await c d .joining worker next =>
      match d.refused with
      | some answer => finish k c answer worker next
      | none => ⟨k, .await c d .checking worker next, []⟩
  | .await c d .checking worker next =>
      if worker.isAlive then finish k c d.expired worker next
      else ⟨k, .await c d .getting worker next, []⟩
  | .await c d .getting worker next =>
      match worker.queue with
      | [] => ⟨k, .await c d .getting worker next, []⟩
      | answer :: queue => finish k c answer { worker with queue := queue } next

def step (s : Supervised W C A α) : Turn C A → Supervised W C A α
  | .program =>
      let s' := advance M deadline s.config s.control
      { s' with past := s.past ++ s'.past }
  | .worker n move =>
      if n < s.past.length then { s with past := s.past.modify n (·.step move) }
      else if n = s.past.length then { s with control := s.control.workerStep move }
      else s

def run (s : Supervised W C A α) (turns : List (Turn C A)) : Supervised W C A α :=
  turns.foldl (step M deadline) s

variable {M deadline}

/-- What every turn preserves holds after every run. -/
theorem run_invariant {I : Supervised W C A α → Prop}
    (hstep : ∀ s turn, I s → I (s.step M deadline turn)) (turns : List (Turn C A))
    {s : Supervised W C A α} (hs : I s) : I (s.run M deadline turns) := by
  induction turns generalizing s with
  | nil => exact hs
  | cons turn turns ih => exact ih (hstep s turn hs)

end Supervised

variable (deadline : (c : C) → Option (Deadline (A c)))

/-- The events of the calls with a deadline, the oldest first. -/
def deadlined (h : History C A) : List (Event C A) :=
  (h.filter fun e => (deadline e.call).isSome).reverse

/-- How an event comes about from the job of its call. -/
inductive Outcome : Event C A → Job C A → Prop
  | refused {c : C} {d : Deadline (A c)} {worker : Worker (A c)} {answer : A c}
      (hdeadline : deadline c = some d) (hrefused : d.refused = some answer) :
      Outcome ⟨c, answer⟩ ⟨c, worker⟩
  | expired {c : C} {d : Deadline (A c)} {worker : Worker (A c)}
      (hdeadline : deadline c = some d) (hrefused : d.refused = none) :
      Outcome ⟨c, d.expired⟩ ⟨c, worker⟩
  | own {c : C} {d : Deadline (A c)} {worker : Worker (A c)} {answer : A c}
      (hdeadline : deadline c = some d) (hrefused : d.refused = none)
      (hown : worker.outcome = some answer) : Outcome ⟨c, answer⟩ ⟨c, worker⟩

/-- How far the wait for a worker can be. -/
def Wait.Met {c : C} (d : Deadline (A c)) (worker : Worker (A c)) : Wait → Prop
  | .joining => True
  | .checking => d.refused = none
  | .getting => d.refused = none ∧ worker.isAlive = false

/-- What holds of the worker that is waited for. -/
def Control.Sound : Control C A α → Prop
  | .go _ => True
  | .await c d wait worker _ => deadline c = some d ∧ worker.Pending ∧ wait.Met d worker

namespace Supervised

/-- The jobs account for the answers so far. -/
structure Sound (s : Supervised W C A α) : Prop where
  control : s.control.Sound deadline
  settled : ∀ job ∈ s.past, job.worker.Settled
  outcomes : List.Forall₂ (Outcome deadline) (deadlined deadline s.config.history) s.past

end Supervised

variable {deadline}

theorem Outcome.step {e : Event C A} {job : Job C A} (houtcome : Outcome deadline e job)
    (move : (c : C) → WorkerMove (A c)) : Outcome deadline e (job.step move) := by
  cases houtcome with
  | refused hdeadline hrefused => exact .refused hdeadline hrefused
  | expired hdeadline hrefused => exact .expired hdeadline hrefused
  | own hdeadline hrefused hown => exact .own hdeadline hrefused (Worker.outcome_step hown _)

/-- The cases of an outcome, about the call and its deadline. -/
theorem Outcome.answered {e : Event C A} {job : Job C A} (houtcome : Outcome deadline e job) :
    ∃ c d answer worker, e = ⟨c, answer⟩ ∧ job = ⟨c, worker⟩ ∧ deadline c = some d ∧
      (d.refused = some answer ∨
        d.refused = none ∧ (answer = d.expired ∨ worker.outcome = some answer)) := by
  cases houtcome with
  | refused hdeadline hrefused => exact ⟨_, _, _, _, rfl, rfl, hdeadline, .inl hrefused⟩
  | expired hdeadline hrefused => exact ⟨_, _, _, _, rfl, rfl, hdeadline, .inr ⟨hrefused, .inl rfl⟩⟩
  | own hdeadline hrefused hown =>
      exact ⟨_, _, _, _, rfl, rfl, hdeadline, .inr ⟨hrefused, .inr hown⟩⟩

theorem deadlined_cons_some {h : History C A} {e : Event C A} {d : Deadline (A e.call)}
    (hdeadline : deadline e.call = some d) :
    deadlined deadline (e :: h) = deadlined deadline h ++ [e] := by
  simp [deadlined, hdeadline]

theorem deadlined_cons_none {h : History C A} {e : Event C A} (hdeadline : deadline e.call = none) :
    deadlined deadline (e :: h) = deadlined deadline h := by
  simp [deadlined, hdeadline]

theorem Worker.isAlive_step {worker : Worker B} (halive : worker.isAlive = false)
    (move : WorkerMove B) : (worker.step move).isAlive = false := by
  obtain ⟨stage, queue⟩ := worker
  cases stage with
  | exited own => cases move <;> rfl
  | _ => cases halive

theorem Control.Sound.workerStep {control : Control C A α} (hsound : control.Sound deadline)
    (move : (c : C) → WorkerMove (A c)) : (control.workerStep move).Sound deadline := by
  cases control with
  | go p => trivial
  | await c d wait worker next =>
      obtain ⟨hdeadline, hpending, hmet⟩ := hsound
      refine ⟨hdeadline, hpending.step _, ?_⟩
      cases wait with
      | joining => trivial
      | checking => exact hmet
      | getting => exact ⟨hmet.1, Worker.isAlive_step hmet.2 _⟩

namespace Supervised

variable {M : Machine W C A}

/-- A step of the program leaves at most one job behind, with the event that
it accounts for. -/
theorem advance_cases (k : Config W C A) {control : Control C A α}
    (hsound : control.Sound deadline) :
    (advance M deadline k control).control.Sound deadline ∧
      ((advance M deadline k control).past = [] ∧
          deadlined deadline (advance M deadline k control).config.history =
            deadlined deadline k.history ∨
        ∃ e job, (advance M deadline k control).past = [job] ∧ job.worker.Settled ∧
          Outcome deadline e job ∧
          deadlined deadline (advance M deadline k control).config.history =
            deadlined deadline k.history ++ [e]) := by
  cases control with
  | go p =>
      cases p with
      | done value => exact ⟨trivial, .inl ⟨rfl, rfl⟩⟩
      | outOfFuel => exact ⟨trivial, .inl ⟨rfl, rfl⟩⟩
      | call c next =>
          cases hdeadline : deadline c with
          | none =>
              simp only [advance, hdeadline]
              exact ⟨trivial, .inl ⟨trivial, deadlined_cons_none hdeadline⟩⟩
          | some d =>
              simp only [advance, hdeadline]
              exact ⟨⟨hdeadline, Worker.pending_fresh, trivial⟩, .inl (by simp)⟩
  | await c d wait worker next =>
      obtain ⟨hdeadline, hpending, hmet⟩ := hsound
      cases wait with
      | joining =>
          cases hrefused : d.refused with
          | some answer =>
              simp only [advance, hrefused]
              exact ⟨trivial, .inr ⟨_, _, rfl, .inl hpending, .refused hdeadline hrefused,
                deadlined_cons_some hdeadline⟩⟩
          | none =>
              simp only [advance, hrefused]
              exact ⟨⟨hdeadline, hpending, hrefused⟩, .inl (by simp)⟩
      | checking =>
          cases halive : worker.isAlive with
          | true =>
              simp only [advance, halive, if_true]
              exact ⟨trivial, .inr ⟨_, _, rfl, .inl hpending, .expired hdeadline hmet,
                deadlined_cons_some hdeadline⟩⟩
          | false =>
              simp only [advance, halive, Bool.false_eq_true, if_false]
              exact ⟨⟨hdeadline, hpending, hmet, halive⟩, .inl (by simp)⟩
      | getting =>
          obtain ⟨own, rfl, hown⟩ := hpending.of_exited hmet.2
          have htaken : Worker.Settled (⟨.exited own, []⟩ : Worker (A c)) := .inr ⟨own, rfl⟩
          exact ⟨trivial, .inr ⟨⟨c, own⟩, ⟨c, ⟨.exited own, []⟩⟩, rfl, htaken,
            .own hdeadline hmet.1 hown, deadlined_cons_some hdeadline⟩⟩

/-- Every turn keeps the accounts. -/
theorem Sound.step {s : Supervised W C A α} (hsound : s.Sound deadline) (turn : Turn C A) :
    (s.step M deadline turn).Sound deadline := by
  cases turn with
  | program =>
      obtain ⟨hcontrol, hadvance⟩ := advance_cases (M := M) s.config hsound.control
      rcases hadvance with ⟨hover, hhistory⟩ | ⟨e, job, hover, hsettled, houtcome, hhistory⟩
      · refine ⟨hcontrol, ?_, ?_⟩
        · simpa [Supervised.step, hover] using hsound.settled
        · simpa [Supervised.step, hover, hhistory] using hsound.outcomes
      · refine ⟨hcontrol, ?_, ?_⟩
        · simp only [Supervised.step, hover, List.mem_append, List.mem_singleton]
          rintro job' (hmem | rfl)
          · exact hsound.settled job' hmem
          · exact hsettled
        · simp only [Supervised.step, hover, hhistory]
          exact List.rel_append hsound.outcomes (.cons houtcome .nil)
  | worker n move =>
      simp only [Supervised.step]
      split
      · refine ⟨hsound.control, ?_, ?_⟩
        · exact forall_mem_modify hsound.settled (fun _ hjob => hjob.step _) n
        · exact forall₂_modify hsound.outcomes (fun _ _ hjob => hjob.step move) n
      · split
        · exact ⟨hsound.control.workerStep move, hsound.settled, hsound.outcomes⟩
        · exact hsound

theorem sound_start (p : Prog C A α) (w : W) :
    (start p (⟨[], w⟩ : Config W C A)).Sound deadline :=
  ⟨trivial, by simp [start], .nil⟩

/-- The accounts are right at every point of every run. -/
theorem run_sound (p : Prog C A α) (w : W) (turns : List (Turn C A)) :
    ((start p ⟨[], w⟩).run M deadline turns).Sound deadline :=
  run_invariant (fun _ turn hsound => hsound.step turn) turns (sound_start p w)

/-- Who waits for the queue of a worker finds the answer there. -/
theorem Sound.get_ready {s : Supervised W C A α} (hsound : s.Sound deadline) {c : C}
    {d : Deadline (A c)} {worker : Worker (A c)} {next : A c → Prog C A α}
    (hcontrol : s.control = .await c d .getting worker next) :
    ∃ own, worker.queue = [own] ∧ worker.outcome = some own := by
  have hawaited := hsound.control
  rw [hcontrol] at hawaited
  obtain ⟨-, hpending, -, halive⟩ := hawaited
  obtain ⟨own, rfl, hown⟩ := hpending.of_exited halive
  exact ⟨own, rfl, hown⟩

/-- A worker that is about to send finds room in its queue. -/
theorem Sound.put_ready {s : Supervised W C A α} (hsound : s.Sound deadline) {job : Job C A}
    (hjob : job ∈ s.past ++ s.control.jobs) {own : A job.call}
    (hstage : job.worker.stage = .sending own) : job.worker.queue = [] := by
  rcases List.mem_append.mp hjob with hover | hawaited
  · exact (hsound.settled job hover).put_ready hstage
  · have hcontrol := hsound.control
    cases hs : s.control with
    | go p => simp [Control.jobs, hs] at hawaited
    | await c d wait worker next =>
        rw [hs] at hcontrol hawaited
        obtain rfl := List.mem_singleton.mp hawaited
        exact Worker.Settled.put_ready (.inl hcontrol.2.1) hstage

/-- Two points of a run that differ at most in the job `n`, which is over. -/
structure SameBut (n : Nat) (s s' : Supervised W C A α) : Prop where
  config : s.config = s'.config
  control : s.control = s'.control
  length : s.past.length = s'.past.length
  late : n < s.past.length
  others : ∀ m, m ≠ n → s.past[m]? = s'.past[m]?

theorem SameBut.refl {n : Nat} {s : Supervised W C A α} (hlate : n < s.past.length) :
    SameBut n s s :=
  ⟨rfl, rfl, rfl, hlate, fun _ _ => rfl⟩

/-- A late worker moves for itself. -/
theorem SameBut.late_step {n : Nat} {s s' : Supervised W C A α} (hsame : SameBut n s s')
    (move : (c : C) → WorkerMove (A c)) :
    SameBut n (s.step M deadline (.worker n move)) s' := by
  simp only [Supervised.step, if_pos hsame.late]
  refine ⟨hsame.config, hsame.control, ?_, ?_, ?_⟩
  · rw [List.length_modify, hsame.length]
  · rw [List.length_modify]
    exact hsame.late
  · intro m hm
    rw [← hsame.others m hm]
    exact List.getElem?_modify_ne _ _ hm.symm

/-- Nobody else's move depends on a late worker. -/
theorem SameBut.step {n : Nat} {s s' : Supervised W C A α} (hsame : SameBut n s s')
    (turn : Turn C A) : SameBut n (s.step M deadline turn) (s'.step M deadline turn) := by
  obtain ⟨hconfig, hcontrol, hlength, hlate, hover⟩ := hsame
  cases turn with
  | program =>
      simp only [Supervised.step, ← hconfig, ← hcontrol]
      refine ⟨rfl, rfl, by simp [hlength], by simp; omega, ?_⟩
      intro m hm
      rw [List.getElem?_append, List.getElem?_append, hlength, hover m hm]
  | worker m move =>
      simp only [Supervised.step, ← hlength, ← hcontrol]
      split
      · refine ⟨hconfig, rfl, by simp [hlength], by simpa using hlate, ?_⟩
        intro i hi
        simp only [List.getElem?_modify, hover i hi]
      · split
        · exact ⟨hconfig, rfl, hlength, hlate, hover⟩
        · exact ⟨hconfig, hcontrol, hlength, hlate, hover⟩

/-- A run is the same without the moves that a worker makes after its job is
over, but for that job. -/
theorem SameBut.run {n : Nat} {s s' : Supervised W C A α} (hsame : SameBut n s s')
    (turns : List (Turn C A)) :
    SameBut n (s.run M deadline turns)
      (s'.run M deadline (turns.filter fun turn => !turn.isOf n)) := by
  induction turns generalizing s s' with
  | nil => exact hsame
  | cons turn turns ih =>
      by_cases hturn : turn.isOf n = true
      · rw [List.filter_cons_of_neg (by simpa using hturn)]
        cases turn with
        | program => cases hturn
        | worker m move =>
            obtain rfl : m = n := by simpa [Turn.isOf] using hturn
            exact ih (hsame.late_step move)
      · rw [List.filter_cons_of_pos (by simpa using hturn)]
        exact ih (hsame.step turn)

end Supervised

/-- The machine with an oracle for some of its answers. -/
def Machine.answering (M : Machine W C A) (oracle : History C A → (c : C) → Option (A c)) :
    Machine W C A where
  respond h w c :=
    match oracle h c with
    | some answer => (answer, w)
    | none => M.respond h w c

/-- The oracle knows what the calls with a deadline were answered, and nothing
about the other ones. -/
structure Tells (deadline : (c : C) → Option (Deadline (A c)))
    (oracle : History C A → (c : C) → Option (A c)) (h : History C A) : Prop where
  free : ∀ h' c, deadline c = none → oracle h' c = none
  told : ∀ e h', e :: h' <:+ h → (deadline e.call).isSome → oracle h' e.call = some e.answer

theorem Tells.of_suffix {oracle : History C A → (c : C) → Option (A c)} {h h' : History C A}
    (htells : Tells deadline oracle h) (hsuffix : h' <:+ h) : Tells deadline oracle h' :=
  ⟨htells.free, fun e h'' he => htells.told e h'' (he.trans hsuffix)⟩

namespace Supervised

variable {M : Machine W C A} {oracle : History C A → (c : C) → Option (A c)}

theorem advance_history (k : Config W C A) (control : Control C A α) :
    k.history <:+ (advance M deadline k control).config.history := by
  unfold advance
  split
  · split
    · exact List.suffix_cons _ _
    · exact List.suffix_rfl
  · exact List.suffix_rfl
  · split
    · exact List.suffix_cons _ _
    · exact List.suffix_rfl
  · split
    · exact List.suffix_cons _ _
    · exact List.suffix_rfl
  · split
    · exact List.suffix_rfl
    · exact List.suffix_cons _ _

theorem step_history (s : Supervised W C A α) (turn : Turn C A) :
    s.config.history <:+ (s.step M deadline turn).config.history := by
  cases turn with
  | program => exact advance_history s.config s.control
  | worker n move =>
      simp only [Supervised.step]
      split
      · exact List.suffix_rfl
      · split <;> exact List.suffix_rfl

theorem run_history (turns : List (Turn C A)) (s : Supervised W C A α) :
    s.config.history <:+ (s.run M deadline turns).config.history := by
  induction turns generalizing s with
  | nil => exact List.suffix_rfl
  | cons turn turns ih => exact (step_history s turn).trans (ih _)

/-- To finish a call is to have it answered by the oracle. -/
theorem finish_exec {k : Config W C A} {c : C} {d : Deadline (A c)} {answer : A c}
    {worker : Worker (A c)} {next : A c → Prog C A α} (hdeadline : deadline c = some d)
    (htells : Tells deadline oracle (finish k c answer worker next).config.history) :
    (Prog.call c next).exec (M.answering oracle) k =
      (finish k c answer worker next).control.rest.exec (M.answering oracle)
        (finish k c answer worker next).config := by
  have htold : oracle k.history c = some answer :=
    htells.told ⟨c, answer⟩ k.history List.suffix_rfl (by simp [hdeadline])
  simp only [Prog.exec, Machine.step, Machine.answering, htold]
  rfl

/-- A step of the program is one of the sequential run, or none. -/
theorem advance_exec {k : Config W C A} {control : Control C A α}
    (hsound : control.Sound deadline)
    (htells : Tells deadline oracle (advance M deadline k control).config.history) :
    control.rest.exec (M.answering oracle) k =
      (advance M deadline k control).control.rest.exec (M.answering oracle)
        (advance M deadline k control).config := by
  cases control with
  | go p =>
      cases p with
      | done value => rfl
      | outOfFuel => rfl
      | call c next =>
          cases hdeadline : deadline c with
          | none =>
              have hfree := htells.free k.history c hdeadline
              simp only [advance, hdeadline, Control.rest, Prog.exec, Machine.step,
                Machine.answering, hfree]
          | some d => simp only [advance, hdeadline, Control.rest]
  | await c d wait worker next =>
      obtain ⟨hdeadline, hpending, hmet⟩ := hsound
      cases wait with
      | joining =>
          cases hrefused : d.refused with
          | some answer =>
              simp only [advance, hrefused] at htells ⊢
              exact finish_exec hdeadline htells
          | none => simp only [advance, hrefused, Control.rest]
      | checking =>
          cases halive : worker.isAlive with
          | true =>
              simp only [advance, halive, if_true] at htells ⊢
              exact finish_exec hdeadline htells
          | false => simp only [advance, halive, Bool.false_eq_true, if_false, Control.rest]
      | getting =>
          obtain ⟨own, rfl, -⟩ := hpending.of_exited hmet.2
          exact finish_exec hdeadline htells

/-- A run with workers is a sequential run in which the calls with a deadline
are answered by an oracle. -/
theorem run_exec {s : Supervised W C A α} (hsound : s.Sound deadline) (turns : List (Turn C A))
    (htells : Tells deadline oracle (s.run M deadline turns).config.history) :
    s.control.rest.exec (M.answering oracle) s.config =
      (s.run M deadline turns).control.rest.exec (M.answering oracle)
        (s.run M deadline turns).config := by
  induction turns generalizing s with
  | nil => rfl
  | cons turn turns ih =>
      refine Eq.trans ?_ (ih (hsound.step turn) htells)
      cases turn with
      | program =>
          have hlater : (s.step M deadline .program).config.history <:+
              (s.run M deadline (.program :: turns)).config.history := run_history turns _
          exact advance_exec hsound.control (htells.of_suffix hlater)
      | worker n move =>
          simp only [Supervised.step]
          split
          · rfl
          · split
            · cases s.control <;> rfl
            · rfl

end Supervised

end Conductor.Effects
