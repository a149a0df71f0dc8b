/-
Runs of the streams.  Threads, loop and clients take turns in any order.
-/
import Conductor.Api.EventFrames

namespace Conductor

namespace EventStreams

variable {ι γ : Type*}

/-- The turns that bring what a thread broadcasts to the queues. -/
def Drains (thread : ι) (turns : List (StreamTurn ι γ)) : Prop :=
  ∀ turn ∈ turns, turn = .advance thread ∨ turn = .runCallback

theorem Drains.keepsLoop {thread : ι} {turns : List (StreamTurn ι γ)}
    (hdrains : Drains thread turns) : ∀ turn ∈ turns, turn.keepsLoop = true := by
  intro turn hturn
  obtain rfl | rfl := hdrains turn hturn <;> rfl

theorem drains_replicate (thread : ι) (advances callbacks : ℕ) :
    Drains thread (List.replicate advances (.advance thread) ++
      List.replicate callbacks .runCallback : List (StreamTurn ι γ)) := by
  intro turn hturn
  rcases List.mem_append.mp hturn with hturn | hturn
  · exact .inl (List.eq_of_mem_replicate hturn)
  · exact .inr (List.eq_of_mem_replicate hturn)

section Runs

theorem snapshots_runCallback (s : EventStreams ι γ) :
    s.snapshots <+: s.runCallback.snapshots := by
  unfold EventStreams.runCallback
  split <;> exact List.prefix_rfl

variable [DecidableEq ι]

/-- What holds between any two steps while the loop runs. -/
structure Intact (typeFilter : γ → Option (List String))
    (modelDumpJson : TaskEvent → Except PyExc String) (s : EventStreams ι γ) : Prop where
  registry : s.Registry
  delivers : s.Delivers
  inOrder : s.InOrder
  streamed : s.Streamed typeFilter modelDumpJson
  loop : s.loop = .running

theorem intact_attached (typeFilter : γ → Option (List String))
    (modelDumpJson : TaskEvent → Except PyExc String) :
    (attached : EventStreams ι γ).Intact typeFilter modelDumpJson where
  registry := ⟨.nil, by simp [attached], by simp [attached, GeneratorStage.queue],
    by simp [attached, GeneratorStage.queue], by simp [attached]⟩
  delivers := fun _ _ => rfl
  inOrder := fun _ => rfl
  streamed := ⟨by simp [attached, GeneratorStage.queue],
    by simp [attached, GeneratorStage.queue], by simp [attached], by simp [attached]⟩
  loop := rfl

/-- The clients and their queues are as before. -/
structure SameClients (s s' : EventStreams ι γ) : Prop where
  taken : s'.taken = s.taken
  queues : s'.queues = s.queues
  received : s'.received = s.received
  stages : s'.stages = s.stages
  yielded : s'.yielded = s.yielded
  fresh : s.fresh ≤ s'.fresh
  loop : s'.loop = s.loop

/-- The threads and their callbacks are as before. -/
structure SameThreads (s s' : EventStreams ι γ) : Prop where
  received : s'.received = s.received
  callbacks : s'.callbacks = s.callbacks
  broadcasts : s'.broadcasts = s.broadcasts
  snapshots : s'.snapshots = s.snapshots
  loop : s'.loop = s.loop

variable {typeFilter : γ → Option (List String)}
  {modelDumpJson : TaskEvent → Except PyExc String} {s s' : EventStreams ι γ}

theorem Intact.of_sameClients (hintact : s.Intact typeFilter modelDumpJson)
    (hsame : s.SameClients s') (hregistry : s'.Registry) (hdelivers : s'.Delivers) :
    s'.Intact typeFilter modelDumpJson where
  registry := hregistry
  delivers := hdelivers
  inOrder := hintact.inOrder.of_kept hsame.taken hsame.queues hsame.received
  streamed := hintact.streamed.of_kept hsame.stages hsame.taken hsame.yielded hsame.fresh
  loop := hsame.loop.trans hintact.loop

theorem SameThreads.delivers (hsame : s.SameThreads s') (hdelivers : s.Delivers) :
    s'.Delivers := by
  apply hdelivers.of_kept
  · rw [hsame.received, hsame.callbacks]
  · intro thread queue
    rw [remaining, hsame.broadcasts]
    rfl
  · exact hsame.snapshots

theorem Intact.of_sameThreads (hintact : s.Intact typeFilter modelDumpJson)
    (hsame : s.SameThreads s') (hregistry : s'.Registry) (hinOrder : s'.InOrder)
    (hstreamed : s'.Streamed typeFilter modelDumpJson) :
    s'.Intact typeFilter modelDumpJson where
  registry := hregistry
  delivers := hsame.delivers hintact.delivers
  inOrder := hinOrder
  streamed := hstreamed
  loop := hsame.loop.trans hintact.loop

theorem sameClients_advance (s : EventStreams ι γ) (thread : ι) :
    s.SameClients (s.advance thread) := by
  unfold EventStreams.advance callSoonThreadsafe
  split
  · constructor <;> rfl
  · constructor <;> rfl
  · split <;> constructor <;> rfl
  · constructor <;> rfl

theorem sameClients_broadcast (s : EventStreams ι γ) (thread : ι) (item : Option TaskEvent) :
    s.SameClients (s.broadcast thread item) := by
  unfold EventStreams.broadcast
  split
  · constructor <;> rfl
  · split <;> constructor <;> rfl

theorem Intact.broadcast (hintact : s.Intact typeFilter modelDumpJson) (thread : ι)
    (item : Option TaskEvent) : (s.broadcast thread item).Intact typeFilter modelDumpJson :=
  hintact.of_sameClients (sameClients_broadcast s thread item)
    (hintact.registry.broadcast thread item) (hintact.delivers.broadcast thread item)

theorem Intact.advance (hintact : s.Intact typeFilter modelDumpJson) (thread : ι) :
    (s.advance thread).Intact typeFilter modelDumpJson :=
  hintact.of_sameClients (sameClients_advance s thread) (hintact.registry.advance thread)
    (hintact.delivers.advance hintact.registry.nodup hintact.loop thread)

theorem Intact.runCallback (hintact : s.Intact typeFilter modelDumpJson) :
    s.runCallback.Intact typeFilter modelDumpJson := by
  have hdelivers := hintact.delivers.runCallback
  have hinOrder := hintact.inOrder.runCallback
  unfold EventStreams.runCallback at hdelivers hinOrder ⊢
  cases hcallbacks : s.callbacks with
  | nil =>
      simp only [hintact.loop]
      exact hintact
  | cons callback callbacks =>
      simp only [hintact.loop, hcallbacks] at hdelivers hinOrder ⊢
      exact ⟨hintact.registry.of_kept rfl rfl rfl, hdelivers, hinOrder,
        hintact.streamed.of_kept rfl rfl rfl le_rfl, rfl⟩

/-- A client moves on without taking anything. -/
theorem Intact.of_move (hintact : s.Intact typeFilter modelDumpJson)
    (hregistry : s'.Registry) (hstreamed : s'.Streamed typeFilter modelDumpJson)
    (hsame : s.SameThreads s') (htaken : s'.taken = s.taken) (hqueues : s'.queues = s.queues) :
    s'.Intact typeFilter modelDumpJson :=
  hintact.of_sameThreads hsame hregistry
    (hintact.inOrder.of_kept htaken hqueues hsame.received) hstreamed

/-- When a thread has returned and the loop has run its callbacks, each queue has
received what the thread owes it. -/
theorem Intact.received_of_idle (hintact : s.Intact typeFilter modelDumpJson) {thread : ι}
    (hidle : s.broadcasts thread = none) (hcallbacks : s.callbacks = []) (queue : QueueId) :
    s.receivedFrom thread queue = s.due thread queue := by
  have hdelivers := hintact.delivers thread queue
  rw [hcallbacks, List.append_nil, remaining, hidle, List.append_nil] at hdelivers
  exact hdelivers

theorem Intact.receivedFrom_append (hintact : s.Intact typeFilter modelDumpJson) (thread : ι)
    (queue : QueueId) :
    s.receivedFrom thread queue ++ s.inFlight thread queue = s.due thread queue := by
  have hdelivers := hintact.delivers thread queue
  rw [List.filter_append, List.map_append, List.append_assoc] at hdelivers
  exact hdelivers

theorem snapshots_advance (thread : ι) : s.snapshots <+: (s.advance thread).snapshots := by
  unfold EventStreams.advance callSoonThreadsafe
  split
  · exact List.prefix_rfl
  · exact List.prefix_append _ _
  · split <;> exact List.prefix_rfl
  · exact List.prefix_rfl

variable [DecidableEq γ]

theorem Intact.get (hintact : s.Intact typeFilter modelDumpJson) (client : γ) :
    (s.get typeFilter modelDumpJson client).Intact typeFilter modelDumpJson := by
  have hregistry := hintact.registry.get typeFilter modelDumpJson client
  have hstreamed := hintact.streamed.get hintact.registry client
  obtain hkept | ⟨queue, item, items, _, hqueue, hget⟩ :=
    get_cases typeFilter modelDumpJson s client
  · rw [hkept]
    exact hintact
  · have hinOrder := hintact.inOrder.takeItem hqueue
    obtain ⟨rfl, hget⟩ | ⟨event, rfl, ⟨_, _, _, hget⟩ | ⟨_, _, _, hget⟩ | ⟨_, hget⟩⟩ := hget <;>
      rw [hget] at hregistry hstreamed ⊢ <;>
      exact hintact.of_sameThreads ⟨rfl, rfl, rfl, rfl, rfl⟩ hregistry
        (hinOrder.of_kept rfl rfl rfl) hstreamed

theorem Intact.step (hintact : s.Intact typeFilter modelDumpJson) {turn : StreamTurn ι γ}
    (hkeeps : turn.keepsLoop = true) :
    (s.step typeFilter modelDumpJson turn).Intact typeFilter modelDumpJson := by
  have hregistry := hintact.registry.step typeFilter modelDumpJson turn
  cases turn with
  | turnLoop loop => cases hkeeps
  | subscribe =>
      exact hintact.of_sameClients ⟨rfl, rfl, rfl, rfl, rfl, Nat.le_succ _, rfl⟩ hregistry
        (hintact.delivers.of_kept rfl (fun _ _ => rfl) rfl)
  | unsubscribe queue =>
      exact hintact.of_sameClients ⟨rfl, rfl, rfl, rfl, rfl, le_rfl, rfl⟩ hregistry
        (hintact.delivers.of_kept rfl (fun _ _ => rfl) rfl)
  | emit thread event => exact hintact.broadcast thread (some event)
  | shutdown thread => exact hintact.broadcast thread none
  | advance thread => exact hintact.advance thread
  | runCallback => exact hintact.runCallback
  | start client =>
      apply hintact.of_move hregistry (hintact.streamed.start client) <;>
        simp only [EventStreams.step, EventStreams.start] <;> split <;>
        first | rfl | exact ⟨rfl, rfl, rfl, rfl, rfl⟩
  | get client => exact hintact.get client
  | timeOut client =>
      apply hintact.of_move hregistry (hintact.streamed.timeOut client) <;>
        simp only [EventStreams.step, EventStreams.timeOut] <;> split <;>
        first | rfl | exact ⟨rfl, rfl, rfl, rfl, rfl⟩
  | resume client =>
      apply hintact.of_move hregistry (hintact.streamed.resume client) <;>
        simp only [EventStreams.step, EventStreams.resume] <;> split <;>
        first | rfl | exact ⟨rfl, rfl, rfl, rfl, rfl⟩
  | close client =>
      apply hintact.of_move hregistry (hintact.streamed.close client) <;>
        simp only [EventStreams.step, EventStreams.close] <;> split <;>
        first | rfl | exact ⟨rfl, rfl, rfl, rfl, rfl⟩
  | leave client =>
      apply hintact.of_move hregistry (hintact.streamed.leave client) <;>
        simp only [EventStreams.step, EventStreams.leave] <;> split <;>
        first | rfl | exact ⟨rfl, rfl, rfl, rfl, rfl⟩

theorem intact_run {turns : List (StreamTurn ι γ)}
    (hkeeps : ∀ turn ∈ turns, turn.keepsLoop = true) :
    (run typeFilter modelDumpJson turns).Intact typeFilter modelDumpJson :=
  List.foldlRecOn turns _ (intact_attached typeFilter modelDumpJson)
    fun _ hintact turn hturn => hintact.step (hkeeps turn hturn)

theorem scheduling_ends (thread : ι) {item : Option TaskEvent} {subs : List QueueId}
    (hscheduling : s.broadcasts thread = some (.scheduling item subs)) :
    ∃ n, ((List.replicate n (.advance thread)).foldl (step typeFilter modelDumpJson)
      s).broadcasts thread = none := by
  induction subs generalizing s with
  | nil =>
      refine ⟨1, ?_⟩
      simp [EventStreams.step, EventStreams.advance, hscheduling, setBroadcast]
  | cons first subs ih =>
      have hnext : (s.advance thread).broadcasts thread = some (.scheduling item subs) := by
        simp [EventStreams.advance, hscheduling, setBroadcast]
      obtain ⟨n, hn⟩ := ih hnext
      exact ⟨n + 1, hn⟩

theorem broadcast_ends (typeFilter : γ → Option (List String))
    (modelDumpJson : TaskEvent → Except PyExc String) (s : EventStreams ι γ) (thread : ι) :
    ∃ n, ((List.replicate n (.advance thread)).foldl (step typeFilter modelDumpJson)
      s).broadcasts thread = none := by
  cases hbroadcast : s.broadcasts thread with
  | none => exact ⟨0, hbroadcast⟩
  | some broadcast =>
      cases broadcast with
      | scheduling item subs => exact scheduling_ends thread hbroadcast
      | entered item =>
          have hnext : (s.advance thread).broadcasts thread =
              some (.scheduling item s.subscribers) := by
            simp [EventStreams.advance, hbroadcast, setBroadcast]
          obtain ⟨n, hn⟩ := scheduling_ends thread hnext
          exact ⟨n + 1, hn⟩

theorem callbacks_end (hloop : s.loop = .running) :
    ∃ n, ((List.replicate n .runCallback).foldl (step typeFilter modelDumpJson) s).callbacks = [] ∧
      ((List.replicate n .runCallback).foldl (step typeFilter modelDumpJson) s).broadcasts =
        s.broadcasts := by
  obtain ⟨callbacks, hcallbacks⟩ : ∃ callbacks, s.callbacks = callbacks := ⟨_, rfl⟩
  induction callbacks generalizing s with
  | nil => exact ⟨0, hcallbacks, rfl⟩
  | cons callback callbacks ih =>
      have hrun : s.runCallback.loop = .running ∧ s.runCallback.callbacks = callbacks ∧
          s.runCallback.broadcasts = s.broadcasts := by
        simp [EventStreams.runCallback, hloop, hcallbacks]
      obtain ⟨n, hempty, hkept⟩ := ih hrun.1 hrun.2.1
      exact ⟨n + 1, hempty, hkept.trans hrun.2.2⟩

theorem run_append (turns later : List (StreamTurn ι γ)) :
    run typeFilter modelDumpJson (turns ++ later) =
      later.foldl (step typeFilter modelDumpJson) (run typeFilter modelDumpJson turns) :=
  List.foldl_append

/-- What is due stays due. -/
theorem Drains.due_prefix {thread : ι} {turns : List (StreamTurn ι γ)}
    (hdrains : Drains thread turns) (queue : QueueId) : s.due thread queue <+:
      (turns.foldl (step typeFilter modelDumpJson) s).due thread queue := by
  induction turns generalizing s with
  | nil => exact List.prefix_rfl
  | cons turn turns ih =>
      have hsnapshots : s.snapshots <+: (s.step typeFilter modelDumpJson turn).snapshots := by
        obtain rfl | rfl := hdrains turn List.mem_cons_self
        · exact snapshots_advance thread
        · exact snapshots_runCallback s
      have hhead : s.due thread queue <+:
          (s.step typeFilter modelDumpJson turn).due thread queue :=
        (hsnapshots.filter _).map _
      exact hhead.trans (ih fun later hlater => hdrains later (List.mem_cons_of_mem _ hlater))

/-- The loop and the thread need only go on for what is due to be received. -/
theorem received_later {turns : List (StreamTurn ι γ)}
    (hkeeps : ∀ turn ∈ turns, turn.keepsLoop = true) (thread : ι) :
    ∃ later, Drains thread later ∧ ∀ queue,
      (run typeFilter modelDumpJson turns).due thread queue <+:
        (run typeFilter modelDumpJson (turns ++ later)).receivedFrom thread queue := by
  obtain ⟨advances, hidle⟩ := broadcast_ends typeFilter modelDumpJson
    (run typeFilter modelDumpJson turns) thread
  have hintact : ((List.replicate advances (.advance thread)).foldl (step typeFilter modelDumpJson)
      (run typeFilter modelDumpJson turns)).Intact typeFilter modelDumpJson := by
    rw [← run_append]
    apply intact_run
    intro turn hturn
    rcases List.mem_append.mp hturn with hturn | hturn
    · exact hkeeps turn hturn
    · rw [List.eq_of_mem_replicate hturn]
      rfl
  obtain ⟨callbacks, hempty, hkept⟩ := callbacks_end hintact.loop
  have hdrains : Drains thread (List.replicate advances (.advance thread) ++
      List.replicate callbacks .runCallback : List (StreamTurn ι γ)) :=
    drains_replicate thread advances callbacks
  refine ⟨_, hdrains, fun queue => ?_⟩
  have hall : (run typeFilter modelDumpJson (turns ++ _)).Intact typeFilter modelDumpJson :=
    intact_run fun turn hturn => (List.mem_append.mp hturn).elim (hkeeps turn)
      (hdrains.keepsLoop turn)
  rw [hall.received_of_idle]
  · rw [run_append]
    exact hdrains.due_prefix queue
  · rw [run_append, List.foldl_append, hkept]
    exact hidle
  · rw [run_append, List.foldl_append]
    exact hempty

theorem StoppedAtEnd.step {client : γ}
    (hstopped : StoppedAtEnd typeFilter modelDumpJson client s)
    {turn : StreamTurn ι γ} (hturn : turn ≠ .close client) :
    StoppedAtEnd typeFilter modelDumpJson client (s.step typeFilter modelDumpJson turn) := by
  have hsame : ∀ {s'}, s.SameClients s' → StoppedAtEnd typeFilter modelDumpJson client s' := by
    intro s' hsame
    apply hstopped.of_kept (congrFun hsame.stages client)
    intro queue
    simp only [hsame.taken, List.prefix_rfl]
  cases turn with
  | turnLoop loop => exact hstopped
  | subscribe => exact hstopped
  | unsubscribe queue => exact hstopped
  | emit thread event => exact hsame (sameClients_broadcast s thread (some event))
  | shutdown thread => exact hsame (sameClients_broadcast s thread none)
  | advance thread => exact hsame (sameClients_advance s thread)
  | runCallback =>
      simp only [EventStreams.step, EventStreams.runCallback]
      split <;> exact hstopped
  | start other =>
      simp only [EventStreams.step, EventStreams.start]
      split
      · apply StoppedAtEnd.stand
        · exact hstopped
        · simp
      · exact hstopped
  | get other => exact hstopped.get other
  | timeOut other =>
      simp only [EventStreams.step, EventStreams.timeOut]
      split
      · apply StoppedAtEnd.stand
        · exact hstopped
        · simp
      · exact hstopped
  | resume other =>
      simp only [EventStreams.step, EventStreams.resume]
      split
      · exact hstopped.stand other (by simp)
      · exact hstopped
  | close other =>
      have hother : other ≠ client := fun heq => hturn (congrArg StreamTurn.close heq)
      simp only [EventStreams.step, EventStreams.close]
      split
      · exact hstopped.stand other fun heq => absurd heq hother
      · exact hstopped.stand other fun heq => absurd heq hother
      · exact hstopped
  | leave other =>
      simp only [EventStreams.step, EventStreams.leave]
      split
      · next queue hleaving =>
          apply StoppedAtEnd.stand
          · exact hstopped
          · intro heq queue' hqueue
            subst heq
            simp only [GeneratorStage.finished.injEq, reduceCtorEq, false_or] at hqueue
            subst hqueue
            exact hstopped queue (.inl hleaving)
      · exact hstopped

theorem stoppedAtEnd_run {turns : List (StreamTurn ι γ)} {client : γ}
    (hclose : .close client ∉ turns) :
    StoppedAtEnd typeFilter modelDumpJson client (run typeFilter modelDumpJson turns) := by
  apply List.foldlRecOn
  · simp [StoppedAtEnd, attached]
  · intro s hstopped turn hturn
    exact hstopped.step fun heq => hclose (heq ▸ hturn)

/-- Each queue receives what was broadcast while it was registered, once and in
the order of each thread; each client is given the frames of what its queue
received before the first sentinel, as far as its filter lets them pass, up to an
event that cannot be dumped, and then gives back its own queue. -/
theorem events_delivered_once_in_order (typeFilter : γ → Option (List String))
    (modelDumpJson : TaskEvent → Except PyExc String) (turns : List (StreamTurn ι γ))
    (hkeeps : ∀ turn ∈ turns, turn.keepsLoop = true) :
    let s := run typeFilter modelDumpJson turns
    (∀ thread queue,
      s.receivedFrom thread queue ++ s.inFlight thread queue = s.due thread queue) ∧
    (∀ thread, ∃ later, Drains thread later ∧ ∀ queue, s.due thread queue <+:
      (run typeFilter modelDumpJson (turns ++ later)).receivedFrom thread queue) ∧
    (∀ client queue, (s.stages client).queue = some queue →
      s.taken queue ++ s.queues queue = s.receivedBy queue ∧
      s.frames client = (dumpedUpTo modelDumpJson
        ((beforeSentinel (s.taken queue)).filter (passesFilter (typeFilter client)))).map
          (fun item => eventFrame item.1 item.2) ∧
      (StreamEnds (typeFilter client) modelDumpJson (s.taken queue) →
        s.stages client = .leaving queue ∨ s.stages client = .finished queue)) ∧
    (∀ client queue, .close client ∉ turns →
      s.stages client = .leaving queue ∨ s.stages client = .finished queue →
      StreamEnds (typeFilter client) modelDumpJson (s.taken queue) ∧
      s.frames client = (dumpedUpTo modelDumpJson
        ((beforeSentinel (s.receivedBy queue)).filter (passesFilter (typeFilter client)))).map
          (fun item => eventFrame item.1 item.2)) ∧
    (∀ client queue, s.stages client = .leaving queue →
      (s.leave client).stages client = .finished queue ∧
      ∀ other, other ∈ (s.leave client).subscribers ↔ other ∈ s.subscribers ∧ other ≠ queue) ∧
    (∀ client queue, s.stages client = .finished queue → queue ∉ s.subscribers) ∧
    ∀ client client' queue, (s.stages client).queue = some queue →
      (s.stages client').queue = some queue → client = client' := by
  intro s
  have hintact : s.Intact typeFilter modelDumpJson := intact_run hkeeps
  have hgiven := hintact.streamed.given
  refine ⟨hintact.receivedFrom_append, received_later hkeeps, ?_, ?_, ?_, hintact.registry.gone,
    hintact.registry.owner⟩
  · intro client queue hqueue
    exact ⟨hintact.inOrder queue, hgiven client queue hqueue,
      hintact.streamed.stopped client queue hqueue⟩
  · intro client queue hclose hstage
    have hends : StreamEnds _ modelDumpJson (s.taken queue) := stoppedAtEnd_run hclose queue hstage
    have hqueue : (s.stages client).queue = some queue := by
      obtain hstage | hstage := hstage <;> rw [hstage] <;> rfl
    refine ⟨hends, ?_⟩
    have hframes := hgiven client queue hqueue
    rw [← shownItems_append_of_ends hends (s.queues queue), hintact.inOrder queue] at hframes
    exact hframes
  · intro client queue hleaving
    simp only [EventStreams.leave, hleaving]
    refine ⟨by simp [EventStreams.stand], fun other => ?_⟩
    change other ∈ s.subscribers.erase queue ↔ _
    rw [hintact.registry.nodup.mem_erase_iff, and_comm]

/-- One thread broadcasts an event and another the sentinel. -/
def closingTurns (event : TaskEvent) : List (StreamTurn Bool Unit) :=
  [.start (), .emit true event, .advance true, .advance true, .shutdown false, .advance false,
    .advance false, .runCallback, .runCallback, .get (), .resume (), .get (), .leave ()]

theorem closingTurns_end (event : TaskEvent) (dumped : Except PyExc String) :
    (run (fun _ => none) (fun _ => dumped) (closingTurns event)).stages () = .finished 0 ∧
      (run (fun _ => none) (fun _ => dumped) (closingTurns event)).receivedBy 0 =
        [some event, none] := by
  cases dumped <;>
  simp [run, closingTurns, EventStreams.step, EventStreams.start, emit, shutdown,
    EventStreams.broadcast, EventStreams.advance, EventStreams.runCallback, EventStreams.get,
    EventStreams.resume, EventStreams.leave, attached, EventStreams.subscribe, EventStreams.stand,
    setBroadcast, callSoonThreadsafe, takeItem, yieldText, EventStreams.unsubscribe, receivedBy,
    passesFilter]

def startedEvent : TaskEvent :=
  ⟨.taskStarted, "t1", "echo", "echo", .running, 1, 0, none, none, []⟩

theorem closingTurns_keepLoop (event : TaskEvent) :
    ∀ turn ∈ closingTurns event, turn.keepsLoop = true := by
  simp [closingTurns, StreamTurn.keepsLoop]

/-- The only client is given the event before the stream ends. -/
theorem events_delivered_once_in_order_closing :
    (run (fun _ => none) (fun _ => .ok "") (closingTurns startedEvent)).frames () =
      [eventFrame startedEvent ""] := by
  obtain ⟨hfinished, hreceived⟩ := closingTurns_end startedEvent (.ok "")
  have hframes := (events_delivered_once_in_order (fun _ => none) (fun _ => .ok "")
    (closingTurns startedEvent) (closingTurns_keepLoop startedEvent)).2.2.2.1
  have hgiven := (hframes () 0 (by simp [closingTurns]) (.inr hfinished)).2
  rw [hreceived] at hgiven
  exact hgiven

/-- An event with an object in its metadata that has no place in JSON. -/
def socketEvent : TaskEvent := { startedEvent with metadata := [("peer", .object "socket")] }

/-- What the validation library raises for it. -/
def unserialisable : PyExc :=
  .exception "PydanticSerializationError"
    "Unable to serialize unknown type: <class 'socket.socket'>"

/-- A client that is not closed may be given fewer frames than its queue received
events before the sentinel, though it filters no type: the stream ends without a
frame for an event that cannot be dumped. -/
theorem socketEvent_not_shown :
    ¬∀ (modelDumpJson : TaskEvent → Except PyExc String) (turns : List (StreamTurn Bool Unit)),
        (∀ turn ∈ turns, turn.keepsLoop = true) → .close () ∉ turns → ∀ queue,
          (run (fun _ => none) modelDumpJson turns).stages () = .finished queue →
            ((run (fun _ => none) modelDumpJson turns).frames ()).length = (beforeSentinel
              ((run (fun _ => none) modelDumpJson turns).receivedBy queue)).length := by
  intro hshown
  obtain ⟨hfinished, hreceived⟩ := closingTurns_end socketEvent (.error unserialisable)
  have hlength := hshown (fun _ => .error unserialisable) (closingTurns socketEvent)
    (closingTurns_keepLoop socketEvent) (by simp [closingTurns]) 0 hfinished
  have hnone : (run (fun _ => none) (fun _ => .error unserialisable)
      (closingTurns socketEvent)).frames () = [] := rfl
  rw [hreceived, hnone] at hlength
  cases hlength

end Runs

end EventStreams

end Conductor
