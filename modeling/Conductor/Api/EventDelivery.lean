/-
Delivery to the queues.  What a thread has scheduled for a queue, followed by
what it still has to schedule, is what it owes the queue by its copies of the
subscribers.
-/
import Conductor.Api.EventBus

namespace Conductor

/-- The put goes from this thread to this queue. -/
def Callback.between {ι : Type*} [DecidableEq ι] (thread : ι) (queue : QueueId)
    (callback : Callback ι) : Bool :=
  decide (callback.thread = thread ∧ callback.queue = queue)

/-- What the thread still has to schedule for the queue. -/
def Broadcast.remaining (queue : QueueId) : Broadcast → List (Option TaskEvent)
  | .entered _ => []
  | .scheduling item subs => (subs.filter fun q => q = queue).map fun _ => item

namespace EventStreams

variable {ι γ : Type*}

section Items

variable [DecidableEq ι]

/-- The items that the thread broadcast while the queue was registered, in order. -/
def due (s : EventStreams ι γ) (thread : ι) (queue : QueueId) : List (Option TaskEvent) :=
  (s.snapshots.filter fun copy => decide (copy.thread = thread ∧ queue ∈ copy.subs)).map (·.item)

/-- The items of the thread that were put into the queue, in order. -/
def receivedFrom (s : EventStreams ι γ) (thread : ι) (queue : QueueId) :
    List (Option TaskEvent) :=
  (s.received.filter (·.between thread queue)).map (·.item)

/-- The items that were put into the queue, in order. -/
def receivedBy (s : EventStreams ι γ) (queue : QueueId) : List (Option TaskEvent) :=
  (s.received.filter fun callback => callback.queue = queue).map (·.item)

def remaining (s : EventStreams ι γ) (thread : ι) (queue : QueueId) : List (Option TaskEvent) :=
  match s.broadcasts thread with
  | some broadcast => broadcast.remaining queue
  | none => []

/-- The items of the thread that are on their way to the queue. -/
def inFlight (s : EventStreams ι γ) (thread : ι) (queue : QueueId) : List (Option TaskEvent) :=
  (s.callbacks.filter (·.between thread queue)).map (·.item) ++ s.remaining thread queue

end Items

section Queues

/-- Queues are new when they are made, and each belongs to one client. -/
structure Registry (s : EventStreams ι γ) : Prop where
  nodup : s.subscribers.Nodup
  subscriber_lt : ∀ queue ∈ s.subscribers, queue < s.fresh
  owned_lt : ∀ client queue, (s.stages client).queue = some queue → queue < s.fresh
  owner : ∀ client client' queue, (s.stages client).queue = some queue →
    (s.stages client').queue = some queue → client = client'
  gone : ∀ client queue, s.stages client = .finished queue → queue ∉ s.subscribers

/-- No more queues are made and none is registered. -/
theorem Registry.of_kept {s s' : EventStreams ι γ} (hregistry : s.Registry)
    (hsubscribers : s'.subscribers = s.subscribers) (hfresh : s'.fresh = s.fresh)
    (hstages : s'.stages = s.stages) : s'.Registry := by
  obtain ⟨hnodup, hlt, howned, howner, hgone⟩ := hregistry
  constructor <;> simpa only [hsubscribers, hfresh, hstages]

theorem Registry.subscribe {s : EventStreams ι γ} (hregistry : s.Registry) :
    s.subscribe.Registry := by
  have hnew : s.fresh ∉ s.subscribers := fun hmem =>
    Nat.lt_irrefl _ (hregistry.subscriber_lt _ hmem)
  constructor
  · exact hregistry.nodup.append (List.nodup_singleton _) (by simpa using hnew)
  · intro queue hmem
    rcases List.mem_append.mp hmem with hmem | hmem
    · exact Nat.lt_succ_of_lt (hregistry.subscriber_lt queue hmem)
    · rw [List.mem_singleton.mp hmem]
      exact Nat.lt_succ_self _
  · intro client queue hqueue
    exact Nat.lt_succ_of_lt (hregistry.owned_lt client queue hqueue)
  · exact hregistry.owner
  · intro client queue hfinished hmem
    have howned := hregistry.owned_lt client queue (congrArg GeneratorStage.queue hfinished)
    rcases List.mem_append.mp hmem with hmem | hmem
    · exact hregistry.gone client queue hfinished hmem
    · rw [List.mem_singleton.mp hmem] at howned
      exact Nat.lt_irrefl _ howned

theorem Registry.unsubscribe {s : EventStreams ι γ} (hregistry : s.Registry) (queue : QueueId) :
    (s.unsubscribe queue).Registry := by
  constructor
  · exact hregistry.nodup.erase queue
  · exact fun other hmem => hregistry.subscriber_lt other (List.mem_of_mem_erase hmem)
  · exact hregistry.owned_lt
  · exact hregistry.owner
  · exact fun client other hfinished hmem =>
      hregistry.gone client other hfinished (List.mem_of_mem_erase hmem)

theorem callSoonThreadsafe_kept (s : EventStreams ι γ) (callback : Callback ι) :
    (s.callSoonThreadsafe callback).subscribers = s.subscribers ∧
      (s.callSoonThreadsafe callback).fresh = s.fresh ∧
      (s.callSoonThreadsafe callback).stages = s.stages := by
  unfold callSoonThreadsafe
  split <;> exact ⟨rfl, rfl, rfl⟩

theorem callSoonThreadsafe_running {s : EventStreams ι γ} (hloop : s.loop = .running)
    (callback : Callback ι) :
    s.callSoonThreadsafe callback = { s with callbacks := s.callbacks ++ [callback] } := by
  simp [callSoonThreadsafe, hloop]

section Threads

variable [DecidableEq ι]

theorem Registry.advance {s : EventStreams ι γ} (hregistry : s.Registry) (thread : ι) :
    (s.advance thread).Registry := by
  unfold EventStreams.advance
  split
  · exact hregistry
  · exact hregistry.of_kept rfl rfl rfl
  · obtain ⟨hsubscribers, hfresh, hstages⟩ := callSoonThreadsafe_kept s _
    exact hregistry.of_kept hsubscribers hfresh hstages
  · exact hregistry.of_kept rfl rfl rfl

theorem Registry.broadcast {s : EventStreams ι γ} (hregistry : s.Registry) (thread : ι)
    (item : Option TaskEvent) : (s.broadcast thread item).Registry := by
  unfold EventStreams.broadcast
  split
  · exact hregistry
  · split
    · exact hregistry.of_kept rfl rfl rfl
    · exact hregistry

end Threads

variable [DecidableEq γ]

/-- A client moves on with its queue; it must have unregistered it to finish. -/
theorem Registry.stand {s : EventStreams ι γ} (hregistry : s.Registry) {client : γ}
    {stage : GeneratorStage} (hqueue : stage.queue = (s.stages client).queue)
    (hgone : ∀ queue, stage = .finished queue → queue ∉ s.subscribers) :
    (s.stand client stage).Registry := by
  have hsame : ∀ other, ((s.stand client stage).stages other).queue = (s.stages other).queue := by
    intro other
    by_cases hother : other = client
    · subst hother
      simpa [EventStreams.stand] using hqueue
    · simp [EventStreams.stand, hother]
  constructor
  · exact hregistry.nodup
  · exact hregistry.subscriber_lt
  · intro other queue hother
    rw [hsame] at hother
    exact hregistry.owned_lt other queue hother
  · intro other other' queue hother hother'
    rw [hsame] at hother hother'
    exact hregistry.owner other other' queue hother hother'
  · intro other queue hfinished
    by_cases hother : other = client
    · subst hother
      exact hgone queue (by simpa [EventStreams.stand] using hfinished)
    · exact hregistry.gone other queue (by simpa [EventStreams.stand, hother] using hfinished)

theorem Registry.yieldText {s : EventStreams ι γ} (hregistry : s.Registry) (client : γ)
    (text : String) : (s.yieldText client text).Registry :=
  hregistry.of_kept rfl rfl rfl

/-- A client that starts owns the queue that was fresh. -/
theorem Registry.start {s : EventStreams ι γ} (hregistry : s.Registry) (client : γ) :
    (s.start client).Registry := by
  unfold EventStreams.start
  cases hstage : s.stages client with
  | created =>
      have hsub := hregistry.subscribe
      have howned : ∀ other, other ≠ client → (s.stages other).queue ≠ some s.fresh :=
        fun other _ hqueue => Nat.lt_irrefl _ (hregistry.owned_lt other _ hqueue)
      constructor
      · exact hsub.nodup
      · exact hsub.subscriber_lt
      · intro other queue hqueue
        by_cases hother : other = client
        · subst hother
          simp only [EventStreams.stand, Function.update_self, GeneratorStage.queue,
            Option.some.injEq] at hqueue
          subst hqueue
          exact Nat.lt_succ_self _
        · exact hsub.owned_lt other queue (by simpa [EventStreams.stand, hother] using hqueue)
      · intro other other' queue hqueue hqueue'
        by_cases hother : other = client <;> by_cases hother' : other' = client
        · rw [hother, hother']
        · subst hother
          simp only [EventStreams.stand, Function.update_self, GeneratorStage.queue,
            Option.some.injEq, Function.update_of_ne hother', EventStreams.subscribe]
            at hqueue hqueue'
          subst hqueue
          exact absurd hqueue' (howned other' hother')
        · subst hother'
          simp only [EventStreams.stand, Function.update_self, GeneratorStage.queue,
            Option.some.injEq, Function.update_of_ne hother, EventStreams.subscribe]
            at hqueue hqueue'
          subst hqueue'
          exact absurd hqueue (howned other hother)
        · exact hsub.owner other other' queue (by simpa [EventStreams.stand, hother] using hqueue)
            (by simpa [EventStreams.stand, hother'] using hqueue')
      · intro other queue hfinished
        by_cases hother : other = client
        · subst hother
          simp [EventStreams.stand] at hfinished
        · exact hsub.gone other queue (by simpa [EventStreams.stand, hother] using hfinished)
  | _ => exact hregistry

theorem Registry.leave {s : EventStreams ι γ} (hregistry : s.Registry) (client : γ) :
    (s.leave client).Registry := by
  unfold EventStreams.leave
  cases hstage : s.stages client with
  | leaving queue =>
      apply (hregistry.unsubscribe queue).stand
      · change some queue = (s.stages client).queue
        rw [hstage]
        rfl
      · intro other hother
        cases hother
        exact hregistry.nodup.not_mem_erase
  | _ => exact hregistry

/-- A client that stays keeps its queue. -/
theorem Registry.stay {s : EventStreams ι γ} (hregistry : s.Registry) {client : γ}
    {stage stage' : GeneratorStage} (hstage : s.stages client = stage)
    (hqueue : stage'.queue = stage.queue) (hstays : ∀ queue, stage' ≠ .finished queue) :
    (s.stand client stage').Registry := by
  apply hregistry.stand
  · rw [hstage, hqueue]
  · exact fun queue hfinished => absurd hfinished (hstays queue)

/-- What a `get` does, if anything. -/
theorem get_cases (typeFilter : γ → Option (List String))
    (modelDumpJson : TaskEvent → Except PyExc String) (s : EventStreams ι γ) (client : γ) :
    s.get typeFilter modelDumpJson client = s ∨
      ∃ queue item items, s.stages client = .waiting queue ∧ s.queues queue = item :: items ∧
        (item = none ∧ s.get typeFilter modelDumpJson client =
            (s.takeItem queue none items).stand client (.leaving queue) ∨
          ∃ event, item = some event ∧
            (passesFilter (typeFilter client) event = true ∧
              (∃ json, modelDumpJson event = .ok json ∧ s.get typeFilter modelDumpJson client =
                ((s.takeItem queue (some event) items).yieldText client
                  (eventFrame event json)).stand client (.suspended queue)) ∨
            passesFilter (typeFilter client) event = true ∧
              (∃ e, modelDumpJson event = .error e ∧ s.get typeFilter modelDumpJson client =
                (s.takeItem queue (some event) items).stand client (.leaving queue)) ∨
            passesFilter (typeFilter client) event = false ∧
              s.get typeFilter modelDumpJson client = s.takeItem queue (some event) items)) := by
  cases hstage : s.stages client with
  | waiting queue =>
      cases hqueue : s.queues queue with
      | nil =>
          left
          simp only [EventStreams.get, hstage, hqueue]
      | cons item items =>
          right
          refine ⟨queue, item, items, rfl, hqueue, ?_⟩
          cases item with
          | none =>
              left
              simp only [EventStreams.get, hstage, hqueue, and_self]
          | some event =>
              right
              refine ⟨event, rfl, ?_⟩
              cases hpasses : passesFilter (typeFilter client) event with
              | false => simp [EventStreams.get, hstage, hqueue, hpasses]
              | true =>
                  cases hjson : modelDumpJson event <;>
                    simp [EventStreams.get, hstage, hqueue, hpasses, hjson]
  | _ =>
      left
      simp only [EventStreams.get, hstage]

theorem Registry.get {s : EventStreams ι γ} (hregistry : s.Registry)
    (typeFilter : γ → Option (List String)) (modelDumpJson : TaskEvent → Except PyExc String)
    (client : γ) : (s.get typeFilter modelDumpJson client).Registry := by
  obtain hkept | ⟨queue, item, items, hstage, _, hget⟩ :=
    get_cases typeFilter modelDumpJson s client
  · rw [hkept]
    exact hregistry
  · have htaken : (s.takeItem queue item items).Registry := hregistry.of_kept rfl rfl rfl
    obtain ⟨rfl, hget⟩ | ⟨event, rfl, ⟨_, _, _, hget⟩ | ⟨_, _, _, hget⟩ | ⟨_, hget⟩⟩ := hget
    · rw [hget]
      exact htaken.stay hstage rfl (by simp)
    · rw [hget]
      exact (htaken.yieldText client _).stay hstage rfl (by simp)
    · rw [hget]
      exact htaken.stay hstage rfl (by simp)
    · rw [hget]
      exact htaken

variable [DecidableEq ι]

theorem Registry.step {s : EventStreams ι γ} (hregistry : s.Registry)
    (typeFilter : γ → Option (List String)) (modelDumpJson : TaskEvent → Except PyExc String)
    (turn : StreamTurn ι γ) : (s.step typeFilter modelDumpJson turn).Registry := by
  cases turn with
  | turnLoop loop => exact hregistry.of_kept rfl rfl rfl
  | subscribe => exact hregistry.subscribe
  | unsubscribe queue => exact hregistry.unsubscribe queue
  | emit thread event => exact hregistry.broadcast thread (some event)
  | shutdown thread => exact hregistry.broadcast thread none
  | advance thread => exact hregistry.advance thread
  | runCallback =>
      simp only [EventStreams.step, EventStreams.runCallback]
      split
      · exact hregistry.of_kept rfl rfl rfl
      · exact hregistry
  | start client => exact hregistry.start client
  | get client => exact hregistry.get typeFilter modelDumpJson client
  | timeOut client =>
      simp only [EventStreams.step, EventStreams.timeOut]
      cases hstage : s.stages client with
      | waiting queue =>
          dsimp only
          exact (hregistry.yieldText client _).stay hstage rfl (by simp)
      | _ => exact hregistry
  | resume client =>
      simp only [EventStreams.step, EventStreams.resume]
      cases hstage : s.stages client with
      | suspended queue =>
          dsimp only
          exact hregistry.stay hstage rfl (by simp)
      | _ => exact hregistry
  | close client =>
      simp only [EventStreams.step, EventStreams.close]
      cases hstage : s.stages client with
      | waiting queue | suspended queue =>
          dsimp only
          exact hregistry.stay hstage rfl (by simp)
      | _ => exact hregistry
  | leave client => exact hregistry.leave client

end Queues

section Delivery

variable [DecidableEq ι]

/-- What a thread has scheduled for a queue and what it still has to schedule is
what it owes the queue. -/
def Delivers (s : EventStreams ι γ) : Prop :=
  ∀ thread queue, ((s.received ++ s.callbacks).filter (·.between thread queue)).map (·.item) ++
    s.remaining thread queue = s.due thread queue

theorem Delivers.of_kept {s s' : EventStreams ι γ} (hdelivers : s.Delivers)
    (hscheduled : s'.received ++ s'.callbacks = s.received ++ s.callbacks)
    (hremaining : ∀ thread queue, s'.remaining thread queue = s.remaining thread queue)
    (hsnapshots : s'.snapshots = s.snapshots) : s'.Delivers := by
  intro thread queue
  rw [hscheduled, hremaining, due, hsnapshots]
  exact hdelivers thread queue

theorem remaining_self (s : EventStreams ι γ) (thread : ι) (broadcast : Option Broadcast)
    (queue : QueueId) : (s.setBroadcast thread broadcast).remaining thread queue =
      match broadcast with
      | some broadcast => broadcast.remaining queue
      | none => [] := by
  simp only [remaining, setBroadcast, Function.update_self]

theorem remaining_other (s : EventStreams ι γ) {thread other : ι} (hother : other ≠ thread)
    (broadcast : Option Broadcast) (queue : QueueId) :
    (s.setBroadcast thread broadcast).remaining other queue = s.remaining other queue := by
  simp only [remaining, setBroadcast, Function.update_of_ne hother]

/-- A broadcast that has nothing to schedule yet, or no more, changes nothing. -/
theorem Delivers.setBroadcast {s : EventStreams ι γ} (hdelivers : s.Delivers) {thread : ι}
    {broadcast : Option Broadcast} (hnothing : ∀ queue, s.remaining thread queue = [])
    (hstill : ∀ queue, (s.setBroadcast thread broadcast).remaining thread queue = []) :
    (s.setBroadcast thread broadcast).Delivers := by
  apply hdelivers.of_kept
  · rfl
  · intro other queue
    by_cases hother : other = thread
    · rw [hother, hstill, hnothing]
    · exact remaining_other s hother broadcast queue
  · rfl

theorem Delivers.broadcast {s : EventStreams ι γ} (hdelivers : s.Delivers) (thread : ι)
    (item : Option TaskEvent) : (s.broadcast thread item).Delivers := by
  unfold EventStreams.broadcast
  split
  · exact hdelivers
  · next hidle =>
      split
      · apply hdelivers.setBroadcast
        · intro queue
          rw [remaining, hidle]
        · intro queue
          rw [remaining_self]
          rfl
      · exact hdelivers

/-- A queue is at most once in the copy. -/
theorem filter_copy {subs : List QueueId} (hnodup : subs.Nodup) (item : Option TaskEvent)
    (queue : QueueId) :
    ((subs.filter fun q => q = queue).map fun _ => item) = if queue ∈ subs then [item] else [] := by
  rw [List.filter_eq, List.map_replicate, hnodup.count]
  split <;> rfl

/-- The copy: the thread now owes the item to each queue in it. -/
theorem Delivers.copy {s : EventStreams ι γ} (hdelivers : s.Delivers)
    (hnodup : s.subscribers.Nodup) {thread : ι} {item : Option TaskEvent}
    (hentered : s.broadcasts thread = some (.entered item)) :
    (s.advance thread).Delivers := by
  have hadvance : s.advance thread =
      { s.setBroadcast thread (some (.scheduling item s.subscribers)) with
        snapshots := s.snapshots ++ [⟨thread, item, s.subscribers⟩] } := by
    simp only [EventStreams.advance, hentered]
  rw [hadvance]
  intro other queue
  have hbefore := hdelivers other queue
  have hdue : ∀ copy : Subscribed ι, { s with snapshots := s.snapshots ++ [copy] }.due other queue =
      s.due other queue ++
        if copy.thread = other ∧ queue ∈ copy.subs then [copy.item] else [] := by
    intro copy
    simp only [due, List.filter_append, List.map_append]
    by_cases howed : copy.thread = other ∧ queue ∈ copy.subs <;> simp [howed]
  change _ ++ (s.setBroadcast thread _).remaining other queue =
    { s with snapshots := s.snapshots ++ [_] }.due other queue
  rw [hdue, ← hbefore, List.append_assoc]
  congr 1
  by_cases hother : other = thread
  · subst hother
    rw [remaining_self, remaining, hentered]
    simp only [Broadcast.remaining, filter_copy hnodup, true_and, List.nil_append]
  · rw [remaining_other s hother]
    simp [Ne.symm hother]

/-- One call: an item that was still to be scheduled is scheduled. -/
theorem Delivers.schedule {s : EventStreams ι γ} (hdelivers : s.Delivers)
    (hloop : s.loop = .running) {thread : ι} {item : Option TaskEvent} {first : QueueId}
    {subs : List QueueId}
    (hscheduling : s.broadcasts thread = some (.scheduling item (first :: subs))) :
    (s.advance thread).Delivers := by
  simp only [EventStreams.advance, hscheduling, callSoonThreadsafe_running hloop]
  intro other queue
  have hbefore := hdelivers other queue
  change ((s.received ++ (s.callbacks ++ [_])).filter _).map _ ++ _ = s.due other queue
  rw [← hbefore, ← List.append_assoc, List.filter_append, List.map_append, List.append_assoc]
  congr 1
  by_cases hother : other = thread
  · subst hother
    rw [remaining_self, remaining, hscheduling]
    by_cases hqueue : first = queue <;> simp [Broadcast.remaining, Callback.between, hqueue]
  · rw [remaining_other _ hother]
    simp [Callback.between, Ne.symm hother, remaining]

theorem Delivers.advance {s : EventStreams ι γ} (hdelivers : s.Delivers)
    (hnodup : s.subscribers.Nodup) (hloop : s.loop = .running) (thread : ι) :
    (s.advance thread).Delivers := by
  cases hbroadcast : s.broadcasts thread with
  | none =>
      simp only [EventStreams.advance, hbroadcast]
      exact hdelivers
  | some broadcast =>
      cases broadcast with
      | entered item => exact hdelivers.copy hnodup hbroadcast
      | scheduling item subs =>
          cases subs with
          | cons first subs => exact hdelivers.schedule hloop hbroadcast
          | nil =>
              simp only [EventStreams.advance, hbroadcast]
              apply hdelivers.setBroadcast
              · intro queue
                rw [remaining, hbroadcast]
                rfl
              · exact fun queue => remaining_self s thread none queue

theorem Delivers.runCallback {s : EventStreams ι γ} (hdelivers : s.Delivers) :
    s.runCallback.Delivers := by
  unfold EventStreams.runCallback
  split
  · next callback callbacks _ hcallbacks =>
      apply hdelivers.of_kept
      · rw [hcallbacks, List.append_assoc]
        rfl
      · exact fun _ _ => rfl
      · rfl
  · exact hdelivers

end Delivery

end EventStreams

end Conductor
