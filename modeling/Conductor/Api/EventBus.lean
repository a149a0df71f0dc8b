/-
The event bus of the API and the streams it feeds.  Threads broadcast while
clients come and go: a broadcast copies the list of subscribers under the lock,
then schedules one put for each queue of the copy; the loop runs the puts in the
order in which they were scheduled; each client takes from its own queue.
-/
import Mathlib.Data.List.ReduceOption
import Mathlib.Logic.Function.Basic
import Conductor.Interfaces

namespace Conductor

/-- The identity of an `asyncio.Queue`. -/
abbrev QueueId := Nat

/-- What has become of the loop of the bus. -/
inductive EventLoop where
  | unattached
  | running
  | stopped
  | closed
deriving DecidableEq, Repr

/-- How far a thread is in `emit` or `shutdown`.  The item is the event, or the
sentinel `none`. -/
inductive Broadcast where
  | entered (item : Option TaskEvent)
  | scheduling (item : Option TaskEvent) (subs : List QueueId)

/-- A `put_nowait` that was handed to the loop.  The thread that did so is noted
for the statements; the code knows queue and item only. -/
structure Callback (ι : Type*) where
  thread : ι
  queue : QueueId
  item : Option TaskEvent

/-- A copy of the list of subscribers that a broadcast took. -/
structure Subscribed (ι : Type*) where
  thread : ι
  item : Option TaskEvent
  subs : List QueueId

/-- Where a client's generator stands. -/
inductive GeneratorStage where
  | created
  | waiting (queue : QueueId)
  | suspended (queue : QueueId)
  | leaving (queue : QueueId)
  | finished (queue : QueueId)
deriving DecidableEq, Repr

def GeneratorStage.queue : GeneratorStage → Option QueueId
  | created => none
  | waiting queue | suspended queue | leaving queue | finished queue => some queue

/-- The bus with its loop, the threads that broadcast and the generators of the
clients.  The last three fields record what has happened; no step reads them. -/
structure EventStreams (ι γ : Type*) where
  loop : EventLoop
  subscribers : List QueueId
  /-- The next new queue. -/
  fresh : QueueId
  callbacks : List (Callback ι)
  queues : QueueId → List (Option TaskEvent)
  broadcasts : ι → Option Broadcast
  stages : γ → GeneratorStage
  yielded : γ → List String
  snapshots : List (Subscribed ι)
  received : List (Callback ι)
  taken : QueueId → List (Option TaskEvent)

def heartbeat : String := ": heartbeat\n\n"

/-- The frame of an event and its JSON. -/
def eventFrame (event : TaskEvent) (json : String) : String :=
  "event: " ++ event.eventType.value ++ "\ndata: " ++ json ++ "\n\n"

/-- The type filter lets the event pass. -/
def passesFilter (typeFilter : Option (List String)) (event : TaskEvent) : Bool :=
  match typeFilter with
  | some types => types.contains event.eventType.value
  | none => true

namespace EventStreams

variable {ι γ : Type*} [DecidableEq ι] [DecidableEq γ]

/-- The loop is attached and runs; nothing has happened. -/
def attached : EventStreams ι γ where
  loop := .running
  subscribers := []
  fresh := 0
  callbacks := []
  queues := fun _ => []
  broadcasts := fun _ => none
  stages := fun _ => .created
  yielded := fun _ => []
  snapshots := []
  received := []
  taken := fun _ => []

/-- The new queue is the one that was fresh. -/
def subscribe (s : EventStreams ι γ) : EventStreams ι γ :=
  { s with subscribers := s.subscribers ++ [s.fresh], fresh := s.fresh + 1 }

/-- A queue that is not there is left alone. -/
def unsubscribe (s : EventStreams ι γ) (queue : QueueId) : EventStreams ι γ :=
  { s with subscribers := s.subscribers.erase queue }

def setBroadcast (s : EventStreams ι γ) (thread : ι) (broadcast : Option Broadcast) :
    EventStreams ι γ :=
  { s with broadcasts := Function.update s.broadcasts thread broadcast }

/-- A thread calls `emit` or `shutdown`; both return at once unless the loop runs.
A thread that is still in such a call makes no other. -/
def broadcast (s : EventStreams ι γ) (thread : ι) (item : Option TaskEvent) : EventStreams ι γ :=
  match s.broadcasts thread with
  | some _ => s
  | none =>
      if s.loop = .running then s.setBroadcast thread (some (.entered item)) else s

def emit (s : EventStreams ι γ) (thread : ι) (event : TaskEvent) : EventStreams ι γ :=
  s.broadcast thread (some event)

def shutdown (s : EventStreams ι γ) (thread : ι) : EventStreams ι γ :=
  s.broadcast thread none

/-- A closed loop raises `RuntimeError`, which the caller ignores. -/
def callSoonThreadsafe (s : EventStreams ι γ) (callback : Callback ι) : EventStreams ι γ :=
  if s.loop = .closed then s else { s with callbacks := s.callbacks ++ [callback] }

/-- The next step of a broadcast: the copy under the lock, one call for each
queue of the copy, the return. -/
def advance (s : EventStreams ι γ) (thread : ι) : EventStreams ι γ :=
  match s.broadcasts thread with
  | none => s
  | some (.entered item) =>
      { s.setBroadcast thread (some (.scheduling item s.subscribers)) with
        snapshots := s.snapshots ++ [⟨thread, item, s.subscribers⟩] }
  | some (.scheduling item (queue :: subs)) =>
      (s.callSoonThreadsafe ⟨thread, queue, item⟩).setBroadcast thread
        (some (.scheduling item subs))
  | some (.scheduling _ []) => s.setBroadcast thread none

/-- The loop runs the first of its callbacks. -/
def runCallback (s : EventStreams ι γ) : EventStreams ι γ :=
  match s.loop, s.callbacks with
  | .running, callback :: callbacks =>
      { s with
        callbacks := callbacks
        queues := Function.update s.queues callback.queue
          (s.queues callback.queue ++ [callback.item])
        received := s.received ++ [callback] }
  | _, _ => s

def stand (s : EventStreams ι γ) (client : γ) (stage : GeneratorStage) : EventStreams ι γ :=
  { s with stages := Function.update s.stages client stage }

def yieldText (s : EventStreams ι γ) (client : γ) (text : String) : EventStreams ι γ :=
  { s with yielded := Function.update s.yielded client (s.yielded client ++ [text]) }

/-- The generator starts with a queue of its own. -/
def start (s : EventStreams ι γ) (client : γ) : EventStreams ι γ :=
  match s.stages client with
  | .created => s.subscribe.stand client (.waiting s.fresh)
  | _ => s

def takeItem (s : EventStreams ι γ) (queue : QueueId) (item : Option TaskEvent)
    (items : List (Option TaskEvent)) : EventStreams ι γ :=
  { s with
    queues := Function.update s.queues queue items
    taken := Function.update s.taken queue (s.taken queue ++ [item]) }

/-- The wait ends with the first item of the queue.  `modelDumpJson` stands for the
method of the validation library; what it raises ends the generator. -/
def get (typeFilter : γ → Option (List String)) (modelDumpJson : TaskEvent → Except PyExc String)
    (s : EventStreams ι γ) (client : γ) : EventStreams ι γ :=
  match s.stages client with
  | .waiting queue =>
      match s.queues queue with
      | [] => s
      | none :: items => (s.takeItem queue none items).stand client (.leaving queue)
      | some event :: items =>
          if passesFilter (typeFilter client) event then
            match modelDumpJson event with
            | .ok json =>
                ((s.takeItem queue (some event) items).yieldText client
                  (eventFrame event json)).stand client (.suspended queue)
            | .error _ => (s.takeItem queue (some event) items).stand client (.leaving queue)
          else s.takeItem queue (some event) items
  | _ => s

/-- The wait times out. -/
def timeOut (s : EventStreams ι γ) (client : γ) : EventStreams ι γ :=
  match s.stages client with
  | .waiting queue => (s.yieldText client heartbeat).stand client (.suspended queue)
  | _ => s

/-- The server asks for the next frame. -/
def resume (s : EventStreams ι γ) (client : γ) : EventStreams ι γ :=
  match s.stages client with
  | .suspended queue => s.stand client (.waiting queue)
  | _ => s

/-- The client has gone: the generator is cancelled or closed. -/
def close (s : EventStreams ι γ) (client : γ) : EventStreams ι γ :=
  match s.stages client with
  | .waiting queue | .suspended queue => s.stand client (.leaving queue)
  | _ => s

/-- The `finally` block. -/
def leave (s : EventStreams ι γ) (client : γ) : EventStreams ι γ :=
  match s.stages client with
  | .leaving queue => (s.unsubscribe queue).stand client (.finished queue)
  | _ => s

end EventStreams

/-- One atomic step.  What is not possible in a state leaves it as it is. -/
inductive StreamTurn (ι γ : Type*) where
  | turnLoop (loop : EventLoop)
  | subscribe
  | unsubscribe (queue : QueueId)
  | emit (thread : ι) (event : TaskEvent)
  | shutdown (thread : ι)
  | advance (thread : ι)
  | runCallback
  | start (client : γ)
  | get (client : γ)
  | timeOut (client : γ)
  | resume (client : γ)
  | close (client : γ)
  | leave (client : γ)

/-- The turn does not touch the loop. -/
def StreamTurn.keepsLoop {ι γ : Type*} : StreamTurn ι γ → Bool
  | turnLoop _ => false
  | _ => true

namespace EventStreams

variable {ι γ : Type*} [DecidableEq ι] [DecidableEq γ]

def step (typeFilter : γ → Option (List String)) (modelDumpJson : TaskEvent → Except PyExc String)
    (s : EventStreams ι γ) : StreamTurn ι γ → EventStreams ι γ
  | .turnLoop loop => { s with loop := loop }
  | .subscribe => s.subscribe
  | .unsubscribe queue => s.unsubscribe queue
  | .emit thread event => s.emit thread event
  | .shutdown thread => s.shutdown thread
  | .advance thread => s.advance thread
  | .runCallback => s.runCallback
  | .start client => s.start client
  | .get client => s.get typeFilter modelDumpJson client
  | .timeOut client => s.timeOut client
  | .resume client => s.resume client
  | .close client => s.close client
  | .leave client => s.leave client

/-- The state after these turns of threads, loop and clients. -/
def run (typeFilter : γ → Option (List String)) (modelDumpJson : TaskEvent → Except PyExc String)
    (turns : List (StreamTurn ι γ)) : EventStreams ι γ :=
  turns.foldl (step typeFilter modelDumpJson) attached

end EventStreams

end Conductor
