/-
From the frames to what a browser makes of them.  Whatever has arrived of the text
that a client was given, the messages in it are the events that were delivered and
asked for, and heartbeats are no messages.
-/
import Conductor.Api.EventRuns
import Conductor.Python.Text
import Conductor.Text.EventStream

namespace Conductor

open EventStream

/-- The types that the query asks for, as `stream_events` reads them. -/
def eventTypeFilter : Option String → Option (List String)
  | none => none
  | some types =>
      if types = "" then none
      else some (((types.toList.splitOn ',').map stripped).filterMap fun piece =>
        if piece = [] then none else some (String.ofList piece))

/-- The query asks for the event: it names no types, or the event is of one of them. -/
def AskedFor (types : Option String) (event : TaskEvent) : Prop :=
  types.getD "" = "" ∨
    event.eventType.value.toList ∈ ((types.getD "").toList.splitOn ',').map stripped

instance (types : Option String) (event : TaskEvent) : Decidable (AskedFor types event) :=
  inferInstanceAs (Decidable (_ ∨ _))

theorem EventType.value_ne_empty (eventType : EventType) : eventType.value ≠ "" := by
  cases eventType <;> decide

theorem EventType.value_unbroken (eventType : EventType) : Unbroken eventType.value.toList := by
  cases eventType <;> decide

theorem passesFilter_eventTypeFilter (types : Option String) (event : TaskEvent) :
    passesFilter (eventTypeFilter types) event = decide (AskedFor types event) := by
  cases types with
  | none => rfl
  | some types =>
      by_cases hempty : types = ""
      · subst hempty
        rfl
      · have hvalue : event.eventType.value.toList ≠ [] := by
          simpa using event.eventType.value_ne_empty
        rw [eventTypeFilter, if_neg hempty, passesFilter, Bool.eq_iff_iff, List.contains_iff_mem,
          decide_eq_true_iff, AskedFor, Option.getD_some, List.mem_filterMap]
        constructor
        · rintro ⟨piece, hpiece, hvalue⟩
          split at hvalue
          · cases hvalue
          · rw [← Option.some.inj hvalue, String.toList_ofList]
            exact .inr hpiece
        · rintro (hnone | hpiece)
          · exact absurd hnone hempty
          · refine ⟨_, hpiece, ?_⟩
            rw [if_neg hvalue, String.ofList_toList]

/-- The message that a browser is to see of an event and its JSON. -/
def eventMessage (event : TaskEvent) (json : String) : Message := ⟨event.eventType.value, json⟩

theorem eventFrame_text (event : TaskEvent) (json : String) :
    (eventFrame event json).toList = (eventMessage event json).text := by
  simp [eventFrame, eventMessage, Message.text, fieldLine]

theorem heartbeat_text : heartbeat.toList = comment " heartbeat".toList := by
  decide

/-- A stream is one of chunks, whose messages are the events of the frames. -/
theorem exists_chunks {texts : List String} {events : List (TaskEvent × String)}
    (hjson : ∀ item ∈ events, Unbroken item.2.toList)
    (hframes : (texts.filter fun text => text ≠ heartbeat) =
      events.map fun item => eventFrame item.1 item.2) :
    ∃ chunks : List Chunk, (∀ chunk ∈ chunks, chunk.Formed) ∧
      texts.flatMap String.toList = chunks.flatMap Chunk.text ∧
      chunks.filterMap Chunk.message? = events.map fun item => eventMessage item.1 item.2 := by
  induction texts generalizing events with
  | nil =>
      refine ⟨[], by simp, rfl, ?_⟩
      rw [List.filter_nil] at hframes
      rw [List.map_eq_nil_iff.mp hframes.symm]
      rfl
  | cons text texts ih =>
      by_cases hbeat : text = heartbeat
      · subst hbeat
        rw [List.filter_cons_of_neg (by simp)] at hframes
        obtain ⟨chunks, hformed, htext, hmessages⟩ := ih hjson hframes
        refine ⟨.comment " heartbeat".toList :: chunks, ?_, ?_, hmessages⟩
        · rw [List.forall_mem_cons]
          exact ⟨(by decide : Unbroken " heartbeat".toList), hformed⟩
        · rw [List.flatMap_cons, List.flatMap_cons, heartbeat_text, htext]
          rfl
      · rw [List.filter_cons_of_pos (by simpa using hbeat)] at hframes
        cases events with
        | nil => cases hframes
        | cons item events =>
            obtain ⟨event, json⟩ := item
            obtain ⟨rfl, hrest⟩ := List.cons.inj hframes
            rw [List.forall_mem_cons] at hjson
            obtain ⟨chunks, hformed, htext, hmessages⟩ := ih hjson.2 hrest
            refine ⟨.message (eventMessage event json) :: chunks, ?_, ?_, ?_⟩
            · rw [List.forall_mem_cons]
              exact ⟨⟨event.eventType.value_ne_empty, event.eventType.value_unbroken, hjson.1⟩,
                hformed⟩
            · rw [List.flatMap_cons, List.flatMap_cons, eventFrame_text, htext]
              rfl
            · exact congrArg (List.cons _) hmessages

namespace EventStreams

variable {ι γ : Type*}

/-- All that the client was given. -/
def text (s : EventStreams ι γ) (client : γ) : List Char :=
  (s.yielded client).flatMap String.toList

/-- What a browser sees when this much has arrived. -/
def seen (arrived : List Char) : List Message := (Reader.start.read arrived).messages

variable [DecidableEq ι] [DecidableEq γ]

/-- A browser that has opened a stream sees the events that were delivered to it and
that it has asked for, up to one that cannot be dumped, with their types and their
data, once and in order, and of what has arrived in part it sees the first of
them. -/
theorem browser_sees_events (types : γ → Option String)
    {modelDumpJson : TaskEvent → Except PyExc String}
    (hjson : ∀ event json, modelDumpJson event = .ok json → Unbroken json.toList)
    (turns : List (StreamTurn ι γ)) (hkeeps : ∀ turn ∈ turns, turn.keepsLoop = true) :
    let s := run (fun client => eventTypeFilter (types client)) modelDumpJson turns
    ∀ client queue, (s.stages client).queue = some queue →
      seen (s.text client) = (dumpedUpTo modelDumpJson ((beforeSentinel (s.taken queue)).filter
          (AskedFor (types client)))).map (fun item => eventMessage item.1 item.2) ∧
        (∀ arrived, arrived <+: s.text client → seen arrived <+: seen (s.text client)) ∧
        (.close client ∉ turns →
          s.stages client = .leaving queue ∨ s.stages client = .finished queue →
            seen (s.text client) = (dumpedUpTo modelDumpJson
              ((beforeSentinel (s.receivedBy queue)).filter (AskedFor (types client)))).map
                fun item => eventMessage item.1 item.2) := by
  intro s client queue hqueue
  have hintact : s.Intact _ modelDumpJson := intact_run hkeeps
  have hframes := hintact.streamed.given client queue hqueue
  have hshown (items : List (Option TaskEvent)) :
      shownItems (eventTypeFilter (types client)) modelDumpJson items =
        dumpedUpTo modelDumpJson ((beforeSentinel items).filter (AskedFor (types client))) := by
    rw [shownItems, funext (passesFilter_eventTypeFilter _)]
  obtain ⟨chunks, hformed, htext, hmessages⟩ := exists_chunks (fun item hitem =>
    hjson item.1 item.2 (mem_dumpedUpTo hitem)) hframes
  have hseen : seen (s.text client) = (shownItems (eventTypeFilter (types client)) modelDumpJson
      (s.taken queue)).map fun item => eventMessage item.1 item.2 := by
    rw [seen, text, htext, Reader.rests_start.read_chunks hformed]
    exact hmessages
  refine ⟨by rw [hseen, hshown], fun arrived hinitial => Reader.messages_prefix hinitial, ?_⟩
  intro hclose hstage
  have hends : StreamEnds _ modelDumpJson (s.taken queue) := stoppedAtEnd_run hclose queue hstage
  rw [hseen, ← shownItems_append_of_ends hends (s.queues queue), hintact.inOrder queue, hshown]

/-- What the validation library writes for the event of a task that has started. -/
def startedJson : String :=
  "\x7b\"event_type\":\"task_started\",\"task_id\":\"t1\",\"task_name\":\"echo\"," ++
    "\"capability\":\"echo\",\"status\":\"running\",\"attempt\":1," ++
    "\"timestamp\":\"0001-01-01T00:00:00Z\",\"workflow_id\":null,\"error\":null," ++
    "\"metadata\":\x7b\x7d\x7d"

/-- The stream ends, and a browser that has asked for two types has seen the event. -/
theorem browser_sees_started :
    seen ((run (fun _ => eventTypeFilter (some "task_started, task_failed"))
      (fun _ => .ok startedJson) (closingTurns startedEvent)).text ()) =
        [⟨"task_started", startedJson⟩] := by
  have hkeeps : ∀ turn ∈ closingTurns startedEvent, turn.keepsLoop = true := by
    simp [closingTurns, StreamTurn.keepsLoop]
  have hunbroken : Unbroken startedJson.toList := by decide +kernel
  have hjson : ∀ (_ : TaskEvent) json, Except.ok startedJson = (.ok json : Except PyExc String) →
      Unbroken json.toList := by
    intro _ json hok
    cases hok
    exact hunbroken
  have hfinished : (run (fun _ => eventTypeFilter (some "task_started, task_failed"))
      (fun _ => .ok startedJson) (closingTurns startedEvent)).stages () = .finished 0 := by
    rfl
  have hsees := browser_sees_events (fun _ => some "task_started, task_failed") hjson
    (closingTurns startedEvent) hkeeps () 0 (by rw [hfinished]; rfl)
  have hread := hsees.2.2 (by simp [closingTurns]) (.inr hfinished)
  rw [hread]
  rfl

end EventStreams

end Conductor
