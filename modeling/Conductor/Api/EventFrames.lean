/-
From the queues to the frames.  What a client has taken, followed by what lies
in its queue, is what the queue has received; what it was given is what it took
before the first sentinel and its filter let pass, up to an event that cannot be
dumped.
-/
import Conductor.Api.EventDelivery

namespace Conductor

/-- The events before the first sentinel. -/
def beforeSentinel : List (Option TaskEvent) → List TaskEvent
  | some event :: items => event :: beforeSentinel items
  | _ => []

/-- The events with their JSON, up to the first one that cannot be dumped. -/
def dumpedUpTo (modelDumpJson : TaskEvent → Except PyExc String) :
    List TaskEvent → List (TaskEvent × String)
  | [] => []
  | event :: events =>
      match modelDumpJson event with
      | .ok json => (event, json) :: dumpedUpTo modelDumpJson events
      | .error _ => []

/-- What a client is shown of the items of its queue. -/
def shownItems (typeFilter : Option (List String)) (modelDumpJson : TaskEvent → Except PyExc String)
    (items : List (Option TaskEvent)) : List (TaskEvent × String) :=
  dumpedUpTo modelDumpJson ((beforeSentinel items).filter (passesFilter typeFilter))

/-- A stream ends at these items: the sentinel is there, or an event that is to be
shown and cannot be dumped. -/
def StreamEnds (typeFilter : Option (List String)) (modelDumpJson : TaskEvent → Except PyExc String)
    (items : List (Option TaskEvent)) : Prop :=
  none ∈ items ∨ ∃ event ∈ (beforeSentinel items).filter (passesFilter typeFilter),
    ∃ e, modelDumpJson event = .error e

namespace EventStreams

variable {ι γ : Type*}

/-- The frames of events that the client was given. -/
def frames (s : EventStreams ι γ) (client : γ) : List String :=
  (s.yielded client).filter fun text => text ≠ heartbeat

/-- What a client took and what lies in its queue is what the queue received. -/
def InOrder (s : EventStreams ι γ) : Prop :=
  ∀ queue, s.taken queue ++ s.queues queue = s.receivedBy queue

theorem InOrder.of_kept {s s' : EventStreams ι γ} (hinOrder : s.InOrder)
    (htaken : s'.taken = s.taken) (hqueues : s'.queues = s.queues)
    (hreceived : s'.received = s.received) : s'.InOrder := by
  intro queue
  rw [htaken, hqueues, receivedBy, hreceived]
  exact hinOrder queue

theorem InOrder.takeItem {s : EventStreams ι γ} (hinOrder : s.InOrder) {queue : QueueId}
    {item : Option TaskEvent} {items : List (Option TaskEvent)}
    (hqueue : s.queues queue = item :: items) : (s.takeItem queue item items).InOrder := by
  intro other
  have hbefore := hinOrder other
  by_cases hother : other = queue
  · subst hother
    rw [hqueue] at hbefore
    simpa [EventStreams.takeItem, receivedBy] using hbefore
  · simpa [EventStreams.takeItem, receivedBy, hother] using hbefore

theorem InOrder.runCallback {s : EventStreams ι γ} (hinOrder : s.InOrder) :
    s.runCallback.InOrder := by
  unfold EventStreams.runCallback
  split
  · next callback callbacks _ _ =>
      intro other
      have hbefore := hinOrder other
      simp only [receivedBy, List.filter_append, List.map_append] at hbefore ⊢
      rw [← hbefore]
      by_cases hother : callback.queue = other
      · subst hother
        simp
      · simp [hother, Ne.symm hother]
  · exact hinOrder

theorem eventFrame_ne_heartbeat (event : TaskEvent) (json : String) :
    eventFrame event json ≠ heartbeat := by
  intro heq
  have hhead := congrArg (fun text : String => text.toList.head?) heq
  simp [eventFrame, heartbeat] at hhead

/-- What follows the sentinel does not count. -/
theorem beforeSentinel_append {items : List (Option TaskEvent)} (hnone : none ∈ items)
    (more : List (Option TaskEvent)) : beforeSentinel (items ++ more) = beforeSentinel items := by
  induction items with
  | nil => cases hnone
  | cons item items ih =>
      cases item with
      | none => rfl
      | some first =>
          have htail : none ∈ items := by simpa using hnone
          exact congrArg (first :: ·) (ih htail)

theorem beforeSentinel_append_of_not_mem {items : List (Option TaskEvent)} (hnone : none ∉ items)
    (more : List (Option TaskEvent)) :
    beforeSentinel (items ++ more) = beforeSentinel items ++ beforeSentinel more := by
  induction items with
  | nil => rfl
  | cons item items ih =>
      rw [List.mem_cons, not_or] at hnone
      cases item with
      | none => exact absurd rfl hnone.1
      | some first => exact congrArg (first :: ·) (ih hnone.2)

section Shown

variable {modelDumpJson : TaskEvent → Except PyExc String}

theorem dumpedUpTo_append {events : List TaskEvent}
    (hdumps : ¬∃ event ∈ events, ∃ e, modelDumpJson event = .error e) (more : List TaskEvent) :
    dumpedUpTo modelDumpJson (events ++ more) =
      dumpedUpTo modelDumpJson events ++ dumpedUpTo modelDumpJson more := by
  induction events with
  | nil => rfl
  | cons event events ih =>
      rw [List.cons_append, dumpedUpTo, dumpedUpTo]
      cases hjson : modelDumpJson event with
      | error e => exact absurd ⟨event, List.mem_cons_self, e, hjson⟩ hdumps
      | ok json =>
          have hrest := ih fun ⟨other, hother, hfails⟩ =>
            hdumps ⟨other, List.mem_cons_of_mem _ hother, hfails⟩
          exact congrArg (List.cons (event, json)) hrest

theorem mem_dumpedUpTo {events : List TaskEvent} {item : TaskEvent × String}
    (hitem : item ∈ dumpedUpTo modelDumpJson events) : modelDumpJson item.1 = .ok item.2 := by
  induction events with
  | nil => cases hitem
  | cons event events ih =>
      rw [dumpedUpTo] at hitem
      cases hjson : modelDumpJson event with
      | error e =>
          rw [hjson] at hitem
          cases hitem
      | ok json =>
          rw [hjson] at hitem
          cases hitem with
          | head => exact hjson
          | tail _ hitem => exact ih hitem

/-- What follows an event that cannot be dumped does not count. -/
theorem dumpedUpTo_append_of_error {events : List TaskEvent}
    (hfails : ∃ event ∈ events, ∃ e, modelDumpJson event = .error e) (more : List TaskEvent) :
    dumpedUpTo modelDumpJson (events ++ more) = dumpedUpTo modelDumpJson events := by
  induction events with
  | nil =>
      obtain ⟨event, hmem, -⟩ := hfails
      cases hmem
  | cons event events ih =>
      rw [List.cons_append, dumpedUpTo, dumpedUpTo]
      cases hjson : modelDumpJson event with
      | error e => rfl
      | ok json =>
          obtain ⟨other, hother, e, hfails⟩ := hfails
          cases hother with
          | head => cases hjson.symm.trans hfails
          | tail _ hother =>
              exact congrArg (List.cons (event, json)) (ih ⟨other, hother, e, hfails⟩)

variable {typeFilter : Option (List String)} {items : List (Option TaskEvent)}

/-- What is taken after the end does not show. -/
theorem shownItems_append_of_ends (hends : StreamEnds typeFilter modelDumpJson items)
    (more : List (Option TaskEvent)) :
    shownItems typeFilter modelDumpJson (items ++ more) =
      shownItems typeFilter modelDumpJson items := by
  by_cases hnone : none ∈ items
  · rw [shownItems, beforeSentinel_append hnone, shownItems]
  · rw [shownItems, beforeSentinel_append_of_not_mem hnone, List.filter_append,
      dumpedUpTo_append_of_error (hends.resolve_left hnone), shownItems]

theorem shownItems_append (hends : ¬StreamEnds typeFilter modelDumpJson items)
    (more : List (Option TaskEvent)) :
    shownItems typeFilter modelDumpJson (items ++ more) =
      shownItems typeFilter modelDumpJson items ++ shownItems typeFilter modelDumpJson more := by
  rw [StreamEnds, not_or] at hends
  rw [shownItems, beforeSentinel_append_of_not_mem hends.1, List.filter_append,
    dumpedUpTo_append hends.2, shownItems, shownItems]

theorem streamEnds_append {more : List (Option TaskEvent)} :
    StreamEnds typeFilter modelDumpJson (items ++ more) ↔
      StreamEnds typeFilter modelDumpJson items ∨ StreamEnds typeFilter modelDumpJson more := by
  by_cases hnone : none ∈ items
  · exact iff_of_true (.inl (List.mem_append_left _ hnone)) (.inl (.inl hnone))
  · rw [StreamEnds, StreamEnds, StreamEnds, beforeSentinel_append_of_not_mem hnone,
      List.filter_append]
    simp only [List.mem_append, hnone, false_or, or_and_right, exists_or]
    exact or_left_comm

theorem shownItems_nil : shownItems typeFilter modelDumpJson [] = [] := rfl

theorem not_streamEnds_nil : ¬StreamEnds typeFilter modelDumpJson [] := by
  simp [StreamEnds, beforeSentinel]

theorem streamEnds_event {event : TaskEvent} : StreamEnds typeFilter modelDumpJson [some event] ↔
    passesFilter typeFilter event = true ∧ ∃ e, modelDumpJson event = .error e := by
  simp [StreamEnds, beforeSentinel]

end Shown

/-- Each client was given the frames of what it is to be shown of the items that it
took from its queue, and at their end it stops. -/
structure Streamed (typeFilter : γ → Option (List String))
    (modelDumpJson : TaskEvent → Except PyExc String) (s : EventStreams ι γ) : Prop where
  given : ∀ client queue, (s.stages client).queue = some queue → s.frames client =
    (shownItems (typeFilter client) modelDumpJson (s.taken queue)).map
      fun item => eventFrame item.1 item.2
  stopped : ∀ client queue, (s.stages client).queue = some queue →
    StreamEnds (typeFilter client) modelDumpJson (s.taken queue) →
      s.stages client = .leaving queue ∨ s.stages client = .finished queue
  silent : ∀ client, s.stages client = .created → s.yielded client = []
  unread : ∀ queue, s.fresh ≤ queue → s.taken queue = []

section Frames

variable {typeFilter : γ → Option (List String)}
  {modelDumpJson : TaskEvent → Except PyExc String} {s : EventStreams ι γ}

theorem Streamed.of_kept {s' : EventStreams ι γ} (hstreamed : s.Streamed typeFilter modelDumpJson)
    (hstages : s'.stages = s.stages) (htaken : s'.taken = s.taken)
    (hyielded : s'.yielded = s.yielded) (hfresh : s.fresh ≤ s'.fresh) :
    s'.Streamed typeFilter modelDumpJson := by
  obtain ⟨hgiven, hstopped, hsilent, hunread⟩ := hstreamed
  constructor
  · simpa only [frames, hstages, htaken, hyielded] using hgiven
  · simpa only [hstages, htaken] using hstopped
  · simpa only [hstages, hyielded] using hsilent
  · intro queue hle
    rw [htaken]
    exact hunread queue (hfresh.trans hle)

/-- If the client has stopped, it took items at which its stream ends. -/
def StoppedAtEnd (typeFilter : γ → Option (List String))
    (modelDumpJson : TaskEvent → Except PyExc String) (client : γ) (s : EventStreams ι γ) : Prop :=
  ∀ queue, s.stages client = .leaving queue ∨ s.stages client = .finished queue →
    StreamEnds (typeFilter client) modelDumpJson (s.taken queue)

theorem StoppedAtEnd.of_kept {s' : EventStreams ι γ} {client : γ}
    (hstopped : StoppedAtEnd typeFilter modelDumpJson client s)
    (hstage : s'.stages client = s.stages client)
    (htaken : ∀ queue, s.taken queue <+: s'.taken queue) :
    StoppedAtEnd typeFilter modelDumpJson client s' := by
  intro queue hstage'
  rw [hstage] at hstage'
  obtain ⟨more, hmore⟩ := htaken queue
  rw [← hmore]
  exact streamEnds_append.mpr (.inl (hstopped queue hstage'))

variable [DecidableEq γ]

theorem frames_yieldText (client : γ) (text : String) :
    (s.yieldText client text).frames client =
      s.frames client ++ if text = heartbeat then [] else [text] := by
  simp only [frames, yieldText, Function.update_self, List.filter_append]
  by_cases hbeat : text = heartbeat <;> simp [hbeat]

theorem frames_yieldText_other {client other : γ} (hother : other ≠ client) (text : String) :
    (s.yieldText client text).frames other = s.frames other := by
  simp only [frames, yieldText, Function.update_of_ne hother]

theorem StoppedAtEnd.stand {client : γ}
    (hstopped : StoppedAtEnd typeFilter modelDumpJson client s) (other : γ) {stage : GeneratorStage}
    (hnew : other = client → ∀ queue, stage = .leaving queue ∨ stage = .finished queue →
      StreamEnds (typeFilter client) modelDumpJson (s.taken queue)) :
    StoppedAtEnd typeFilter modelDumpJson client (s.stand other stage) := by
  intro queue hstage
  by_cases hother : other = client
  · subst hother
    simp only [EventStreams.stand, Function.update_self] at hstage
    exact hnew rfl queue hstage
  · simp only [EventStreams.stand, Function.update_of_ne (Ne.symm hother)] at hstage
    exact hstopped queue hstage

theorem StoppedAtEnd.get {client : γ} (hstopped : StoppedAtEnd typeFilter modelDumpJson client s)
    (other : γ) :
    StoppedAtEnd typeFilter modelDumpJson client (s.get typeFilter modelDumpJson other) := by
  obtain hkept | ⟨queue, item, items, _, _, hget⟩ := get_cases typeFilter modelDumpJson s other
  · rw [hkept]
    exact hstopped
  · have htaken : StoppedAtEnd typeFilter modelDumpJson client (s.takeItem queue item items) := by
      apply hstopped.of_kept
      · rfl
      · intro other'
        by_cases hother : other' = queue
        · subst hother
          simp [takeItem]
        · simp [takeItem, hother]
    -- a client stops with the item at which its stream ends
    have hleaves (hends : StreamEnds (typeFilter other) modelDumpJson [item]) :
        StoppedAtEnd typeFilter modelDumpJson client
          ((s.takeItem queue item items).stand other (.leaving queue)) := by
      apply htaken.stand
      intro heq queue' hqueue
      simp only [GeneratorStage.leaving.injEq, reduceCtorEq, or_false] at hqueue
      subst heq hqueue
      have hlast : (s.takeItem queue item items).taken queue = s.taken queue ++ [item] :=
        Function.update_self _ _ _
      rw [hlast]
      exact streamEnds_append.mpr (.inr hends)
    obtain ⟨rfl, hget⟩ | ⟨event, rfl, ⟨_, _, _, hget⟩ | ⟨hpasses, hfails, hjson, hget⟩ |
      ⟨_, hget⟩⟩ := hget
    · rw [hget]
      exact hleaves (.inl List.mem_cons_self)
    · rw [hget]
      apply StoppedAtEnd.stand
      · exact htaken.of_kept rfl fun _ => List.prefix_rfl
      · simp
    · rw [hget]
      exact hleaves (streamEnds_event.mpr ⟨hpasses, hfails, hjson⟩)
    · rw [hget]
      exact htaken

/-- A client that has started moves on; what it takes is as before. -/
theorem Streamed.stand (hstreamed : s.Streamed typeFilter modelDumpJson) {client : γ}
    {stage : GeneratorStage} (hqueue : stage.queue = (s.stages client).queue)
    (hstarted : stage ≠ .created)
    (hstopped : ∀ queue, stage.queue = some queue →
      StreamEnds (typeFilter client) modelDumpJson (s.taken queue) →
        stage = .leaving queue ∨ stage = .finished queue) :
    (s.stand client stage).Streamed typeFilter modelDumpJson := by
  have hsame : (s.stand client stage).stages client = stage := by
    simp only [EventStreams.stand, Function.update_self]
  have hother : ∀ other, other ≠ client →
      (s.stand client stage).stages other = s.stages other := by
    intro other hne
    simp only [EventStreams.stand, Function.update_of_ne hne]
  constructor
  · intro other queue hown
    apply hstreamed.given other queue
    by_cases hne : other = client
    · subst hne
      rw [← hqueue, ← hsame]
      exact hown
    · rw [← hother other hne]
      exact hown
  · intro other queue hown hends
    by_cases hne : other = client
    · subst hne
      rw [hsame] at hown ⊢
      exact hstopped queue hown hends
    · rw [hother other hne] at hown ⊢
      exact hstreamed.stopped other queue hown hends
  · intro other hcreated
    by_cases hne : other = client
    · subst hne
      rw [hsame] at hcreated
      exact absurd hcreated hstarted
    · rw [hother other hne] at hcreated
      exact hstreamed.silent other hcreated
  · exact hstreamed.unread

/-- A client takes the next item of its queue and is given its frame, if any. -/
theorem Streamed.take {s' : EventStreams ι γ} (hstreamed : s.Streamed typeFilter modelDumpJson)
    (hregistry : s.Registry) {client : γ} {queue : QueueId} (item : Option TaskEvent)
    (stage : GeneratorStage) (hstage : s.stages client = .waiting queue)
    (hqueue : stage.queue = some queue)
    (hleaves : StreamEnds (typeFilter client) modelDumpJson [item] → stage = .leaving queue)
    (htaken : s'.taken = Function.update s.taken queue (s.taken queue ++ [item]))
    (hstages : s'.stages = Function.update s.stages client stage) (hfresh : s'.fresh = s.fresh)
    (hothers : ∀ other, other ≠ client → s'.yielded other = s.yielded other)
    (hframes : s'.frames client = s.frames client ++
      (shownItems (typeFilter client) modelDumpJson [item]).map
        fun item => eventFrame item.1 item.2) :
    s'.Streamed typeFilter modelDumpJson := by
  have hown : (s.stages client).queue = some queue := by rw [hstage]; rfl
  have hgoes : ¬StreamEnds (typeFilter client) modelDumpJson (s.taken queue) := by
    intro hends
    have hstopped := hstreamed.stopped client queue hown hends
    simp [hstage] at hstopped
  -- the queue of another client is another queue
  have hapart : ∀ other other', other ≠ client → (s.stages other).queue = some other' →
      s'.taken other' = s.taken other' := by
    intro other other' hne hother
    rw [htaken, Function.update_of_ne]
    intro heq
    exact hne (hregistry.owner other client queue (heq ▸ hother) hown)
  have hkept : ∀ other, other ≠ client → s'.stages other = s.stages other := by
    intro other hne
    rw [hstages, Function.update_of_ne hne]
  have hmoved : s'.stages client = stage := by rw [hstages, Function.update_self]
  constructor
  · intro other other' hother
    by_cases hne : other = client
    · subst hne
      rw [hmoved, hqueue] at hother
      cases hother
      rw [hframes, htaken, Function.update_self, shownItems_append hgoes, List.map_append,
        hstreamed.given other queue hown]
    · rw [hkept other hne] at hother
      rw [frames, hothers other hne, hapart other other' hne hother]
      exact hstreamed.given other other' hother
  · intro other other' hother hends
    by_cases hne : other = client
    · subst hne
      rw [hmoved, hqueue] at hother
      cases hother
      rw [htaken, Function.update_self, streamEnds_append] at hends
      rw [hmoved]
      exact .inl (hleaves (hends.resolve_left hgoes))
    · rw [hkept other hne] at hother ⊢
      rw [hapart other other' hne hother] at hends
      exact hstreamed.stopped other other' hother hends
  · intro other hcreated
    by_cases hne : other = client
    · subst hne
      rw [hmoved] at hcreated
      rw [hcreated] at hqueue
      cases hqueue
    · rw [hothers other hne]
      exact hstreamed.silent other (by rw [← hkept other hne]; exact hcreated)
  · intro other hle
    have hlt := hregistry.owned_lt client queue hown
    rw [hfresh] at hle
    rw [htaken, Function.update_of_ne (Nat.ne_of_gt (hlt.trans_le hle))]
    exact hstreamed.unread other hle

theorem Streamed.get (hstreamed : s.Streamed typeFilter modelDumpJson) (hregistry : s.Registry)
    (client : γ) : (s.get typeFilter modelDumpJson client).Streamed typeFilter modelDumpJson := by
  obtain hkept | ⟨queue, item, items, hstage, _, hget⟩ :=
    get_cases typeFilter modelDumpJson s client
  · rw [hkept]
    exact hstreamed
  · obtain ⟨rfl, hget⟩ | ⟨event, rfl, ⟨hpasses, json, hjson, hget⟩ | ⟨hpasses, e, hjson, hget⟩ |
      ⟨hpasses, hget⟩⟩ := hget <;> rw [hget]
    · apply hstreamed.take hregistry none (.leaving queue) hstage rfl (fun _ => rfl)
      · rfl
      · rfl
      · rfl
      · exact fun _ _ => rfl
      · simp [shownItems, dumpedUpTo, beforeSentinel, frames, EventStreams.stand, takeItem]
    · apply hstreamed.take hregistry (some event) (.suspended queue) hstage rfl
        (by simp [streamEnds_event, hjson])
      · rfl
      · rfl
      · rfl
      · exact fun other hne => Function.update_of_ne hne _ _
      · change ((s.takeItem _ _ _).yieldText client _).frames client = _
        rw [frames_yieldText, if_neg (eventFrame_ne_heartbeat _ _)]
        simp [shownItems, dumpedUpTo, beforeSentinel, hpasses, hjson, frames, takeItem]
    · apply hstreamed.take hregistry (some event) (.leaving queue) hstage rfl (fun _ => rfl)
      · rfl
      · rfl
      · rfl
      · exact fun _ _ => rfl
      · simp [shownItems, dumpedUpTo, beforeSentinel, hpasses, hjson, frames, EventStreams.stand,
          takeItem]
    · apply hstreamed.take hregistry (some event) (.waiting queue) hstage rfl
        (by simp [streamEnds_event, hpasses])
      · rfl
      · rw [← hstage, Function.update_eq_self]
        rfl
      · rfl
      · exact fun _ _ => rfl
      · simp [shownItems, dumpedUpTo, beforeSentinel, hpasses, frames, takeItem]

theorem Streamed.timeOut (hstreamed : s.Streamed typeFilter modelDumpJson) (client : γ) :
    (s.timeOut client).Streamed typeFilter modelDumpJson := by
  unfold EventStreams.timeOut
  cases hstage : s.stages client with
  | waiting queue =>
      have hown : (s.stages client).queue = some queue := by rw [hstage]; rfl
      have hbeat : (s.yieldText client heartbeat).Streamed typeFilter modelDumpJson := by
        obtain ⟨hgiven, hstopped, hsilent, hunread⟩ := hstreamed
        constructor
        · intro other other' hother
          apply Eq.trans _ (hgiven other other' hother)
          by_cases hne : other = client
          · subst hne
            rw [frames_yieldText, if_pos rfl, List.append_nil]
          · exact frames_yieldText_other hne _
        · exact hstopped
        · intro other hcreated
          by_cases hne : other = client
          · subst hne
            cases hstage.symm.trans hcreated
          · exact (Function.update_of_ne hne _ _).trans (hsilent other hcreated)
        · exact hunread
      apply hbeat.stand
      · exact hown.symm
      · simp
      · intro other hother hends
        cases hother
        have hstopped := hstreamed.stopped client queue hown hends
        simp [hstage] at hstopped
  | _ => exact hstreamed

theorem Streamed.start (hstreamed : s.Streamed typeFilter modelDumpJson) (client : γ) :
    (s.start client).Streamed typeFilter modelDumpJson := by
  unfold EventStreams.start
  cases hstage : s.stages client with
  | created =>
      have hunread : s.taken s.fresh = [] := hstreamed.unread s.fresh le_rfl
      constructor
      · intro other queue hother
        by_cases hne : other = client
        · subst hne
          simp only [EventStreams.stand, Function.update_self, GeneratorStage.queue,
            Option.some.injEq] at hother
          subst hother
          simp [frames, EventStreams.stand, EventStreams.subscribe, hunread, shownItems_nil,
            hstreamed.silent other hstage]
        · simp only [EventStreams.stand, Function.update_of_ne hne] at hother
          exact hstreamed.given other queue hother
      · intro other queue hother hends
        by_cases hne : other = client
        · subst hne
          simp only [EventStreams.stand, Function.update_self, GeneratorStage.queue,
            Option.some.injEq] at hother
          subst hother
          change StreamEnds (typeFilter other) modelDumpJson (s.taken s.fresh) at hends
          rw [hunread] at hends
          exact absurd hends not_streamEnds_nil
        · simp only [EventStreams.stand, Function.update_of_ne hne] at hother ⊢
          exact hstreamed.stopped other queue hother hends
      · intro other hcreated
        by_cases hne : other = client
        · subst hne
          simp [EventStreams.stand] at hcreated
        · simp only [EventStreams.stand, Function.update_of_ne hne] at hcreated
          exact hstreamed.silent other hcreated
      · exact fun queue hle => hstreamed.unread queue (Nat.le_of_succ_le hle)
  | _ => exact hstreamed

/-- A client that waits, or was given a frame, moves on. -/
theorem Streamed.move (hstreamed : s.Streamed typeFilter modelDumpJson) {client : γ}
    {stage stage' : GeneratorStage} (hstage : s.stages client = stage)
    (hqueue : stage'.queue = stage.queue) (hstarted : stage' ≠ .created)
    (hstopped : ∀ queue, stage = .leaving queue ∨ stage = .finished queue →
      stage' = .leaving queue ∨ stage' = .finished queue) :
    (s.stand client stage').Streamed typeFilter modelDumpJson := by
  apply hstreamed.stand _ hstarted
  · intro queue hown hends
    rw [hqueue, ← hstage] at hown
    apply hstopped queue
    rw [← hstage]
    exact hstreamed.stopped client queue hown hends
  · rw [hqueue, hstage]

theorem Streamed.resume (hstreamed : s.Streamed typeFilter modelDumpJson) (client : γ) :
    (s.resume client).Streamed typeFilter modelDumpJson := by
  unfold EventStreams.resume
  cases hstage : s.stages client with
  | suspended queue => exact hstreamed.move hstage rfl (by simp) (by simp)
  | _ => exact hstreamed

theorem Streamed.close (hstreamed : s.Streamed typeFilter modelDumpJson) (client : γ) :
    (s.close client).Streamed typeFilter modelDumpJson := by
  unfold EventStreams.close
  cases hstage : s.stages client with
  | waiting queue | suspended queue => exact hstreamed.move hstage rfl (by simp) (by simp)
  | _ => exact hstreamed

theorem Streamed.leave (hstreamed : s.Streamed typeFilter modelDumpJson) (client : γ) :
    (s.leave client).Streamed typeFilter modelDumpJson := by
  unfold EventStreams.leave
  cases hstage : s.stages client with
  | leaving queue =>
      have hremoved : (s.unsubscribe queue).Streamed typeFilter modelDumpJson :=
        hstreamed.of_kept rfl rfl rfl le_rfl
      exact hremoved.move hstage rfl (by simp) (by simp)
  | _ => exact hstreamed

end Frames

end EventStreams

end Conductor
