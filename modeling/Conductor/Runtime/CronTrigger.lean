/-
The cron trigger.  It remembers the slot of its last dispatch and nothing else,
which is enough as long as the polls go forward in time.
-/
import Mathlib.Data.List.Chain
import Conductor.Runtime.Triggers

namespace Conductor

/-- A minute of the UTC calendar, by its fields. -/
structure CronSlot where
  year : Nat
  month : Nat
  day : Nat
  hour : Nat
  minute : Nat
deriving DecidableEq

/-- The slot of a normalized time. -/
def slotAt (t : Time) : CronSlot :=
  ⟨(dateOf t).year, (dateOf t).month, (dateOf t).day, hourOf t, minuteOf t⟩

structure CronTriggerAdapter where
  name : String
  schedule : CronSchedule
  submission : TaskSubmission

/-- A call of `poll`: its argument, and what it reads of the clocks and gets for an
identifier. -/
structure CronPoll where
  now : Option Datetime
  clock : Datetime
  dispatchId : String
  emittedAt : Datetime

namespace CronTriggerAdapter

/-- `CronTriggerAdapter(name=name, schedule=schedule, submission=submission)`. -/
def ofExpression (name schedule : String) (submission : TaskSubmission) :
    Except PyExc CronTriggerAdapter :=
  (CronSchedule.ofExpression schedule).map fun schedule => ⟨name, schedule, submission⟩

/-- `_slot_key`. -/
def slotKey (when : Datetime) : Except PyExc CronSlot :=
  (normalizeNow 0 (some when)).map slotAt

/-- The dispatch of a poll. -/
def dispatch (adapter : CronTriggerAdapter) (poll : CronPoll) (current : Datetime) :
    TriggerDispatch where
  dispatchId := poll.dispatchId
  source := .cron
  triggerName := adapter.name
  scheduledFor := current
  emittedAt := poll.emittedAt
  submission := adapter.submission

/-- `poll`, from the last emitted slot to the next. -/
def poll (adapter : CronTriggerAdapter) (poll : CronPoll) (lastEmittedSlot : Option CronSlot) :
    Except PyExc (List TriggerDispatch × Option CronSlot) := do
  let current ← normalizedNow poll.clock poll.now
  if !(← adapter.schedule.matchesWhen current) then return ([], lastEmittedSlot)
  let slot ← slotKey current
  if some slot = lastEmittedSlot then return ([], lastEmittedSlot)
  return ([adapter.dispatch poll current], some slot)

/-- One poll after the other: what each returned. -/
def pollAll (adapter : CronTriggerAdapter) : List CronPoll → Option CronSlot →
    Except PyExc (List (List TriggerDispatch))
  | [], _ => .ok []
  | poll :: polls, lastEmittedSlot => do
      let polled ← adapter.poll poll lastEmittedSlot
      let later ← adapter.pollAll polls polled.2
      return polled.1 :: later

end CronTriggerAdapter

/-- The first moment of a minute. -/
def minuteStart (m : Nat) : Time := m * 60000000

@[simp] theorem minuteNumber_minuteStart (m : Nat) : minuteNumber (minuteStart m) = m :=
  Nat.mul_div_cancel m (by decide)

theorem minuteNumber_eq_iff {t : Time} {m : Nat} :
    minuteNumber t = m ↔ minuteStart m ≤ t ∧ t < minuteStart (m + 1) := by
  have hkey (n : Nat) : n / 60000000 = m ↔ m * 60000000 ≤ n ∧ n < (m + 1) * 60000000 := by omega
  exact hkey t

theorem minuteNumber_mono {t t' : Time} (hle : t ≤ t') : minuteNumber t ≤ minuteNumber t' :=
  Nat.div_le_div_right hle

/-- A slot is a minute. -/
theorem slotAt_eq_iff {t t' : Time} : slotAt t = slotAt t' ↔ minuteNumber t = minuteNumber t' := by
  constructor
  · intro hslot
    obtain ⟨hyear, hmonth, hday, hhour, hminute⟩ := CronSlot.mk.inj hslot
    have hdate : dateOf t = dateOf t' := by
      generalize dateOf t = date at hyear hmonth hday
      generalize dateOf t' = date' at hyear hmonth hday
      cases date
      cases date'
      exact CalendarDate.mk.injEq .. ▸ ⟨hyear, hmonth, hday⟩
    have hnumber : dayNumber t = dayNumber t' := dateOfNumber_injective hdate
    simp only [dayNumber, hourOf, minuteOf] at hnumber hhour hminute
    omega
  · intro hminute
    simp only [slotAt, dateOf, dayNumber, hourOf, minuteOf, hminute]

/-- A schedule cannot tell the moments of a minute. -/
theorem CronSchedule.matchesAt_congr (schedule : CronSchedule) {t t' : Time}
    (hminute : minuteNumber t = minuteNumber t') :
    schedule.matchesAt t = schedule.matchesAt t' := by
  simp only [matchesAt, minuteOf, hourOf, dateOf, weekdayOf, dayNumber, hminute]

/-- The schedule matches the minute. -/
def CronSchedule.Due (schedule : CronSchedule) (m : Nat) : Prop :=
  schedule.matchesAt (minuteStart m) = .ok true

theorem normalizeNow_utc {t : Time} (ht : t < endOfTime) (clock : Time) :
    normalizeNow clock (some (.utc t ht)) = .ok t := by
  have hkey (n last : Nat) (hn : n < last) :
      (0 ≤ (n : Int) - 0 ∧ (n : Int) - 0 < last) ∧ ((n : Int) - 0).toNat = n := by omega
  obtain ⟨hrange, hsame⟩ := hkey t endOfTime ht
  change Datetime.astimezoneUtc t 0 = .ok t
  rw [Datetime.astimezoneUtc, if_pos hrange, hsame]

theorem normalizedNow_eq {clock : Datetime} {now : Option Datetime} {t : Time}
    (hnow : normalizeNow clock.clock now = .ok t) :
    normalizedNow clock now = .ok (.utc t (normalizeNow_lt clock.clock_lt hnow)) := by
  unfold normalizedNow
  split
  · next t' hnow' =>
      cases hnow.symm.trans hnow'
      rfl
  · next e hnow' => cases hnow.symm.trans hnow'

/-- The poll is made at this instant. -/
def CronPoll.At (poll : CronPoll) (t : Time) : Prop :=
  normalizeNow poll.clock.clock poll.now = .ok t

/-- The schedule never raises on a datetime that has a date in UTC. -/
def CronSchedule.NeverRaises (schedule : CronSchedule) : Prop :=
  ∀ when t, normalizeNow 0 (some when) = .ok t → ∃ verdict, schedule.matchesWhen when = .ok verdict

namespace CronTriggerAdapter

variable {adapter : CronTriggerAdapter}

/-- A poll in a minute that is due and that is not the last emitted one has a dispatch
for this instant, and another has none. -/
theorem poll_spec (hreturns : adapter.schedule.NeverRaises) {poll : CronPoll} {t : Time}
    (hat : poll.At t) (lastEmittedSlot : Option CronSlot) :
    ∃ dispatches lastEmittedSlot', adapter.poll poll lastEmittedSlot =
        .ok (dispatches, lastEmittedSlot') ∧
      (∀ d ∈ dispatches, d.scheduledFor.clock = t ∧ d.scheduledFor.utcoffset = some 0) ∧
      ((adapter.schedule.Due (minuteNumber t) ∧ lastEmittedSlot ≠ some (slotAt t) ∧
          dispatches.length = 1 ∧ lastEmittedSlot' = some (slotAt t)) ∨
        ((adapter.schedule.Due (minuteNumber t) → lastEmittedSlot = some (slotAt t)) ∧
          dispatches = [] ∧ lastEmittedSlot' = lastEmittedSlot)) := by
  have ht : t < endOfTime := normalizeNow_lt poll.clock.clock_lt hat
  have hutc : normalizeNow 0 (some (.utc t ht)) = .ok t := normalizeNow_utc ht 0
  have hslot : slotKey (.utc t ht) = .ok (slotAt t) := congrArg (Except.map slotAt) hutc
  have hdue : adapter.schedule.Due (minuteNumber t) ↔
      adapter.schedule.matchesWhen (.utc t ht) = .ok true := by
    rw [CronSchedule.Due, CronSchedule.matchesWhen_of_normalizeNow hutc,
      adapter.schedule.matchesAt_congr (minuteNumber_minuteStart _)]
  obtain ⟨verdict, hverdict⟩ := hreturns _ t hutc
  rw [CronTriggerAdapter.poll, bind_of_ok (normalizedNow_eq hat), bind_of_ok hverdict]
  rw [hverdict] at hdue
  cases verdict with
  | false =>
      refine ⟨[], lastEmittedSlot, rfl, by simp, .inr ⟨?_, rfl, rfl⟩⟩
      intro hcontra
      cases hdue.mp hcontra
  | true =>
      change ∃ dispatches lastEmittedSlot', (do
        let slot ← slotKey (.utc t ht)
        if some slot = lastEmittedSlot then return ([], lastEmittedSlot)
        return ([adapter.dispatch poll (.utc t ht)], some slot)) = _ ∧ _
      rw [bind_of_ok hslot]
      by_cases hlast : some (slotAt t) = lastEmittedSlot
      · rw [if_pos hlast]
        exact ⟨[], lastEmittedSlot, rfl, by simp, .inr ⟨fun _ => hlast.symm, rfl, rfl⟩⟩
      · rw [if_neg hlast]
        refine ⟨_, _, rfl, ?_, .inl ⟨hdue.mpr rfl, Ne.symm hlast, rfl, rfl⟩⟩
        intro d hd
        rw [List.mem_singleton.mp hd]
        exact ⟨rfl, rfl⟩

end CronTriggerAdapter

/-- How many dispatches the polls in a minute had. -/
def fired (m : Nat) (times : List Time) (outputs : List (List TriggerDispatch)) : Nat :=
  (List.zipWith (fun t output => if minuteNumber t = m then output.length else 0) times outputs).sum

@[simp] theorem fired_cons (m : Nat) (t : Time) (times : List Time) (output : List TriggerDispatch)
    (outputs : List (List TriggerDispatch)) :
    fired m (t :: times) (output :: outputs) =
      (if minuteNumber t = m then output.length else 0) + fired m times outputs := rfl

/-- What was emitted last does not lie ahead. -/
def Behind (lastEmittedSlot : Option CronSlot) (t : Time) : Prop :=
  ∀ m, lastEmittedSlot = some (slotAt (minuteStart m)) → m ≤ minuteNumber t

/-- The output of a poll is scheduled for its instant. -/
def Scheduled (t : Time) (output : List TriggerDispatch) : Prop :=
  ∀ d ∈ output, d.scheduledFor.clock = t ∧ d.scheduledFor.utcoffset = some 0

/-- A due minute in which there is a poll, and which was not emitted last. -/
structure UpNext (schedule : CronSchedule) (times : List Time)
    (lastEmittedSlot : Option CronSlot) (m : Nat) : Prop where
  due : schedule.Due m
  polled : m ∈ times.map minuteNumber
  fresh : lastEmittedSlot ≠ some (slotAt (minuteStart m))

theorem some_slotAt_eq_iff {t : Time} {m : Nat} :
    some (slotAt t) = some (slotAt (minuteStart m)) ↔ minuteNumber t = m := by
  rw [Option.some_inj, slotAt_eq_iff, minuteNumber_minuteStart]

section

variable {schedule : CronSchedule} {t : Time} {times : List Time} {m : Nat}
variable {lastEmittedSlot : Option CronSlot}

/-- After a poll that had a dispatch, its minute is not up next, and the others are as
before. -/
theorem upNext_after_emission (hlater : ∀ t' ∈ times, t ≤ t') (hbehind : Behind lastEmittedSlot t)
    (hm : minuteNumber t ≠ m) :
    UpNext schedule (t :: times) lastEmittedSlot m ↔
      UpNext schedule times (some (slotAt t)) m := by
  constructor
  · intro hupNext
    have hpolled := hupNext.polled
    rw [List.map_cons, List.mem_cons] at hpolled
    exact ⟨hupNext.due, hpolled.resolve_left (Ne.symm hm), fun h => hm (some_slotAt_eq_iff.mp h)⟩
  · intro hupNext
    refine ⟨hupNext.due, List.mem_cons_of_mem _ hupNext.polled, fun hlast => hm ?_⟩
    obtain ⟨t', ht', rfl⟩ := List.mem_map.mp hupNext.polled
    exact le_antisymm (minuteNumber_mono (hlater t' ht')) (hbehind _ hlast)

/-- A poll that had no dispatch leaves the same minutes up next. -/
theorem upNext_after_silence
    (hsilent : schedule.Due (minuteNumber t) → lastEmittedSlot = some (slotAt t)) :
    UpNext schedule (t :: times) lastEmittedSlot m ↔ UpNext schedule times lastEmittedSlot m := by
  constructor
  · intro hupNext
    have hpolled := hupNext.polled
    rw [List.map_cons, List.mem_cons] at hpolled
    refine ⟨hupNext.due, hpolled.resolve_left fun hm => ?_, hupNext.fresh⟩
    subst hm
    have hlast := hsilent hupNext.due
    exact hupNext.fresh (hlast.trans (some_slotAt_eq_iff.mpr rfl))
  · intro hupNext
    exact ⟨hupNext.due, List.mem_cons_of_mem _ hupNext.polled, hupNext.fresh⟩

end

namespace CronTriggerAdapter

variable {adapter : CronTriggerAdapter}

/-- A minute that is up next has one dispatch, and another minute has none. -/
theorem pollAll_spec (hreturns : adapter.schedule.NeverRaises) {polls : List CronPoll}
    {times : List Time} (hat : List.Forall₂ CronPoll.At polls times)
    (hsorted : times.Pairwise (· ≤ ·)) {lastEmittedSlot : Option CronSlot}
    (hbehind : ∀ t ∈ times, Behind lastEmittedSlot t) :
    ∃ outputs, adapter.pollAll polls lastEmittedSlot = .ok outputs ∧
      List.Forall₂ Scheduled times outputs ∧
      ∀ m, (UpNext adapter.schedule times lastEmittedSlot m → fired m times outputs = 1) ∧
        (¬ UpNext adapter.schedule times lastEmittedSlot m → fired m times outputs = 0) := by
  induction hat generalizing lastEmittedSlot with
  | nil =>
      refine ⟨[], rfl, .nil, fun m => ⟨fun hupNext => ?_, fun _ => rfl⟩⟩
      cases hupNext.polled
  | cons hfirst hrest ih =>
      rename_i poll t polls times
      obtain ⟨hlater, hsorted⟩ := List.pairwise_cons.mp hsorted
      rw [List.forall_mem_cons] at hbehind
      obtain ⟨dispatches, lastEmittedSlot', hpoll, hscheduled, hspec⟩ :=
        poll_spec hreturns hfirst lastEmittedSlot
      have hbehind' : ∀ t' ∈ times, Behind lastEmittedSlot' t' := by
        intro t' ht' m hlast
        rcases hspec with ⟨-, -, -, hemitted⟩ | ⟨-, -, hsame⟩
        · rw [hemitted, some_slotAt_eq_iff] at hlast
          exact hlast ▸ minuteNumber_mono (hlater t' ht')
        · exact hbehind.2 t' ht' m (hsame ▸ hlast)
      obtain ⟨outputs, hpollAll, hall, hcount⟩ := ih hsorted hbehind'
      refine ⟨dispatches :: outputs, ?_, .cons hscheduled hall, fun m => ?_⟩
      · rw [pollAll, bind_of_ok hpoll, bind_of_ok hpollAll]
        rfl
      rw [fired_cons]
      rcases hspec with ⟨hdue, hfresh, hone, rfl⟩ | ⟨hsilent, rfl, rfl⟩
      · by_cases hm : minuteNumber t = m
        · subst hm
          have hrest : fired (minuteNumber t) times outputs = 0 :=
            (hcount _).2 fun hupNext => hupNext.fresh (some_slotAt_eq_iff.mpr rfl)
          rw [if_pos rfl, hone, hrest]
          refine ⟨fun _ => rfl, fun hnot => absurd ⟨hdue, List.mem_cons_self, ?_⟩ hnot⟩
          intro hlast
          exact hfresh (hlast.trans (some_slotAt_eq_iff.mpr rfl).symm)
        · rw [if_neg hm, Nat.zero_add, upNext_after_emission hlater hbehind.1 hm]
          exact hcount m
      · rw [upNext_after_silence hsilent]
        rw [List.length_nil, ite_self, Nat.zero_add]
        exact hcount m

end CronTriggerAdapter

theorem minuteStart_succ (m : Nat) : minuteStart (m + 1) = minuteStart m + 60000000 :=
  Nat.succ_mul m 60000000

/-- Polls no more than a minute apart do not miss a minute. -/
theorem exists_poll_in_minute {first last : Time} {times : List Time} {m : Nat}
    (hgaps : (first :: times).IsChain fun t t' => t ≤ t' ∧ t' ≤ t + 60000000)
    (hlast : (first :: times).getLast? = some last) (hstart : first ≤ minuteStart m)
    (hend : minuteStart m ≤ last) : m ∈ (first :: times).map minuteNumber := by
  induction times generalizing first with
  | nil =>
      cases hlast
      have hsame : first = minuteStart m := le_antisymm hstart hend
      rw [hsame, List.map_cons, minuteNumber_minuteStart]
      exact List.mem_cons_self
  | cons second times ih =>
      obtain ⟨hgap, hgaps⟩ := List.isChain_cons_cons.mp hgaps
      by_cases hnext : second ≤ minuteStart m
      · rw [List.getLast?_cons_cons] at hlast
        exact List.mem_cons_of_mem _ (ih hgaps hlast hnext)
      · rw [List.map_cons, List.map_cons, List.mem_cons, List.mem_cons]
        rcases hstart.eq_or_lt with hsame | hlt
        · left
          rw [hsame, minuteNumber_minuteStart]
        · right
          left
          apply Eq.symm
          rw [minuteNumber_eq_iff, minuteStart_succ]
          exact ⟨(not_le.mp hnext).le, hgap.2.trans_lt (Nat.add_lt_add_right hlt _)⟩

namespace CronTriggerAdapter

/-- Cron fires exactly once in a due minute.  Over polls that do not go back in UTC and
are no more than a minute apart, every due minute between the first and the last of them
has one dispatch; no minute has two, and one that is not due has none. -/
theorem fires_once (adapter : CronTriggerAdapter) (hreturns : adapter.schedule.NeverRaises)
    (polls : List CronPoll) (times : List Time) (hat : List.Forall₂ CronPoll.At polls times)
    (hgaps : times.IsChain fun t t' => t ≤ t' ∧ t' ≤ t + 60000000) :
    ∃ outputs, adapter.pollAll polls none = .ok outputs ∧
      List.Forall₂ Scheduled times outputs ∧
      ∀ m, fired m times outputs ≤ 1 ∧
        (¬ adapter.schedule.Due m → fired m times outputs = 0) ∧
        ∀ first last, times.head? = some first → times.getLast? = some last →
          adapter.schedule.Due m → first ≤ minuteStart m → minuteStart (m + 1) ≤ last →
            fired m times outputs = 1 := by
  have hsorted : times.Pairwise (· ≤ ·) :=
    List.isChain_iff_pairwise.mp (hgaps.imp fun _ _ hgap => hgap.1)
  have hbehind : ∀ t ∈ times, Behind none t := by
    intro t _ m hnone
    cases hnone
  obtain ⟨outputs, hpollAll, hscheduled, hcount⟩ := pollAll_spec hreturns hat hsorted hbehind
  refine ⟨outputs, hpollAll, hscheduled, fun m => ?_⟩
  obtain ⟨hone, hnone⟩ := hcount m
  refine ⟨?_, ?_, ?_⟩
  · by_cases hupNext : UpNext adapter.schedule times none m
    · exact (hone hupNext).le
    · exact (hnone hupNext).le.trans (Nat.zero_le 1)
  · intro hdue
    exact hnone fun hupNext => hdue hupNext.due
  · intro first last hfirst hlast hdue hstart hend
    apply hone
    cases times with
    | nil => cases hfirst
    | cons head rest =>
        cases hfirst
        have hbefore : minuteStart m ≤ last := by
          rw [minuteStart_succ] at hend
          exact (Nat.le_add_right _ _).trans hend
        exact ⟨hdue, exists_poll_in_minute hgaps hlast hstart hbefore, by simp⟩

/-- An echo every five minutes. -/
def everyFive : CronTriggerAdapter :=
  ⟨"every-five", ⟨"*/5 * * * *", "*/5", "*", "*", "*", "*"⟩,
    ⟨"cron-echo", "echo", [("message", .str "tick")], [], 0, none⟩⟩

theorem everyFive_neverRaises : everyFive.schedule.NeverRaises := by
  intro when t hnow
  have hstep : readField CronSchedule.minuteRange "*/5" = [some (.step 5)] := by decide +kernel
  have hstar (range : FieldRange) : readField range "*" = [some .star] := rfl
  have hverdict : (everyFive.schedule.matchesAt t).toOption = some (minuteOf t % 5 == 0) := by
    rw [CronSchedule.toOption_matchesAt]
    simp only [CronSchedule.checks, everyFive, FieldCheck.settleAll, FieldCheck.settled,
      FieldCheck.tokens, hstep, hstar, settle, CronToken.verdict]
    cases minuteOf t % 5 == 0 <;> rfl
  rw [CronSchedule.matchesWhen_of_normalizeNow hnow]
  exact ⟨_, Except.eq_ok_of_toOption hverdict⟩

/-- A poll at the beginning of one of the first minutes of the calendar. -/
def pollIn (m : Nat) (hm : minuteStart m < endOfTime) : CronPoll :=
  ⟨some (.utc (minuteStart m) hm), .firstMoment, "d", .firstMoment⟩

theorem fires_once_everyFive :
    ∃ outputs, everyFive.pollAll [pollIn 4 (by decide), pollIn 5 (by decide),
        pollIn 6 (by decide)] none = .ok outputs ∧
      fired 5 [minuteStart 4, minuteStart 5, minuteStart 6] outputs = 1 := by
  have hat (m : Nat) (hm : minuteStart m < endOfTime) : (pollIn m hm).At (minuteStart m) :=
    normalizeNow_utc hm _
  obtain ⟨outputs, hpollAll, -, hcount⟩ := fires_once everyFive everyFive_neverRaises
    [pollIn 4 (by decide), pollIn 5 (by decide), pollIn 6 (by decide)]
    [minuteStart 4, minuteStart 5, minuteStart 6]
    (.cons (hat 4 _) (.cons (hat 5 _) (.cons (hat 6 _) .nil))) (by decide)
  have hdue : everyFive.schedule.Due 5 := by
    apply Except.eq_ok_of_toOption
    decide +kernel
  exact ⟨outputs, hpollAll, (hcount 5).2.2 _ _ rfl rfl hdue (by decide) (by decide)⟩

end CronTriggerAdapter

end Conductor
