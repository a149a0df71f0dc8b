/-
What the validation of a cron expression is worth.  The fields are tried at one
instant, and trying stops early, so a malformed token is only reported if the
search comes to it there.
-/
import Conductor.Runtime.CronFields

namespace Conductor

/-- All the tokens are literals of other values. -/
def PassedOver (value : Nat) (tokens : List (Option CronToken)) : Prop :=
  ∀ token ∈ tokens, ∃ candidate, token = some (.literal candidate) ∧ value ≠ candidate

namespace FieldCheck

/-- Nothing keeps the search from a malformed token: only literals of other
values stand before it in the field. -/
def Exposed (check : FieldCheck) : Prop :=
  ∃ before after, check.tokens = before ++ none :: after ∧ PassedOver check.value before

/-- The search ends at a token that covers the value. -/
def Admits (check : FieldCheck) : Prop :=
  ∃ before token after, check.tokens = before ++ some token :: after ∧
    token.covers check.value = true ∧ PassedOver check.value before

/-- Every malformed token is shadowed: by a token before it in its field, or by
a field before that does not admit its value. -/
def Shadowed (checks : List FieldCheck) : Prop :=
  ∀ before check after, checks = before ++ check :: after → (∀ c ∈ before, c.Admits) →
    ¬ check.Exposed

end FieldCheck

variable {value : Nat} {tokens : List (Option CronToken)}

theorem settle_passedOver {before : List (Option CronToken)} (hbefore : PassedOver value before) :
    settle value (before ++ tokens) = settle value tokens := by
  induction before with
  | nil => rfl
  | cons token before ih =>
      obtain ⟨⟨candidate, rfl, hvalue⟩, hrest⟩ := List.forall_mem_cons.mp hbefore
      simp only [List.cons_append, settle, CronToken.verdict, hvalue, if_false]
      exact ih hrest

/-- The search comes to the end or to the first token that is no literal of
another value. -/
theorem exists_passedOver (value : Nat) (tokens : List (Option CronToken)) :
    ∃ before after, tokens = before ++ after ∧ PassedOver value before ∧
      ∀ token rest, after = token :: rest →
        ∀ candidate, token = some (.literal candidate) → value = candidate := by
  induction tokens with
  | nil => exact ⟨[], [], rfl, nofun, nofun⟩
  | cons token tokens ih =>
      by_cases hpassed : ∃ candidate, token = some (.literal candidate) ∧ value ≠ candidate
      · obtain ⟨before, after, rfl, hbefore, hnext⟩ := ih
        exact ⟨token :: before, after, rfl, List.forall_mem_cons.mpr ⟨hpassed, hbefore⟩, hnext⟩
      · push Not at hpassed
        refine ⟨[], token :: tokens, rfl, nofun, ?_⟩
        rintro _ _ ⟨⟩
        exact hpassed

theorem verdict_of_covers {token : CronToken} (hcovers : token.covers value = true) :
    token.verdict value = some true := by
  cases token with
  | star => rfl
  | step n => exact congrArg some hcovers
  | literal candidate => exact if_pos (beq_iff_eq.mp hcovers)

namespace FieldCheck

variable {check : FieldCheck} {checks : List FieldCheck}

theorem settled_eq_none_iff : check.settled = none ↔ check.Exposed := by
  constructor
  · intro hnone
    obtain ⟨before, after, htokens, hbefore, hnext⟩ :=
      exists_passedOver check.value check.tokens
    rw [settled, htokens, settle_passedOver hbefore] at hnone
    cases after with
    | nil => cases hnone
    | cons token rest =>
        cases token with
        | none => exact ⟨before, rest, htokens, hbefore⟩
        | some token =>
            cases token with
            | star | step n => cases hnone
            | literal candidate =>
                have hvalue := hnext _ rest rfl candidate rfl
                simp [settle, CronToken.verdict, hvalue] at hnone
  · rintro ⟨before, after, htokens, hbefore⟩
    rw [settled, htokens, settle_passedOver hbefore]
    rfl

theorem settled_eq_some_true_iff : check.settled = some true ↔ check.Admits := by
  constructor
  · intro htrue
    obtain ⟨before, after, htokens, hbefore, hnext⟩ :=
      exists_passedOver check.value check.tokens
    rw [settled, htokens, settle_passedOver hbefore] at htrue
    cases after with
    | nil => cases htrue
    | cons token rest =>
        cases token with
        | none => cases htrue
        | some token =>
            refine ⟨before, token, rest, htokens, ?_, hbefore⟩
            cases token with
            | star => rfl
            | step n => exact Option.some.inj htrue
            | literal candidate => exact beq_iff_eq.mpr (hnext _ rest rfl candidate rfl)
  · rintro ⟨before, token, after, htokens, hcovers, hbefore⟩
    rw [settled, htokens, settle_passedOver hbefore, settle, verdict_of_covers hcovers]

theorem shadowed_cons :
    Shadowed (check :: checks) ↔ ¬ check.Exposed ∧ (check.Admits → Shadowed checks) := by
  constructor
  · intro hshadowed
    refine ⟨hshadowed [] check checks rfl nofun, ?_⟩
    intro hadmits before next after hchecks hbefore
    apply hshadowed (check :: before) next after (congrArg (check :: ·) hchecks)
    exact List.forall_mem_cons.mpr ⟨hadmits, hbefore⟩
  · rintro ⟨hexposed, hrest⟩ before next after hchecks hbefore
    cases before with
    | nil =>
        cases hchecks
        exact hexposed
    | cons first before =>
        cases hchecks
        rw [List.forall_mem_cons] at hbefore
        exact hrest hbefore.1 before next after rfl hbefore.2

/-- Trying the fields raises just where a malformed token is not shadowed. -/
theorem settleAll_isSome_iff : (settleAll checks).isSome = true ↔ Shadowed checks := by
  induction checks with
  | nil =>
      refine ⟨fun _ before check after hchecks => ?_, fun _ => rfl⟩
      exact absurd hchecks (by simp)
  | cons check checks ih =>
      rw [shadowed_cons, ← ih, ← settled_eq_none_iff, ← settled_eq_some_true_iff, settleAll]
      rcases check.settled with _ | _ | _ <;> simp

end FieldCheck

namespace CronSchedule

/-- The fields with values of their own. -/
def checksOn (schedule : CronSchedule) (minute hour day month weekday : Nat) : List FieldCheck :=
  [⟨minute, schedule.minute, minuteRange⟩, ⟨hour, schedule.hour, hourRange⟩,
    ⟨day, schedule.day, dayRange⟩, ⟨month, schedule.month, monthRange⟩,
    ⟨weekday, schedule.weekday, weekdayRange⟩]

/-- Every malformed token is shadowed at every minute of every day of the
calendar on every weekday. -/
def AlwaysShadowed (schedule : CronSchedule) : Prop :=
  ∀ minute hour day month weekday, minute < 60 → hour < 24 → 1 ≤ month → month ≤ 12 → 1 ≤ day →
    day ≤ monthLength true month → weekday < 7 →
      FieldCheck.Shadowed (schedule.checksOn minute hour day month weekday)

variable {schedule : CronSchedule}

theorem matchesAt_returns_iff {t : Time} :
    (∃ verdict, schedule.matchesAt t = .ok verdict) ↔
      FieldCheck.Shadowed (schedule.checks t) := by
  rw [← FieldCheck.settleAll_isSome_iff, ← toOption_matchesAt]
  cases schedule.matchesAt t with
  | error e => simp [Except.toOption]
  | ok verdict => simp [Except.toOption]

/-- A datetime without a date in UTC makes any schedule raise. -/
theorem matchesWhen_returns_iff {when : Datetime} :
    (∃ verdict, schedule.matchesWhen when = .ok verdict) ↔
      ∃ t, normalizeNow 0 (some when) = .ok t ∧ FieldCheck.Shadowed (schedule.checks t) := by
  cases hnow : normalizeNow 0 (some when) with
  | error e =>
      have hraises : schedule.matchesWhen when = .error e := by
        rw [matchesWhen, hnow]
        rfl
      simp [hraises]
  | ok t =>
      rw [matchesWhen_of_normalizeNow hnow, matchesAt_returns_iff]
      simp

/-- All the times together are all the minutes, hours, days and weekdays. -/
theorem alwaysShadowed_iff :
    schedule.AlwaysShadowed ↔
      ∀ when t, normalizeNow 0 (some when) = .ok t → FieldCheck.Shadowed (schedule.checks t) := by
  constructor
  · intro halways when t _
    have hdate := dateOf_valid t
    exact halways _ _ _ _ _ (minuteOf_lt t) (hourOf_lt t) hdate.month_pos hdate.month_le
      hdate.day_pos hdate.day_le_leap (Nat.mod_lt _ (by decide))
  · intro hall minute hour day month weekday hminute hhour hmonth hmonth' hday hday' hweekday
    have hbefore : (weekday + 6) % 7 < 7 := Nat.mod_lt _ (by decide)
    obtain ⟨t, ht, hm, hh, hmo, hd, hw⟩ :=
      exists_time hminute hhour hmonth hmonth' hday hday' hbefore
    have hnow : normalizeNow 0 (some ⟨t, none, ht, nofun⟩) = .ok t := rfl
    have hchecks := hall _ t hnow
    have hsunday : ((weekday + 6) % 7 + 1) % 7 = weekday := by omega
    simp only [checks, hm, hh, hmo, hd, hw, hsunday] at hchecks
    exact hchecks

end CronSchedule

/-- An accepted expression matches a datetime without raising just where the
datetime has a date in UTC and every malformed token is shadowed; and it never
raises for a datetime that has one just if every malformed token is always
shadowed. -/
theorem accepted_never_fails_iff (expression : String) :
    (∀ when : Datetime,
      (∀ schedule, CronSchedule.ofExpression expression = .ok schedule →
          ∃ verdict, schedule.matchesWhen when = .ok verdict) ↔
        ∀ schedule, CronSchedule.ofExpression expression = .ok schedule →
          ∃ t, normalizeNow 0 (some when) = .ok t ∧
            FieldCheck.Shadowed (schedule.checks t)) ∧
    ((∀ schedule, CronSchedule.ofExpression expression = .ok schedule →
        ∀ when t, normalizeNow 0 (some when) = .ok t →
          ∃ verdict, schedule.matchesWhen when = .ok verdict) ↔
      ∀ schedule, CronSchedule.ofExpression expression = .ok schedule →
        schedule.AlwaysShadowed) := by
  constructor
  · intro when
    simp only [CronSchedule.matchesWhen_returns_iff]
  · apply forall₂_congr
    intro schedule _
    rw [CronSchedule.alwaysShadowed_iff]
    apply forall₃_congr
    intro when t hnow
    rw [CronSchedule.matchesWhen_of_normalizeNow hnow, CronSchedule.matchesAt_returns_iff]

/-- The hour of this schedule is out of range, which shows at minute 1. -/
theorem accepted_hour_fails_later :
    ¬ ∀ expression schedule, CronSchedule.ofExpression expression = .ok schedule →
      ∀ when t, normalizeNow 0 (some when) = .ok t →
        ∃ verdict, schedule.matchesWhen when = .ok verdict := by
  intro hnever
  have haccepted : CronSchedule.ofExpression "1 99 * * *" =
      .ok ⟨"1 99 * * *", "1", "99", "*", "*", "*"⟩ := by
    apply Except.eq_ok_of_toOption
    decide +kernel
  obtain ⟨verdict, hverdict⟩ := hnever _ _ haccepted ⟨60000000, none, by decide, nofun⟩ _ rfl
  have hraises : (CronSchedule.matchesWhen ⟨"1 99 * * *", "1", "99", "*", "*", "*"⟩
      ⟨60000000, none, by decide, nofun⟩).toOption = none := by
    decide +kernel
  rw [hverdict] at hraises
  cases hraises

end Conductor
