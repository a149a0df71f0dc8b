/-
A cron field against the union of its tokens.  The search through the tokens
ends at the first star or step, whatever it says, so the field is the union of
the tokens up to there.
-/
import Conductor.Runtime.CronSchedule

namespace Conductor

/-- A value is covered by some of the tokens. -/
def unionCovers (tokens : List CronToken) (value : Nat) : Bool :=
  tokens.any fun token => token.covers value

/-- The tokens up to the first star or step, which settles every value. -/
def untilSettled : List CronToken → List CronToken
  | [] => []
  | .literal candidate :: tokens => .literal candidate :: untilSettled tokens
  | token :: _ => [token]

/-- The tokens after the first star or step. -/
def afterSettled : List CronToken → List CronToken
  | [] => []
  | .literal _ :: tokens => afterSettled tokens
  | _ :: tokens => tokens

/-- If a token after the first star or step covers the value, then that one or
a literal before it covers it too. -/
def StepSettles (tokens : List CronToken) (value : Nat) : Prop :=
  unionCovers (afterSettled tokens) value = true → unionCovers (untilSettled tokens) value = true

theorem untilSettled_append_afterSettled (tokens : List CronToken) :
    untilSettled tokens ++ afterSettled tokens = tokens := by
  induction tokens with
  | nil => rfl
  | cons token tokens ih =>
      cases token with
      | literal candidate => exact congrArg (CronToken.literal candidate :: ·) ih
      | star | step => rfl

theorem unionCovers_eq_or (tokens : List CronToken) (value : Nat) :
    unionCovers tokens value =
      (unionCovers (untilSettled tokens) value || unionCovers (afterSettled tokens) value) := by
  have hany : unionCovers (untilSettled tokens ++ afterSettled tokens) value =
      (unionCovers (untilSettled tokens) value || unionCovers (afterSettled tokens) value) :=
    List.any_append
  rwa [untilSettled_append_afterSettled] at hany

/-- A field of well-formed tokens says what those up to the first star or step
cover. -/
theorem settle_map_some (tokens : List CronToken) (value : Nat) :
    settle value (tokens.map some) = some (unionCovers (untilSettled tokens) value) := by
  induction tokens with
  | nil => rfl
  | cons token tokens ih =>
      cases token with
      | star => rfl
      | step n => simp [settle, CronToken.verdict, untilSettled, unionCovers, CronToken.covers]
      | literal candidate =>
          by_cases hvalue : value = candidate
          · simp [settle, CronToken.verdict, untilSettled, unionCovers, CronToken.covers, hvalue]
          · simp only [List.map_cons, settle, CronToken.verdict, hvalue, if_false, ih]
            simp [untilSettled, unionCovers, CronToken.covers, hvalue]

/-- The search agrees with the union just where the step settles. -/
theorem untilSettled_eq_iff (tokens : List CronToken) (value : Nat) :
    unionCovers (untilSettled tokens) value = unionCovers tokens value ↔
      StepSettles tokens value := by
  rw [unionCovers_eq_or tokens, StepSettles]
  cases unionCovers (untilSettled tokens) value <;>
    cases unionCovers (afterSettled tokens) value <;> simp

/-- Every part of the field is empty or a valid token. -/
def ValidField (range : FieldRange) (fieldSpec : String) : Prop :=
  ∀ token ∈ readField range fieldSpec, token.isSome = true

instance (range : FieldRange) (fieldSpec : String) : Decidable (ValidField range fieldSpec) :=
  inferInstanceAs (Decidable (∀ token ∈ readField range fieldSpec, token.isSome = true))

/-- The valid tokens of a field in order. -/
def validTokens (range : FieldRange) (fieldSpec : String) : List CronToken :=
  (readField range fieldSpec).filterMap id

variable {range : FieldRange} {fieldSpec fieldSpec' : String} {value : Nat}

theorem ValidField.readField_eq (hvalid : ValidField range fieldSpec) :
    readField range fieldSpec = (validTokens range fieldSpec).map some := by
  unfold validTokens
  unfold ValidField at hvalid
  generalize readField range fieldSpec = tokens at *
  induction tokens with
  | nil => rfl
  | cons token tokens ih =>
      rw [List.forall_mem_cons] at hvalid
      obtain ⟨token, rfl⟩ := Option.isSome_iff_exists.mp hvalid.1
      exact congrArg (some token :: ·) (ih hvalid.2)

theorem ValidField.fieldMatches_eq (hvalid : ValidField range fieldSpec) (value : Nat) :
    fieldMatches value fieldSpec range =
      .ok (unionCovers (untilSettled (validTokens range fieldSpec)) value) := by
  apply Except.eq_ok_of_toOption
  rw [toOption_fieldMatches, hvalid.readField_eq, settle_map_some]

theorem ValidField.fieldMatches_eq_union_iff (hvalid : ValidField range fieldSpec) :
    fieldMatches value fieldSpec range = .ok (unionCovers (validTokens range fieldSpec) value) ↔
      StepSettles (validTokens range fieldSpec) value := by
  rw [hvalid.fieldMatches_eq, Except.ok.injEq, untilSettled_eq_iff]

/-- The union does not depend on the order of the tokens or on repetitions. -/
theorem unionCovers_congr {tokens tokens' : List CronToken}
    (hsame : ∀ token, token ∈ tokens ↔ token ∈ tokens') :
    unionCovers tokens value = unionCovers tokens' value := by
  rw [Bool.eq_iff_iff]
  simp only [unionCovers, List.any_eq_true, hsame]

theorem ValidField.fieldMatches_congr_iff (hvalid : ValidField range fieldSpec)
    (hvalid' : ValidField range fieldSpec')
    (hsame : ∀ token, token ∈ validTokens range fieldSpec ↔ token ∈ validTokens range fieldSpec') :
    fieldMatches value fieldSpec range = fieldMatches value fieldSpec' range ↔
      (StepSettles (validTokens range fieldSpec) value ↔
        StepSettles (validTokens range fieldSpec') value) := by
  rw [hvalid.fieldMatches_eq, hvalid'.fieldMatches_eq, Except.ok.injEq]
  have hunion : unionCovers (validTokens range fieldSpec) value =
      unionCovers (validTokens range fieldSpec') value := unionCovers_congr hsame
  rw [unionCovers_eq_or, unionCovers_eq_or (validTokens range fieldSpec')] at hunion
  unfold StepSettles
  revert hunion
  generalize unionCovers (untilSettled (validTokens range fieldSpec)) value = first
  generalize unionCovers (afterSettled (validTokens range fieldSpec)) value = rest
  generalize unionCovers (untilSettled (validTokens range fieldSpec')) value = first'
  generalize unionCovers (afterSettled (validTokens range fieldSpec')) value = rest'
  revert first rest first' rest'
  decide

namespace FieldCheck

def Valid (check : FieldCheck) : Prop := ValidField check.range check.fieldSpec

/-- The value is covered by some token of the field. -/
def covered (check : FieldCheck) : Bool :=
  unionCovers (validTokens check.range check.fieldSpec) check.value

def StepSettled (check : FieldCheck) : Prop :=
  StepSettles (validTokens check.range check.fieldSpec) check.value

theorem settled_eq {check : FieldCheck} (hvalid : check.Valid) :
    check.settled =
      some (unionCovers (untilSettled (validTokens check.range check.fieldSpec)) check.value) := by
  rw [settled, tokens, ValidField.readField_eq hvalid, settle_map_some]

/-- A field that covers its value says so just where the step settles. -/
theorem settled_eq_true_iff {check : FieldCheck} (hvalid : check.Valid) :
    check.settled = some true ↔ check.covered = true ∧ check.StepSettled := by
  rw [settled_eq hvalid, Option.some.injEq, covered, StepSettled, StepSettles,
    unionCovers_eq_or (validTokens check.range check.fieldSpec)]
  cases unionCovers (untilSettled (validTokens check.range check.fieldSpec)) check.value <;> simp

theorem settleAll_eq {checks : List FieldCheck} (hvalid : ∀ check ∈ checks, check.Valid) :
    settleAll checks = some (checks.all fun check => check.settled = some true) := by
  induction checks with
  | nil => rfl
  | cons check checks ih =>
      rw [List.forall_mem_cons] at hvalid
      rw [settleAll, ih hvalid.2, settled_eq hvalid.1, List.all_cons, settled_eq hvalid.1]
      cases unionCovers (untilSettled (validTokens check.range check.fieldSpec)) check.value <;>
        simp

/-- Fields that all cover their values say so just where the steps settle. -/
theorem settleAll_eq_covered_iff {checks : List FieldCheck}
    (hvalid : ∀ check ∈ checks, check.Valid) :
    settleAll checks = some (checks.all covered) ↔
      (checks.all covered = true → ∀ check ∈ checks, check.StepSettled) := by
  rw [settleAll_eq hvalid, Option.some.injEq, Bool.eq_iff_iff]
  simp only [List.all_eq_true, decide_eq_true_eq]
  constructor
  · intro hiff hcovered check hcheck
    exact ((settled_eq_true_iff (hvalid check hcheck)).mp (hiff.mpr hcovered check hcheck)).2
  · intro hsettled
    constructor
    · intro hall check hcheck
      exact ((settled_eq_true_iff (hvalid check hcheck)).mp (hall check hcheck)).1
    · intro hcovered check hcheck
      exact (settled_eq_true_iff (hvalid check hcheck)).mpr
        ⟨hcovered check hcheck, hsettled hcovered check hcheck⟩

end FieldCheck

namespace CronSchedule

/-- All five fields are made of valid tokens. -/
def Valid (schedule : CronSchedule) : Prop :=
  ValidField minuteRange schedule.minute ∧ ValidField hourRange schedule.hour ∧
    ValidField dayRange schedule.day ∧ ValidField monthRange schedule.month ∧
    ValidField weekdayRange schedule.weekday

/-- The time is covered by all five fields. -/
def covers (schedule : CronSchedule) (t : Time) : Bool :=
  (schedule.checks t).all FieldCheck.covered

theorem Valid.checks {schedule : CronSchedule} (hvalid : schedule.Valid) (t : Time) :
    ∀ check ∈ schedule.checks t, check.Valid := by
  obtain ⟨hminute, hhour, hday, hmonth, hweekday⟩ := hvalid
  simp only [CronSchedule.checks, List.forall_mem_cons]
  exact ⟨hminute, hhour, hday, hmonth, hweekday, List.forall_mem_nil _⟩

theorem Valid.matchesAt_eq_covers_iff {schedule : CronSchedule} (hvalid : schedule.Valid)
    (t : Time) :
    schedule.matchesAt t = .ok (schedule.covers t) ↔
      (schedule.covers t = true → ∀ check ∈ schedule.checks t, check.StepSettled) := by
  rw [covers, ← FieldCheck.settleAll_eq_covered_iff (hvalid.checks t), ← toOption_matchesAt]
  constructor
  · intro hmatches
    rw [hmatches]
    rfl
  · exact Except.eq_ok_of_toOption

end CronSchedule

/-- A field of valid tokens is their union at a value just where the first star
or step settles it; two fields of the same tokens agree at a value just where it
is settled in both or in neither; and a schedule is the conjunction of the five
unions at a time just where none of them stands on an unsettled value. -/
theorem cron_fields_unite_iff (range : FieldRange) (fieldSpec fieldSpec' : String) (value : Nat)
    (schedule : CronSchedule) (when : Datetime) (t : Time) :
    (ValidField range fieldSpec →
      (fieldMatches value fieldSpec range =
          .ok (unionCovers (validTokens range fieldSpec) value) ↔
        StepSettles (validTokens range fieldSpec) value)) ∧
    (ValidField range fieldSpec → ValidField range fieldSpec' →
      (∀ token, token ∈ validTokens range fieldSpec ↔ token ∈ validTokens range fieldSpec') →
      (fieldMatches value fieldSpec range = fieldMatches value fieldSpec' range ↔
        (StepSettles (validTokens range fieldSpec) value ↔
          StepSettles (validTokens range fieldSpec') value))) ∧
    (schedule.Valid → normalizeNow 0 (some when) = .ok t →
      (schedule.matchesWhen when = .ok (schedule.covers t) ↔
        (schedule.covers t = true → ∀ check ∈ schedule.checks t, check.StepSettled))) := by
  refine ⟨?_, ?_, ?_⟩
  · intro hvalid
    exact hvalid.fieldMatches_eq_union_iff
  · intro hvalid hvalid' hsame
    exact hvalid.fieldMatches_congr_iff hvalid' hsame
  · intro hvalid hnow
    rw [CronSchedule.matchesWhen_of_normalizeNow hnow]
    exact hvalid.matchesAt_eq_covers_iff t

/-- Literals only: the field is the union of its tokens. -/
theorem cron_fields_unite_iff_literals :
    fieldMatches 30 "1,15,30" CronSchedule.minuteRange = .ok true := by
  have htokens : validTokens CronSchedule.minuteRange "1,15,30" =
      [.literal 1, .literal 15, .literal 30] := by decide +kernel
  have hfield := ((cron_fields_unite_iff CronSchedule.minuteRange "1,15,30" "" 30
    ⟨"", "", "", "", "", ""⟩ .firstMoment 0).1 (by decide +kernel)).mpr
  rw [htokens] at hfield
  exact hfield nofun

/-- Every fifth minute or minute 7: minute 7 is missed. -/
theorem step_before_literal_missed :
    ¬ ∀ range fieldSpec value, ValidField range fieldSpec → range.minimum ≤ value →
      value ≤ range.maximum →
        fieldMatches value fieldSpec range =
          .ok (unionCovers (validTokens range fieldSpec) value) := by
  intro hunion
  have hfield := hunion CronSchedule.minuteRange "*/5,7" 7 (by decide +kernel) (by decide)
    (by decide)
  have hsays : (fieldMatches 7 "*/5,7" CronSchedule.minuteRange).toOption = some false := by
    decide +kernel
  have hcovers : unionCovers (validTokens CronSchedule.minuteRange "*/5,7") 7 = true := by
    decide +kernel
  rw [hfield, hcovers] at hsays
  cases hsays

end Conductor
