/-
Cron schedules of five fields.  The source reads the tokens of a field each
time it matches a value; what it finds is a list of tokens, some of them
malformed, and the field says yes, no or raises as the first token that settles
the value does.
-/
import Conductor.Python.Calendar
import Conductor.Python.Text

namespace Conductor

/-- `_normalize_now`, over the reading of the clock. -/
def normalizeNow (clock : Time) : Option Datetime → Except PyExc Time
  | none => .ok clock
  | some now =>
      match now.utcoffset with
      | none => .ok now.clock
      | some offset => Datetime.astimezoneUtc now.clock offset

/-- The keyword arguments of `_field_matches`. -/
structure FieldRange where
  minimum : Nat
  maximum : Nat
  allowWeekday7 : Bool

/-- The parts between commas, stripped. -/
def fieldParts (fieldSpec : String) : List (List Char) :=
  (fieldSpec.toList.splitOn ',').map stripped

/-- What follows the prefix of a step token. -/
def stepText : List Char → Option (List Char)
  | '*' :: '/' :: stepStr => some stepStr
  | _ => none

/-- One round of the loop over the tokens: it returns a verdict, or the loop
goes on, or it raises. -/
def matchToken (value : Nat) (fieldSpec : String) (range : FieldRange) (token : List Char) :
    Except PyExc (Option Bool) :=
  if token.isEmpty then .ok none
  else if token = ['*'] then .ok (some true)
  else
    match stepText token with
    | some stepStr =>
        if isdigit stepStr then do
          let step ← intOfDigits stepStr
          if step = 0 then
            .error (.valueError ("Step must be > 0 in " ++ pyRepr (String.ofList token)))
          else .ok (some (value % step == 0))
        else .error (.valueError ("Invalid step value " ++ pyRepr (String.ofList token)))
    | none =>
        if isdigit token then do
          let number ← intOfDigits token
          let candidate := if range.allowWeekday7 && number == 7 then 0 else number
          if candidate < range.minimum ∨ range.maximum < candidate then
            .error (.valueError ("Value " ++ toString candidate ++ " out of range for field " ++
              pyRepr fieldSpec))
          else if value = candidate then .ok (some true)
          else .ok none
        else .error (.valueError ("Unsupported cron token " ++ pyRepr (String.ofList token)))

def matchTokens (value : Nat) (fieldSpec : String) (range : FieldRange) :
    List (List Char) → Except PyExc Bool
  | [] => .ok false
  | token :: tokens => do
      match ← matchToken value fieldSpec range token with
      | some verdict => .ok verdict
      | none => matchTokens value fieldSpec range tokens

/-- `_field_matches`. -/
def fieldMatches (value : Nat) (fieldSpec : String) (range : FieldRange) : Except PyExc Bool :=
  matchTokens value fieldSpec range (fieldParts fieldSpec)

structure CronSchedule where
  expression : String
  minute : String
  hour : String
  day : String
  month : String
  weekday : String
deriving DecidableEq

namespace CronSchedule

def minuteRange : FieldRange := ⟨0, 59, false⟩

def hourRange : FieldRange := ⟨0, 23, false⟩

def dayRange : FieldRange := ⟨1, 31, false⟩

def monthRange : FieldRange := ⟨1, 12, false⟩

def weekdayRange : FieldRange := ⟨0, 6, true⟩

/-- `first and second` of two calls, the second of which may not be made. -/
def andThen (first second : Except PyExc Bool) : Except PyExc Bool := do
  if ← first then second else .ok false

/-- `matches` of a normalized time. -/
def matchesAt (schedule : CronSchedule) (check : Time) : Except PyExc Bool :=
  -- Monday is 0 for `datetime`, and Sunday is 0 for cron.
  let weekday := (weekdayOf check + 1) % 7
  andThen (fieldMatches (minuteOf check) schedule.minute minuteRange)
    (andThen (fieldMatches (hourOf check) schedule.hour hourRange)
      (andThen (fieldMatches (dateOf check).day schedule.day dayRange)
        (andThen (fieldMatches (dateOf check).month schedule.month monthRange)
          (fieldMatches weekday schedule.weekday weekdayRange))))

/-- `matches`.  The clock is not read for a datetime that is given. -/
def matchesWhen (schedule : CronSchedule) (when : Datetime) : Except PyExc Bool := do
  let check ← normalizeNow 0 (some when)
  schedule.matchesAt check

/-- `datetime(2026, 1, 1, tzinfo=UTC)`. -/
def newYear2026 : Datetime := .utc 63902822400000000 (by decide)

/-- `CronSchedule(expression)`: the fields are tried once. -/
def ofExpression (expression : String) : Except PyExc CronSchedule :=
  match (splitWords expression.toList).map String.ofList with
  | [minute, hour, day, month, weekday] => do
      let schedule : CronSchedule := ⟨expression, minute, hour, day, month, weekday⟩
      let _ ← schedule.matchesWhen newYear2026
      .ok schedule
  | _ => .error (.valueError "Cron expression must have 5 fields: minute hour day month weekday")

example : dateOf 63902822400000000 = ⟨2026, 1, 1⟩ ∧ weekdayOf 63902822400000000 = 3 := by
  decide +kernel

end CronSchedule

/-- A token that a field may have. -/
inductive CronToken where
  | star
  | step (n : Nat)
  | literal (value : Nat)
deriving DecidableEq

namespace CronToken

/-- The values that a token stands for. -/
def covers : CronToken → Nat → Bool
  | star, _ => true
  | step n, value => value % n == 0
  | literal candidate, value => value == candidate

/-- What a token settles by itself: a literal only that its value matches. -/
def verdict : CronToken → Nat → Option Bool
  | star, _ => some true
  | step n, value => some (value % n == 0)
  | literal candidate, value => if value = candidate then some true else none

/-- The number that a text of digits writes. -/
def readNumber (text : List Char) : Option Nat :=
  if isdigit text then (intOfDigits text).toOption else none

/-- The token that a text writes, if it is well formed and in range. -/
def read (range : FieldRange) (token : List Char) : Option CronToken :=
  if token = ['*'] then some star
  else
    match stepText token with
    | some stepStr => (readNumber stepStr).bind fun n => if n = 0 then none else some (step n)
    | none =>
        (readNumber token).bind fun number =>
          let candidate := if range.allowWeekday7 && number == 7 then 0 else number
          if candidate < range.minimum ∨ range.maximum < candidate then none
          else some (literal candidate)

end CronToken

/-- The tokens of a field in order; a malformed one is `none`, and empty parts
are left out. -/
def readField (range : FieldRange) (fieldSpec : String) : List (Option CronToken) :=
  ((fieldParts fieldSpec).filter fun part => !part.isEmpty).map (CronToken.read range)

/-- The first token that settles the value decides; a malformed token that the
search comes to is `none`. -/
def settle (value : Nat) : List (Option CronToken) → Option Bool
  | [] => some false
  | none :: _ => none
  | some token :: tokens =>
      match token.verdict value with
      | some verdict => some verdict
      | none => settle value tokens

variable {value : Nat} {fieldSpec : String} {range : FieldRange}

theorem toOption_matchToken {token : List Char} (htoken : token.isEmpty = false) :
    (matchToken value fieldSpec range token).toOption =
      (CronToken.read range token).map fun t => t.verdict value := by
  simp only [matchToken, htoken, Bool.false_eq_true, if_false]
  unfold CronToken.read CronToken.readNumber
  split
  · rfl
  · split
    · split
      · rename_i stepStr _ _
        cases intOfDigits stepStr with
        | error e => rfl
        | ok step =>
            by_cases hstep : step = 0 <;>
              simp [hstep, bind, Except.bind, Except.toOption, CronToken.verdict]
      · rfl
    · split
      · cases intOfDigits token with
        | error e => rfl
        | ok number =>
            have hnumber : (Except.ok number : Except PyExc Nat).toOption = some number := rfl
            simp only [bind, Except.bind, hnumber, Option.bind_some]
            generalize (if (range.allowWeekday7 && number == 7) = true then 0 else number) = n
            by_cases hrange : n < range.minimum ∨ range.maximum < n
            · simp [hrange, Except.toOption]
            · by_cases hvalue : value = n <;>
                simp [hrange, hvalue, Except.toOption, CronToken.verdict]
      · rfl

/-- What the source does with a field is told by its tokens. -/
theorem toOption_fieldMatches :
    (fieldMatches value fieldSpec range).toOption = settle value (readField range fieldSpec) := by
  unfold fieldMatches readField
  induction fieldParts fieldSpec with
  | nil => rfl
  | cons part parts ih =>
      rw [matchTokens]
      by_cases hpart : part.isEmpty
      · rw [List.filter_cons_of_neg (by simp [hpart])]
        simp only [matchToken, hpart, if_true]
        exact ih
      · rw [Bool.not_eq_true] at hpart
        have hround : (matchToken value fieldSpec range part).toOption =
            (CronToken.read range part).map fun t => t.verdict value := toOption_matchToken hpart
        rw [List.filter_cons_of_pos (by simp [hpart]), List.map_cons]
        cases hread : CronToken.read range part with
        | none =>
            rw [hread] at hround
            cases hmatch : matchToken value fieldSpec range part with
            | error e => rfl
            | ok verdict => rw [hmatch] at hround; cases hround
        | some token =>
            rw [hread] at hround
            cases hmatch : matchToken value fieldSpec range part with
            | error e => rw [hmatch] at hround; cases hround
            | ok verdict =>
                rw [hmatch] at hround
                have hverdict : verdict = token.verdict value := Option.some.inj hround
                rw [settle, ← hverdict]
                cases verdict with
                | none => exact ih
                | some verdict => rfl

/-- A field with the value it is tried on. -/
structure FieldCheck where
  value : Nat
  fieldSpec : String
  range : FieldRange

namespace FieldCheck

def tokens (check : FieldCheck) : List (Option CronToken) := readField check.range check.fieldSpec

/-- What the field says of its value. -/
def settled (check : FieldCheck) : Option Bool := settle check.value check.tokens

/-- What fields in a row say: the first that does not match ends the search. -/
def settleAll : List FieldCheck → Option Bool
  | [] => some true
  | check :: checks =>
      match check.settled with
      | some true => settleAll checks
      | verdict => verdict

end FieldCheck

namespace CronSchedule

/-- The fields in the order they are tried. -/
def checks (schedule : CronSchedule) (t : Time) : List FieldCheck :=
  [⟨minuteOf t, schedule.minute, minuteRange⟩, ⟨hourOf t, schedule.hour, hourRange⟩,
    ⟨(dateOf t).day, schedule.day, dayRange⟩, ⟨(dateOf t).month, schedule.month, monthRange⟩,
    ⟨(weekdayOf t + 1) % 7, schedule.weekday, weekdayRange⟩]

theorem toOption_andThen {first second : Except PyExc Bool} :
    (andThen first second).toOption =
      match first.toOption with
      | some true => second.toOption
      | verdict => verdict := by
  cases first with
  | error e => rfl
  | ok verdict => cases verdict <;> rfl

/-- What the source does with a schedule is told by the tokens of its fields. -/
theorem toOption_matchesAt (schedule : CronSchedule) (t : Time) :
    (schedule.matchesAt t).toOption = FieldCheck.settleAll (schedule.checks t) := by
  have hlast (verdict : Option Bool) : (match verdict with
      | some true => some true
      | verdict => verdict) = verdict := by
    rcases verdict with _ | _ | _ <;> rfl
  simp only [matchesAt, toOption_andThen, toOption_fieldMatches, checks, FieldCheck.settleAll,
    FieldCheck.settled, FieldCheck.tokens, hlast]

theorem matchesWhen_of_normalizeNow {schedule : CronSchedule} {when : Datetime} {t : Time}
    (hnow : normalizeNow 0 (some when) = .ok t) :
    schedule.matchesWhen when = schedule.matchesAt t :=
  bind_of_ok hnow _

end CronSchedule

end Conductor
