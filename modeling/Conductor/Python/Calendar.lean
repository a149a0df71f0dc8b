/-
The calendar of `datetime`: the proleptic Gregorian one, from year 1 on.  Days
are numbered from 0, the first of January of year 1, and a time on the UTC clock
counts the microseconds since that day began.
-/
import Mathlib.Algebra.GroupWithZero.Nat
import Mathlib.Data.Nat.Notation
import Mathlib.Tactic.Common
import Conductor.Python.Value

namespace Conductor

def isLeap (year : Nat) : Bool :=
  year % 4 == 0 && (year % 100 != 0 || year % 400 == 0)

/-- The length of a month of a leap year or another year. -/
def monthLength (leap : Bool) (month : Nat) : Nat :=
  if month = 2 then if leap then 29 else 28
  else if month = 4 ∨ month = 6 ∨ month = 9 ∨ month = 11 then 30
  else 31

def daysInMonth (year month : Nat) : Nat := monthLength (isLeap year) month

/-- The days of a year before a month. -/
def daysBeforeMonth (leap : Bool) (month : Nat) : Nat :=
  ((List.range (month - 1)).map fun m => monthLength leap (m + 1)).sum

def daysBeforeYear (year : Nat) : Nat :=
  let y := year - 1
  y * 365 + y / 4 - y / 100 + y / 400

structure CalendarDate where
  year : Nat
  month : Nat
  day : Nat
deriving DecidableEq, Repr

/-- `date.toordinal() - 1`. -/
def CalendarDate.number (date : CalendarDate) : Nat :=
  daysBeforeYear date.year + daysBeforeMonth (isLeap date.year) date.month + (date.day - 1)

/-- Month and day of a day of the year, counted from 0.  The first guess is at
most one month too far. -/
def monthAndDay (leap : Bool) (n : Nat) : Nat × Nat :=
  let month := (n + 50) / 32
  if n < daysBeforeMonth leap month then (month - 1, n - daysBeforeMonth leap (month - 1) + 1)
  else (month, n - daysBeforeMonth leap month + 1)

/-- `date.fromordinal(n + 1)`: cycles of 400, 100, 4 years and 1 year. -/
def dateOfNumber (n : Nat) : CalendarDate :=
  let n400 := n / 146097
  let n := n % 146097
  let n100 := n / 36524
  let n := n % 36524
  let n4 := n / 1461
  let n := n % 1461
  let n1 := n / 365
  let n := n % 365
  let year := n400 * 400 + 1 + n100 * 100 + n4 * 4 + n1
  -- The last day of a cycle of 4 or of 400 years.
  if n1 = 4 ∨ n100 = 4 then ⟨year - 1, 12, 31⟩
  else
    let leap := n1 = 3 && (n4 != 24 || n100 = 3)
    let monthDay := monthAndDay leap n
    ⟨year, monthDay.1, monthDay.2⟩

/-- The fields name a day. -/
structure CalendarDate.Valid (date : CalendarDate) : Prop where
  month_pos : 1 ≤ date.month
  month_le : date.month ≤ 12
  day_pos : 1 ≤ date.day
  day_le : date.day ≤ daysInMonth date.year date.month

theorem monthAndDay_spec : ∀ leap : Bool, ∀ n < if leap then 366 else 365,
    1 ≤ (monthAndDay leap n).1 ∧ (monthAndDay leap n).1 ≤ 12 ∧ 1 ≤ (monthAndDay leap n).2 ∧
      (monthAndDay leap n).2 ≤ monthLength leap (monthAndDay leap n).1 ∧
      daysBeforeMonth leap (monthAndDay leap n).1 + ((monthAndDay leap n).2 - 1) = n := by
  decide +kernel

/-- The days before a year by its place in the cycles. -/
theorem daysBeforeYear_cycles {a b c d : Nat} (hb : b ≤ 3) (hc : c ≤ 24) (hd : d ≤ 3) :
    daysBeforeYear (a * 400 + 1 + b * 100 + c * 4 + d) =
      146097 * a + 36524 * b + 1461 * c + 365 * d := by
  have h4 : (a * 400 + b * 100 + c * 4 + d) / 4 = a * 100 + b * 25 + c := by omega
  have h100 : (a * 400 + b * 100 + c * 4 + d) / 100 = a * 4 + b := by omega
  have h400 : (a * 400 + b * 100 + c * 4 + d) / 400 = a := by omega
  have hyear : a * 400 + 1 + b * 100 + c * 4 + d - 1 = a * 400 + b * 100 + c * 4 + d := by omega
  simp only [daysBeforeYear, hyear, h4, h100, h400]
  omega

theorem isLeap_cycles {a b c d : Nat} (hb : b ≤ 3) (hc : c ≤ 24) (hd : d ≤ 3) :
    isLeap (a * 400 + 1 + b * 100 + c * 4 + d) = (d = 3 && (c != 24 || b = 3)) := by
  rw [Bool.eq_iff_iff]
  simp only [isLeap, Bool.and_eq_true, Bool.or_eq_true, beq_iff_eq, bne_iff_ne, ne_eq,
    decide_eq_true_eq]
  omega

/-- Every day number is the number of its date. -/
theorem dateOfNumber_spec (n : Nat) :
    (dateOfNumber n).Valid ∧ (dateOfNumber n).number = n := by
  obtain ⟨a, r, hr, rfl⟩ : ∃ a r, r < 146097 ∧ n = 146097 * a + r :=
    ⟨n / 146097, n % 146097, by omega, by omega⟩
  obtain ⟨b, s, hs, rfl⟩ : ∃ b s, s < 36524 ∧ r = 36524 * b + s :=
    ⟨r / 36524, r % 36524, by omega, by omega⟩
  obtain ⟨c, t, ht, rfl⟩ : ∃ c t, t < 1461 ∧ s = 1461 * c + t :=
    ⟨s / 1461, s % 1461, by omega, by omega⟩
  obtain ⟨d, u, hu, rfl⟩ : ∃ d u, u < 365 ∧ t = 365 * d + u :=
    ⟨t / 365, t % 365, by omega, by omega⟩
  have h400 : (146097 * a + (36524 * b + (1461 * c + (365 * d + u)))) / 146097 = a := by omega
  have h400' : (146097 * a + (36524 * b + (1461 * c + (365 * d + u)))) % 146097 =
    36524 * b + (1461 * c + (365 * d + u)) := by omega
  have h100 : (36524 * b + (1461 * c + (365 * d + u))) / 36524 = b := by omega
  have h100' : (36524 * b + (1461 * c + (365 * d + u))) % 36524 =
    1461 * c + (365 * d + u) := by omega
  have h4 : (1461 * c + (365 * d + u)) / 1461 = c := by omega
  have h4' : (1461 * c + (365 * d + u)) % 1461 = 365 * d + u := by omega
  have h1 : (365 * d + u) / 365 = d := by omega
  have h1' : (365 * d + u) % 365 = u := by omega
  simp only [dateOfNumber, h400, h400', h100, h100', h4, h4', h1, h1']
  by_cases hlast : d = 4 ∨ b = 4
  · -- The year that ends here is one back: the fourth of its cycle.
    rw [if_pos hlast]
    have hyear : ∃ b' c', b' ≤ 3 ∧ c' ≤ 24 ∧ (c' = 24 → b' = 3) ∧
        a * 400 + 1 + b * 100 + c * 4 + d - 1 = a * 400 + 1 + b' * 100 + c' * 4 + 3 ∧
        36524 * b + 1461 * c + 365 * d + u = 36524 * b' + 1461 * c' + 365 * 3 + 365 := by
      rcases hlast with hd | hb
      · exact ⟨b, c, by omega, by omega, by omega, by omega, by omega⟩
      · exact ⟨3, 24, by omega, by omega, by omega, by omega, by omega⟩
    obtain ⟨b', c', hb', hc', hcentury, heq, hsum⟩ := hyear
    rw [heq]
    have hleap : isLeap (a * 400 + 1 + b' * 100 + c' * 4 + 3) = true := by
      rw [isLeap_cycles hb' hc' le_rfl]
      simp only [decide_true, Bool.true_and, Bool.or_eq_true, bne_iff_ne, ne_eq,
        decide_eq_true_eq]
      omega
    have hbefore : daysBeforeMonth true 12 = 335 := by decide
    have hlength : monthLength true 12 = 31 := by decide
    refine ⟨⟨(by decide : 1 ≤ 12), (by decide : 12 ≤ 12), (by decide : 1 ≤ 31), ?_⟩, ?_⟩
    · simp only [daysInMonth, hleap, hlength]
      exact le_rfl
    · simp only [CalendarDate.number, daysBeforeYear_cycles hb' hc' le_rfl, hleap, hbefore]
      omega
  · rw [if_neg hlast]
    have hb : b ≤ 3 := by omega
    have hc : c ≤ 24 := by omega
    have hd : d ≤ 3 := by omega
    have hleap := isLeap_cycles (a := a) hb hc hd
    have hbound : u < if (d = 3 && (c != 24 || b = 3)) then 366 else 365 := by
      split <;> omega
    obtain ⟨hpos, hle, hday, hlast, hnumber⟩ := monthAndDay_spec _ u hbound
    refine ⟨⟨hpos, hle, hday, ?_⟩, ?_⟩
    · rw [daysInMonth, hleap]
      exact hlast
    · simp only [CalendarDate.number, daysBeforeYear_cycles hb hc hd, hleap]
      omega

theorem dateOfNumber_injective {n m : Nat} (hdate : dateOfNumber n = dateOfNumber m) : n = m := by
  rw [← (dateOfNumber_spec n).2, hdate, (dateOfNumber_spec m).2]

theorem daysBeforeYear_succ {year : Nat} (hyear : 1 ≤ year) :
    daysBeforeYear (year + 1) = daysBeforeYear year + if isLeap year then 366 else 365 := by
  obtain ⟨y, rfl⟩ : ∃ y, year = y + 1 := ⟨year - 1, (Nat.sub_add_cancel hyear).symm⟩
  have h4 : (y + 1) / 4 = y / 4 + if (y + 1) % 4 = 0 then 1 else 0 := by split <;> omega
  have h100 : (y + 1) / 100 = y / 100 + if (y + 1) % 100 = 0 then 1 else 0 := by split <;> omega
  have h400 : (y + 1) / 400 = y / 400 + if (y + 1) % 400 = 0 then 1 else 0 := by split <;> omega
  have hle : y / 100 ≤ y / 4 := by omega
  have h100' : (y + 1) % 100 = 0 → (y + 1) % 4 = 0 := by omega
  have h400' : (y + 1) % 400 = 0 → (y + 1) % 100 = 0 := by omega
  simp only [daysBeforeYear, Nat.add_sub_cancel, h4, h100, h400, isLeap, Bool.and_eq_true,
    Bool.or_eq_true, beq_iff_eq, bne_iff_ne, ne_eq]
  clear h4 h100 h400
  generalize y / 4 = a at *
  generalize y / 100 = b at *
  generalize y / 400 = c at *
  by_cases hfour : (y + 1) % 4 = 0 <;> by_cases hhundred : (y + 1) % 100 = 0 <;>
    by_cases hcycle : (y + 1) % 400 = 0 <;> simp_all <;> omega

theorem daysBeforeYear_mono {year later : Nat} (hyear : 1 ≤ year) (hle : year ≤ later) :
    daysBeforeYear year ≤ daysBeforeYear later := by
  induction later, hle using Nat.le_induction with
  | base => exact le_rfl
  | succ later hle ih =>
      rw [daysBeforeYear_succ (hyear.trans hle)]
      omega

theorem monthAndDay_daysBeforeMonth : ∀ leap : Bool, ∀ month < 12,
    ∀ day < monthLength leap (month + 1),
      daysBeforeMonth leap (month + 1) + day < (if leap then 366 else 365) ∧
        monthAndDay leap (daysBeforeMonth leap (month + 1) + day) = (month + 1, day + 1) := by
  decide +kernel

/-- A day of the calendar lies in its year, where it is found by its number. -/
theorem CalendarDate.Valid.number_lt {date : CalendarDate} (hvalid : date.Valid) :
    daysBeforeMonth (isLeap date.year) date.month + (date.day - 1) <
        (if isLeap date.year then 366 else 365) ∧
      monthAndDay (isLeap date.year)
          (daysBeforeMonth (isLeap date.year) date.month + (date.day - 1)) =
        (date.month, date.day) := by
  obtain ⟨hmonth, hmonth', hday, hday'⟩ := hvalid
  obtain ⟨year, month, day⟩ := date
  obtain ⟨month, rfl⟩ : ∃ m, month = m + 1 := ⟨month - 1, (Nat.sub_add_cancel hmonth).symm⟩
  obtain ⟨day, rfl⟩ : ∃ d, day = d + 1 := ⟨day - 1, (Nat.sub_add_cancel hday).symm⟩
  exact monthAndDay_daysBeforeMonth (isLeap year) month hmonth' day hday'

theorem CalendarDate.Valid.year_le {date date' : CalendarDate} (hvalid : date.Valid)
    (hyear : 1 ≤ date.year) (hnumber : date'.number = date.number) :
    date'.year ≤ date.year := by
  by_contra hlt
  have hmono : daysBeforeYear (date.year + 1) ≤ daysBeforeYear date'.year :=
    daysBeforeYear_mono (by omega) (by omega)
  rw [daysBeforeYear_succ hyear] at hmono
  have hday := hvalid.number_lt.1
  simp only [CalendarDate.number] at hnumber
  omega

/-- A date is the date of its number. -/
theorem dateOfNumber_number {date : CalendarDate} (hvalid : date.Valid) (hyear : 1 ≤ date.year) :
    dateOfNumber date.number = date := by
  obtain ⟨hfound, hnumber⟩ := dateOfNumber_spec date.number
  have hpos : 1 ≤ (dateOfNumber date.number).year := by
    simp only [dateOfNumber]
    split
    · simp only
      omega
    · simp only
      omega
  have hsame : (dateOfNumber date.number).year = date.year :=
    le_antisymm (hvalid.year_le hyear hnumber) (hfound.year_le hpos hnumber.symm)
  have hday := hfound.number_lt.2
  have hday' := hvalid.number_lt.2
  generalize dateOfNumber date.number = found at *
  obtain ⟨year, month, day⟩ := found
  obtain ⟨year', month', day'⟩ := date
  cases hsame
  simp only [CalendarDate.number, Nat.add_assoc, Nat.add_left_cancel_iff] at hnumber
  simp only [hnumber, hday', Prod.mk.injEq] at hday
  rw [hday.1, hday.2]

/-- In some leap year the days before it leave each remainder by seven. -/
theorem exists_leapYear : ∀ r < 7, ∃ y < 28,
    isLeap (2000 + y) = true ∧ daysBeforeYear (2000 + y) % 7 = r := by
  decide

/-- Every day of the calendar falls on every weekday. -/
theorem exists_date_on_weekday {month day weekday : Nat} (hmonth : 1 ≤ month) (hmonth' : month ≤ 12)
    (hday : 1 ≤ day) (hday' : day ≤ monthLength true month) (hweekday : weekday < 7) :
    ∃ year, 1 ≤ year ∧ year < 2028 ∧ (⟨year, month, day⟩ : CalendarDate).Valid ∧
      CalendarDate.number ⟨year, month, day⟩ % 7 = weekday := by
  let inYear := daysBeforeMonth true month + (day - 1)
  obtain ⟨y, hy, hleap, hrest⟩ :=
    exists_leapYear ((weekday + 7 - inYear % 7) % 7) (Nat.mod_lt _ (by decide))
  refine ⟨2000 + y, by omega, by omega, ⟨hmonth, hmonth', hday, ?_⟩, ?_⟩
  · rw [daysInMonth, hleap]
    exact hday'
  · have hnumber : CalendarDate.number ⟨2000 + y, month, day⟩ =
        daysBeforeYear (2000 + y) + inYear := by
      simp only [CalendarDate.number, hleap, inYear, Nat.add_assoc]
    rw [hnumber, Nat.add_mod, hrest]
    omega

theorem CalendarDate.Valid.day_le_leap {date : CalendarDate} (hvalid : date.Valid) :
    date.day ≤ monthLength true date.month := by
  refine hvalid.day_le.trans ?_
  unfold daysInMonth
  cases isLeap date.year with
  | true => exact le_rfl
  | false =>
      unfold monthLength
      split <;> simp

def minuteNumber (t : Time) : Nat := t / 60000000

def minuteOf (t : Time) : Nat := minuteNumber t % 60

def hourOf (t : Time) : Nat := minuteNumber t / 60 % 24

def dayNumber (t : Time) : Nat := minuteNumber t / 1440

def dateOf (t : Time) : CalendarDate := dateOfNumber (dayNumber t)

/-- `datetime.weekday()`: Monday is 0. -/
def weekdayOf (t : Time) : Nat := dayNumber t % 7

theorem dateOf_valid (t : Time) : (dateOf t).Valid := (dateOfNumber_spec _).1

theorem minuteOf_lt (t : Time) : minuteOf t < 60 := Nat.mod_lt _ (by decide)

theorem hourOf_lt (t : Time) : hourOf t < 24 := Nat.mod_lt _ (by decide)

/-- The first time after the year 9999. -/
def endOfTime : Nat := 315537897600000000

/-- A datetime: what its own clock shows, and how far that clock is ahead of
UTC where it has a time zone. -/
structure Datetime where
  clock : Time
  utcoffset : Option Int
  clock_lt : clock < endOfTime
  utcoffset_lt : ∀ offset ∈ utcoffset, offset.natAbs < 86400000000

namespace Datetime

/-- A datetime of the UTC time zone. -/
def utc (t : Time) (ht : t < endOfTime) : Datetime := ⟨t, some 0, ht, by simp⟩

/-- The first moment of the calendar. -/
def firstMoment : Datetime := .utc 0 (by decide)

/-- `when.astimezone(UTC)` of a datetime whose clock is `offset` ahead. -/
def astimezoneUtc (clock : Time) (offset : Int) : Except PyExc Time :=
  let t := (clock : Int) - offset
  if 0 ≤ t ∧ t < endOfTime then .ok t.toNat
  else .error (.exception "OverflowError" "date value out of range")

/-- A number with leading zeros. -/
def padded (width n : Nat) : String :=
  String.ofList (List.replicate (width - (toString n).length) '0') ++ toString n

/-- `:ss.ffffff` without the parts that may be left out. -/
def secondsText (microseconds : Nat) : String :=
  ":" ++ padded 2 (microseconds / 1000000 % 60) ++
    if microseconds % 1000000 = 0 then "" else "." ++ padded 6 (microseconds % 1000000)

/-- `+HH:MM`, with the seconds where there are any. -/
def offsetText (offset : Int) : String :=
  let size := offset.natAbs
  (if offset < 0 then "-" else "+") ++ padded 2 (size / 3600000000) ++ ":" ++
    padded 2 (size / 60000000 % 60) ++
    if size % 60000000 = 0 then "" else secondsText size

def isoformat (d : Datetime) : String :=
  let date := dateOf d.clock
  padded 4 date.year ++ "-" ++ padded 2 date.month ++ "-" ++ padded 2 date.day ++ "T" ++
    padded 2 (hourOf d.clock) ++ ":" ++ padded 2 (minuteOf d.clock) ++ secondsText d.clock ++
    (d.utcoffset.map offsetText).getD ""

end Datetime

/-- A time is before the end of the year 9999 or after it together with its
minute. -/
theorem minuteNumber_lt {t : Time} : t < endOfTime ↔ minuteNumber t < 5258964960 := by
  have hkey (n : Nat) : n < 315537897600000000 ↔ n / 60000000 < 5258964960 := by omega
  exact hkey t

/-- There is a time with any minute, hour, day of the calendar and weekday. -/
theorem exists_time {minute hour month day weekday : Nat} (hminute : minute < 60)
    (hhour : hour < 24) (hmonth : 1 ≤ month) (hmonth' : month ≤ 12) (hday : 1 ≤ day)
    (hday' : day ≤ monthLength true month) (hweekday : weekday < 7) :
    ∃ t < endOfTime, minuteOf t = minute ∧ hourOf t = hour ∧ (dateOf t).month = month ∧
      (dateOf t).day = day ∧ weekdayOf t = weekday := by
  obtain ⟨year, hyear, hyear', hvalid, hnumber⟩ :=
    exists_date_on_weekday hmonth hmonth' hday hday' hweekday
  have hlate : CalendarDate.number ⟨year, month, day⟩ < 3652059 := by
    have hbefore := daysBeforeYear_mono hyear (Nat.le_of_lt hyear')
    have hdays : daysBeforeYear 2028 = 740346 := by decide
    have hinYear := hvalid.number_lt.1
    simp only [CalendarDate.number] at hinYear ⊢
    split at hinYear <;> omega
  have hdate := dateOfNumber_number hvalid hyear
  generalize CalendarDate.number ⟨year, month, day⟩ = n at *
  have hminutes : minuteNumber ((n * 1440 + hour * 60 + minute) * 60000000) =
      n * 1440 + hour * 60 + minute := Nat.mul_div_cancel _ (by decide)
  have hdayNumber : dayNumber ((n * 1440 + hour * 60 + minute) * 60000000) = n := by
    rw [dayNumber, hminutes]
    omega
  refine ⟨(n * 1440 + hour * 60 + minute) * 60000000, ?_, ?_, ?_, ?_, ?_, ?_⟩
  · rw [minuteNumber_lt, hminutes]
    omega
  · rw [minuteOf, hminutes]
    omega
  · rw [hourOf, hminutes]
    omega
  · rw [dateOf, hdayNumber, hdate]
  · rw [dateOf, hdayNumber, hdate]
  · rw [weekdayOf, hdayNumber, hnumber]

end Conductor
