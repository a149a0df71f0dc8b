/-
The texts of times in UTC.  Their order is that of the times, although the
fraction of a second is left out where it is zero.
-/
import Conductor.Python.Calendar
import Mathlib.Data.String.Basic

namespace Conductor

/-- The last digits of a number. -/
def lastDigits : Nat → Nat → List Char
  | 0, _ => []
  | width + 1, n => lastDigits width (n / 10) ++ [Nat.digitChar (n % 10)]

@[simp] theorem length_lastDigits (width n : Nat) : (lastDigits width n).length = width := by
  induction width generalizing n with
  | zero => rfl
  | succ width ih => rw [lastDigits, List.length_append, ih, List.length_singleton]

theorem lastDigits_zero (width : Nat) : lastDigits width 0 = List.replicate width '0' := by
  induction width with
  | zero => rfl
  | succ width ih =>
      rw [lastDigits, Nat.zero_div, ih, List.replicate_succ']
      rfl

/-- A number with leading zeros consists of its last digits. -/
theorem toList_padded {width n : Nat} (hn : n < 10 ^ (width + 1)) :
    (Datetime.padded (width + 1) n).toList = lastDigits (width + 1) n := by
  have htext (width n : Nat) : (Datetime.padded width n).toList =
      List.replicate (width - (Nat.toDigits 10 n).length) '0' ++ Nat.toDigits 10 n := by
    have hdigits : (toString n).toList = Nat.toDigits 10 n := Nat.toList_repr
    rw [Datetime.padded, String.toList_append, String.toList_ofList, ← String.length_toList,
      hdigits]
  rw [htext]
  induction width generalizing n with
  | zero =>
      have hdigit : n < 10 := by omega
      rw [Nat.toDigits_of_lt_base hdigit, lastDigits, Nat.mod_eq_of_lt hdigit]
      rfl
  | succ width ih =>
      rw [lastDigits]
      by_cases hdigit : n < 10
      · rw [Nat.toDigits_of_lt_base hdigit, Nat.div_eq_of_lt hdigit, Nat.mod_eq_of_lt hdigit,
          lastDigits_zero]
        rfl
      · have hle : 10 ≤ n := by omega
        have hdiv : n / 10 < 10 ^ (width + 1) := by
          rw [pow_succ] at hn
          omega
        have hlength : width + 1 + 1 - ((Nat.toDigits 10 (n / 10)).length + 1) =
            width + 1 - (Nat.toDigits 10 (n / 10)).length := by omega
        rw [Nat.toDigits_of_base_le (by decide) hle, List.length_append, List.length_singleton,
          hlength, ← List.append_assoc, ih hdiv]

section Order

variable {texts texts' rest rest' : List Char}

theorem append_lt_append (hlength : texts.length = texts'.length) (hlt : texts < texts') :
    texts ++ rest < texts' ++ rest' := by
  induction texts generalizing texts' with
  | nil =>
      rw [List.length_eq_zero_iff.mp hlength.symm] at hlt
      exact absurd hlt (List.not_lt_nil _)
  | cons c cs ih =>
      cases texts' with
      | nil => cases hlength
      | cons c' cs' =>
          rw [List.cons_lt_cons_iff] at hlt
          rw [List.cons_append, List.cons_append, List.cons_lt_cons_iff]
          rcases hlt with hhead | ⟨hhead, htail⟩
          · exact .inl hhead
          · exact .inr ⟨hhead, ih (Nat.succ.inj hlength) htail⟩

theorem digitChar_lt : ∀ n < 10, ∀ m < n, Nat.digitChar m < Nat.digitChar n := by
  decide

theorem lastDigits_lt {width n m : Nat} (hlt : n < m) (hm : m < 10 ^ width) :
    lastDigits width n < lastDigits width m := by
  induction width generalizing n m with
  | zero => omega
  | succ width ih =>
      rw [lastDigits, lastDigits]
      by_cases hhigh : n / 10 < m / 10
      · have hdiv : m / 10 < 10 ^ width := by
          rw [pow_succ] at hm
          omega
        exact append_lt_append (by simp) (ih hhigh hdiv)
      · have hsame : n / 10 = m / 10 := by omega
        have hlow : n % 10 < m % 10 := by omega
        rw [hsame]
        apply List.append_left_lt
        rw [List.cons_lt_cons_iff]
        exact .inl (digitChar_lt _ (Nat.mod_lt _ (by decide)) _ hlow)

/-- Texts that begin with numbers of one width are ordered by these first. -/
theorem number_lt {width n m : Nat} (hm : m < 10 ^ width)
    (hlt : n < m ∨ n = m ∧ rest < rest') :
    lastDigits width n ++ rest < lastDigits width m ++ rest' := by
  rcases hlt with hlt | ⟨rfl, hlt⟩
  · exact append_lt_append (by simp) (lastDigits_lt hlt hm)
  · exact List.append_left_lt hlt

theorem field_lt {width n m : Nat} {mark : Char} (hm : m < 10 ^ width)
    (hlt : n < m ∨ n = m ∧ rest < rest') :
    lastDigits width n ++ mark :: rest < lastDigits width m ++ mark :: rest' := by
  apply number_lt hm
  rcases hlt with hlt | ⟨hsame, hlt⟩
  · exact .inl hlt
  · exact .inr ⟨hsame, List.cons_lt_cons_iff.mpr (.inr ⟨rfl, hlt⟩)⟩

end Order

theorem daysBeforeMonth_lt : ∀ leap : Bool, ∀ month' < 13, ∀ month < month', 1 ≤ month →
    daysBeforeMonth leap month + monthLength leap month ≤ daysBeforeMonth leap month' := by
  decide

/-- The order of the numbers of two days is that of their dates. -/
theorem dateOfNumber_lt {n m : Nat} (hlt : n < m) :
    (dateOfNumber n).year < (dateOfNumber m).year ∨
      (dateOfNumber n).year = (dateOfNumber m).year ∧
        ((dateOfNumber n).month < (dateOfNumber m).month ∨
          (dateOfNumber n).month = (dateOfNumber m).month ∧
            (dateOfNumber n).day < (dateOfNumber m).day) := by
  obtain ⟨hvalid, hnumber⟩ := dateOfNumber_spec n
  obtain ⟨hvalid', hnumber'⟩ := dateOfNumber_spec m
  have hpos : 1 ≤ (dateOfNumber m).year := by
    simp only [dateOfNumber]
    split <;> simp only <;> omega
  generalize dateOfNumber n = date at *
  generalize dateOfNumber m = date' at *
  rw [← hnumber, ← hnumber'] at hlt
  obtain ⟨year, month, day⟩ := date
  obtain ⟨year', month', day'⟩ := date'
  dsimp only at hpos ⊢
  by_cases hyear : year < year'
  · exact .inl hyear
  have hyears : year' ≤ year := by omega
  by_cases hsame : year = year'
  · subst hsame
    refine .inr ⟨rfl, ?_⟩
    simp only [CalendarDate.number] at hlt
    by_cases hmonth : month < month'
    · exact .inl hmonth
    refine .inr ?_
    by_cases hmonths : month = month'
    · subst hmonths
      exact ⟨rfl, by omega⟩
    · -- the later day would lie in an earlier month
      have hlast : month ≤ 12 := hvalid.month_le
      have hday' : day' ≤ monthLength (isLeap year) month' := hvalid'.day_le
      have hday : 1 ≤ day' := hvalid'.day_pos
      have hend := daysBeforeMonth_lt (isLeap year) month (by omega) month' (by omega)
        hvalid'.month_pos
      omega
  · -- the later day would lie before the year of the earlier one
    have hmono : daysBeforeYear (year' + 1) ≤ daysBeforeYear year :=
      daysBeforeYear_mono (by omega) (by omega)
    have hday' := hvalid'.number_lt.1
    rw [daysBeforeYear_succ hpos] at hmono
    simp only [CalendarDate.number] at hlt hday'
    omega

/-- The fraction of a second and the zone. -/
def secondTail (microsecond : Nat) : List Char :=
  (if microsecond = 0 then [] else '.' :: lastDigits 6 microsecond) ++ "+00:00".toList

/-- No fraction comes before every fraction, as a plus sign comes before a dot. -/
theorem secondTail_lt {n m : Nat} (hlt : n < m) (hm : m < 1000000) :
    secondTail n < secondTail m := by
  have hdot : '+' < '.' := by decide
  rw [secondTail, secondTail, if_neg (show m ≠ 0 by omega)]
  by_cases hzero : n = 0
  · rw [if_pos hzero]
    exact List.cons_lt_cons_iff.mpr (.inl hdot)
  · rw [if_neg hzero, List.cons_append, List.cons_append, List.cons_lt_cons_iff]
    exact .inr ⟨rfl, append_lt_append (by simp) (lastDigits_lt hlt (by omega))⟩

namespace Datetime

/-- `isoformat()` of a datetime in UTC. -/
def utcIsoformat (t : Time) : String :=
  let date := dateOf t
  padded 4 date.year ++ "-" ++ padded 2 date.month ++ "-" ++ padded 2 date.day ++ "T" ++
    padded 2 (hourOf t) ++ ":" ++ padded 2 (minuteOf t) ++ secondsText t ++ "+00:00"

theorem year_lt (t : Time) (ht : t < endOfTime) : (dateOf t).year < 10000 := by
  obtain ⟨hvalid, hnumber⟩ := dateOfNumber_spec (dayNumber t)
  have hday : dayNumber t < 3652059 := by
    rw [minuteNumber_lt] at ht
    rw [dayNumber]
    omega
  by_contra hyear
  have hmono : daysBeforeYear 10000 ≤ daysBeforeYear (dateOf t).year :=
    daysBeforeYear_mono (by decide) (by omega)
  have hcount : daysBeforeYear 10000 = 3652059 := by decide
  simp only [CalendarDate.number] at hnumber
  change daysBeforeYear (dateOf t).year + _ + _ = _ at hnumber
  omega

/-- Every field has room for its number. -/
structure Fits (t : Time) : Prop where
  year : (dateOf t).year < 10 ^ 4
  month : (dateOf t).month < 10 ^ 2
  day : (dateOf t).day < 10 ^ 2
  hour : hourOf t < 10 ^ 2
  minute : minuteOf t < 10 ^ 2
  second : t / 1000000 % 60 < 10 ^ 2
  microsecond : t % 1000000 < 10 ^ 6

theorem fits {t : Time} (ht : t < endOfTime) : Fits t := by
  have hyear := year_lt t ht
  have hvalid := dateOf_valid t
  have hmonth := hvalid.month_le
  have hday := hvalid.day_le_leap
  have hlength : monthLength true (dateOf t).month ≤ 31 := by
    rw [monthLength]
    split
    · simp
    · split <;> omega
  have hhour := hourOf_lt t
  have hminute := minuteOf_lt t
  have hsecond : t / 1000000 % 60 < 60 := Nat.mod_lt _ (by decide)
  constructor
  · exact hyear
  · omega
  · omega
  · omega
  · omega
  · exact hsecond.trans (by decide)
  · exact Nat.mod_lt _ (by decide)

theorem toList_utcIsoformat {t : Time} (ht : t < endOfTime) :
    (utcIsoformat t).toList =
      lastDigits 4 (dateOf t).year ++ '-' :: (lastDigits 2 (dateOf t).month ++
        '-' :: (lastDigits 2 (dateOf t).day ++ 'T' :: (lastDigits 2 (hourOf t) ++
          ':' :: (lastDigits 2 (minuteOf t) ++ ':' :: (lastDigits 2 (t / 1000000 % 60) ++
            secondTail (t % 1000000)))))) := by
  have hfits := fits ht
  have htail : (if t % 1000000 = 0 then "" else "." ++ padded 6 (t % 1000000)).toList ++
      "+00:00".toList = secondTail (t % 1000000) := by
    rw [secondTail]
    split
    · rfl
    · rw [String.toList_append, toList_padded hfits.microsecond]
      rfl
  simp only [utcIsoformat, secondsText, String.toList_append, List.append_assoc, htail]
  rw [toList_padded hfits.year, toList_padded hfits.month, toList_padded hfits.day,
    toList_padded hfits.hour, toList_padded hfits.minute, toList_padded hfits.second]
  rfl

/-- The order of two times is that of their fields, the greatest first. -/
theorem fields_lt {t t' : Time} (hlt : t < t') :
    (dateOf t).year < (dateOf t').year ∨ (dateOf t).year = (dateOf t').year ∧
      ((dateOf t).month < (dateOf t').month ∨ (dateOf t).month = (dateOf t').month ∧
        ((dateOf t).day < (dateOf t').day ∨ (dateOf t).day = (dateOf t').day ∧
          (hourOf t < hourOf t' ∨ hourOf t = hourOf t' ∧
            (minuteOf t < minuteOf t' ∨ minuteOf t = minuteOf t' ∧
              (t / 1000000 % 60 < t' / 1000000 % 60 ∨ t / 1000000 % 60 = t' / 1000000 % 60 ∧
                t % 1000000 < t' % 1000000))))) := by
  have hday : dayNumber t < dayNumber t' ∨ dayNumber t = dayNumber t' ∧
      (hourOf t < hourOf t' ∨ hourOf t = hourOf t' ∧
        (minuteOf t < minuteOf t' ∨ minuteOf t = minuteOf t' ∧
          (t / 1000000 % 60 < t' / 1000000 % 60 ∨ t / 1000000 % 60 = t' / 1000000 % 60 ∧
            t % 1000000 < t' % 1000000))) := by
    have hkey (n m : Nat) (hnm : n < m) : n / 60000000 / 1440 < m / 60000000 / 1440 ∨
        n / 60000000 / 1440 = m / 60000000 / 1440 ∧
          (n / 60000000 / 60 % 24 < m / 60000000 / 60 % 24 ∨
            n / 60000000 / 60 % 24 = m / 60000000 / 60 % 24 ∧
              (n / 60000000 % 60 < m / 60000000 % 60 ∨ n / 60000000 % 60 = m / 60000000 % 60 ∧
                (n / 1000000 % 60 < m / 1000000 % 60 ∨ n / 1000000 % 60 = m / 1000000 % 60 ∧
                  n % 1000000 < m % 1000000))) := by
      omega
    exact hkey t t' hlt
  rcases hday with hday | ⟨hday, hclock⟩
  · rcases dateOfNumber_lt hday with hyear | ⟨hyear, hmonth | ⟨hmonth, hday⟩⟩
    · exact .inl hyear
    · exact .inr ⟨hyear, .inl hmonth⟩
    · exact .inr ⟨hyear, .inr ⟨hmonth, .inl hday⟩⟩
  · have hdate : dateOf t = dateOf t' := congrArg dateOfNumber hday
    rw [hdate]
    exact .inr ⟨rfl, .inr ⟨rfl, .inr ⟨rfl, hclock⟩⟩⟩

/-- An earlier time has an earlier text. -/
theorem utcIsoformat_lt {t t' : Time} (hlt : t < t') (ht' : t' < endOfTime) :
    utcIsoformat t < utcIsoformat t' := by
  have hfits := fits ht'
  have hmicro : t' % 1000000 < 1000000 := Nat.mod_lt _ (by decide)
  rw [String.lt_iff_toList_lt, toList_utcIsoformat (Nat.lt_trans hlt ht'), toList_utcIsoformat ht']
  refine field_lt hfits.year ((fields_lt hlt).imp_right (And.imp_right fun hmonth => ?_))
  refine field_lt hfits.month (hmonth.imp_right (And.imp_right fun hday => ?_))
  refine field_lt hfits.day (hday.imp_right (And.imp_right fun hhour => ?_))
  refine field_lt hfits.hour (hhour.imp_right (And.imp_right fun hminute => ?_))
  refine field_lt hfits.minute (hminute.imp_right (And.imp_right fun hsecond => ?_))
  refine number_lt hfits.second (hsecond.imp_right (And.imp_right fun hfraction => ?_))
  exact secondTail_lt hfraction hmicro

theorem utcIsoformat_lt_iff {t t' : Time} (ht : t < endOfTime) (ht' : t' < endOfTime) :
    utcIsoformat t < utcIsoformat t' ↔ t < t' := by
  constructor
  · intro htext
    rcases Nat.lt_trichotomy t t' with hlt | rfl | hgt
    · exact hlt
    · exact absurd htext (lt_irrefl _)
    · exact absurd htext (lt_asymm (utcIsoformat_lt hgt ht))
  · intro hlt
    exact utcIsoformat_lt hlt ht'

theorem utcIsoformat_inj {t t' : Time} (ht : t < endOfTime) (ht' : t' < endOfTime) :
    utcIsoformat t = utcIsoformat t' ↔ t = t' := by
  constructor
  · intro htext
    rcases Nat.lt_trichotomy t t' with hlt | heq | hgt
    · exact absurd htext (ne_of_lt (utcIsoformat_lt hlt ht'))
    · exact heq
    · exact absurd htext.symm (ne_of_lt (utcIsoformat_lt hgt ht))
  · exact congrArg utcIsoformat

end Datetime

end Conductor
