/-
Floats as rationals: powers, which overflow when they reach `2 ^ 1024`, formats,
and the division of ints.
-/
import Mathlib.Algebra.Order.Ring.Rat
import Mathlib.Data.Int.Log
import Mathlib.Data.Rat.Floor
import Conductor.Python.Value

namespace Conductor

/-- `b ** k` for a float `b` and an int `k`. -/
def floatPow (b : Rat) (k : Int) : Except PyExc Rat :=
  if b = 0 ∧ k < 0 then
    .error (.exception "ZeroDivisionError" "0.0 cannot be raised to a negative power")
  else
    let power := if 0 ≤ k then b ^ k.toNat else (b ^ (-k).toNat)⁻¹
    if 2 ^ 1024 ≤ |power| then
      .error (.exception "OverflowError" "(34, 'Numerical result out of range')")
    else .ok power

/-- Round to an integer, ties to even. -/
def roundHalfEven (q : Rat) : Int :=
  let n := q.floor
  let rest := q - n
  if rest < 1 / 2 then n
  else if 1 / 2 < rest then n + 1
  else if n % 2 = 0 then n else n + 1

/-- The format `.<digits>f`. -/
def formatFixed (digits : Nat) (q : Rat) : String :=
  let scaled := roundHalfEven (q * 10 ^ digits)
  let whole := toString (scaled.natAbs / 10 ^ digits)
  let fraction := toString (scaled.natAbs % 10 ^ digits)
  let zeros := String.ofList (List.replicate (digits - fraction.length) '0')
  (if scaled < 0 then "-" else "") ++ whole ++ "." ++ zeros ++ fraction

/-- A float that is not negative. -/
inductive Magnitude where
  | finite (value : Rat)
  | infinite

namespace Magnitude

/-- Halfway from the greatest float to `2 ^ 1024`. -/
def limit : Int := 2 ^ 1024 - 2 ^ 970

/-- The float nearest to a rational that is not negative: 53 binary digits, ties
to even, infinite from the limit on. -/
def nearest (q : Rat) : Magnitude :=
  if limit ≤ q then .infinite
  else
    let unit := (2 : Rat) ^ max (Int.log 2 q - 52) (-1074)
    .finite (roundHalfEven (q / unit) * unit)

/-- The product with a rational that is a float. -/
def times (x : Magnitude) (factor : Rat) : Magnitude :=
  match x with
  | .finite value => nearest (value * factor)
  | .infinite => .infinite

/-- `bound < x`. -/
def exceeds (x : Magnitude) (bound : Rat) : Bool :=
  match x with
  | .finite value => bound < value
  | .infinite => true

/-- The format `.0f`. -/
def formatWhole : Magnitude → String
  | .finite value => toString (roundHalfEven value)
  | .infinite => "inf"

end Magnitude

/-- `n / d` of ints, the one not negative and the other positive. -/
def trueDivision (n d : Int) : Except PyExc Magnitude :=
  match Magnitude.nearest (n / d) with
  | .finite value => .ok (.finite value)
  | .infinite => .error (.exception "OverflowError" "integer division result too large for a float")

theorem trueDivision_ok_iff {n d : Int} (hd : 0 < d) :
    (∃ quotient, trueDivision n d = .ok quotient) ↔ n < Magnitude.limit * d := by
  have hpositive : (0 : Rat) < d := Int.cast_pos.mpr hd
  have hlarge : (Magnitude.limit : Rat) ≤ n / d ↔ Magnitude.limit * d ≤ n := by
    rw [le_div_iff₀ hpositive, ← Int.cast_mul, Int.cast_le]
  rw [← not_le, ← hlarge, trueDivision, Magnitude.nearest]
  by_cases hlimit : (Magnitude.limit : Rat) ≤ n / d
  · simp [hlimit]
  · simp [hlimit]

/-- Two out of three are 67 percent. -/
example :
    (trueDivision 2 3).map (fun q => (q.times 100).formatWhole) = .ok "67" := by decide +kernel

end Conductor
