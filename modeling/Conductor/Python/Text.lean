/-
Text as the methods of `str` see it: white space, the digits of all scripts,
and `int(text)`.
-/
import Mathlib.Data.List.DropRight
import Conductor.Python.Value

namespace Conductor

/-- `text.strip()`. -/
def stripped (text : List Char) : List Char :=
  (text.dropWhile isSpace).rdropWhile isSpace

/-- `text.split()`: the words between white space. -/
def splitWords (text : List Char) : List (List Char) :=
  (text.splitOnP isSpace).filter fun word => !word.isEmpty

/-- The zeros of the decimal digits of all scripts.  Each is followed by its
nine other digits. -/
def decimalZeros : List Nat :=
  [48, 1632, 1776, 1984, 2406, 2534, 2662, 2790, 2918, 3046, 3174, 3302, 3430, 3558, 3664, 3792,
    3872, 4160, 4240, 6112, 6160, 6470, 6608, 6784, 6800, 6992, 7088, 7232, 7248, 42528, 43216,
    43264, 43472, 43504, 43600, 44016, 65296, 66720, 68912, 68928, 69734, 69872, 69942, 70096,
    70384, 70736, 70864, 71248, 71360, 71376, 71386, 71472, 71904, 72016, 72688, 72784, 73040,
    73120, 73552, 90416, 92768, 92864, 93008, 93552, 118000, 120782, 120792, 120802, 120812,
    120822, 123200, 123632, 124144, 124401, 125264, 130032]

/-- The digits that are no decimal digits, such as superscripts: first and last
of each range. -/
def digitRanges : List (Nat × Nat) :=
  [(178, 179), (185, 185), (4969, 4977), (6618, 6618), (8304, 8304), (8308, 8313), (8320, 8329),
    (9312, 9320), (9332, 9340), (9352, 9360), (9450, 9450), (9461, 9469), (9471, 9471),
    (10102, 10110), (10112, 10120), (10122, 10130), (68160, 68163), (69216, 69224),
    (69714, 69722), (127232, 127242)]

/-- The value of a decimal digit. -/
def decimalValue (c : Char) : Option Nat :=
  (decimalZeros.find? fun first => first ≤ c.toNat && c.toNat < first + 10).map (c.toNat - ·)

/-- `text.isdigit()`. -/
def isdigit (text : List Char) : Bool :=
  !text.isEmpty && text.all fun c => (decimalValue c).isSome ||
    digitRanges.any fun range => range.1 ≤ c.toNat && c.toNat ≤ range.2

/-- The number that decimal digits write. -/
def decimalNumber (text : List Char) : Option Nat :=
  (text.mapM decimalValue).map fun digits => digits.foldl (fun n digit => 10 * n + digit) 0

/-- `int(text)` of a text of digits: it reads decimal digits only, and no more
than 4300 of them. -/
def intOfDigits (text : List Char) : Except PyExc Nat :=
  let decimals := (text.takeWhile fun c => (decimalValue c).isSome).length
  if 4300 < decimals then
    .error (.valueError ("Exceeds the limit (4300 digits) for integer string conversion: value " ++
      "has " ++ toString decimals ++ " digits; use sys.set_int_max_str_digits() to increase " ++
      "the limit"))
  else
    match decimalNumber text with
    | some n => .ok n
    | none =>
        .error (.valueError ("invalid literal for int() with base 10: " ++
          pyRepr (String.ofList text)))

example : splitWords " 0 8,12\t* ".toList = ["0".toList, "8,12".toList, "*".toList] := by
  decide +kernel

example : (intOfDigits "015".toList).toOption = some 15 ∧ isdigit "²".toList = true ∧
    (intOfDigits "²".toList).toOption = none := by
  decide +kernel

end Conductor
