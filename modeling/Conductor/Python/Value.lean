/-
The Python values that flow through task inputs, metadata and results, the
exceptions that are raised, and `json.dumps(..., sort_keys=True)`, which the
supervisor uses to fingerprint a task input.
-/
import Mathlib.Data.List.Sort
import Mathlib.Tactic.Common

namespace Conductor

/-- Microseconds on the UTC clock. -/
abbrev Time := Nat

/-- A raised exception.  `isException` says whether `except Exception` catches
it; `text` is `str(exc)`, or `none` where `str(exc)` itself fails or gives a
text that a model field refuses. -/
structure PyExc where
  typeName : String
  text : Option String
  isException : Bool
deriving DecidableEq, Repr

namespace PyExc

/-- An exception of a class derived from `Exception` with a plain message. -/
def exception (typeName text : String) : PyExc := ⟨typeName, some text, true⟩

def valueError (text : String) : PyExc := exception "ValueError" text

def typeError (text : String) : PyExc := exception "TypeError" text

/-- `str(exc)` where the text is stored in a model field. -/
def str (e : PyExc) : Except PyExc String :=
  match e.text with
  | some text => .ok text
  | none => .error (exception "ValidationError" "error_message is not a valid string")

end PyExc

theorem bind_of_ok {ε α β : Type} {x : Except ε α} {value : α} (hx : x = .ok value)
    (f : α → Except ε β) : (x >>= f) = f value := by
  rw [hx]
  rfl

/-- A sequence of steps succeeds if each step does. -/
theorem Except.ok_of_bind {ε α β : Type} {b : β} {step : Except ε α}
    {next : α → Except ε β} (h : step >>= next = .ok b) :
    ∃ a, step = .ok a ∧ next a = .ok b := by
  cases step with
  | error e => cases h
  | ok a => exact ⟨a, rfl, h⟩

theorem Except.ok_of_map {ε α β : Type*} {value : Except ε α} {f : α → β} {b : β}
    (hmap : value.map f = .ok b) : ∃ a, value = .ok a ∧ f a = b := by
  cases value with
  | error e => cases hmap
  | ok a => exact ⟨a, rfl, Except.ok.inj hmap⟩

theorem Except.eq_ok_of_toOption {ε α : Type} {x : Except ε α} {a : α}
    (hx : x.toOption = some a) : x = .ok a := by
  cases x with
  | error e => cases hx
  | ok b => exact congrArg Except.ok (Option.some.inj hx)

/-- Values as they occur in `dict[str, Any]` fields.  A float is carried by its
`repr`; `object` is any value that `json` cannot encode, by its type name. -/
inductive Value where
  | none
  | bool (b : Bool)
  | int (n : Int)
  | float (repr : String)
  | str (s : String)
  | list (items : List Value)
  | dict (items : List (String × Value))
  | datetime (t : Time)
  | object (typeName : String)
deriving Repr

/-- A `dict[str, Any]` in insertion order. -/
abbrev Dict := List (String × Value)

namespace Dict

/-- `d[key] = value`: an existing key keeps its place. -/
def insert (key : String) (value : Value) : Dict → Dict
  | [] => [(key, value)]
  | (k, v) :: rest =>
      if k = key then (k, value) :: rest else (k, v) :: insert key value rest

/-- `d.update(other)`. -/
def update (d other : Dict) : Dict :=
  other.foldl (fun acc item => insert item.1 item.2 acc) d

/-- `d.setdefault(key, value)`. -/
def setdefault (d : Dict) (key : String) (value : Value) : Dict :=
  if d.any (fun item => item.1 == key) then d else d ++ [(key, value)]

end Dict

/-- An optional string as a field value. -/
def Value.ofStr? : Option String → Value
  | Option.none => .none
  | some s => .str s

/-- One above the largest integer of 4300 digits, which is the longest one that
has a text. -/
def Json.digitLimit : Nat := Nat.pow 10 4300

def hexDigit (n : Nat) : Char :=
  if n < 10 then Char.ofNat (48 + n) else Char.ofNat (87 + n)

/-- The escape of one UTF-16 code unit. -/
def jsonUnit (n : Nat) : List Char :=
  ['\\', 'u', hexDigit (n / 4096), hexDigit (n / 256 % 16),
    hexDigit (n / 16 % 16), hexDigit (n % 16)]

/-- One character of a JSON string with `ensure_ascii`. -/
def jsonChar (c : Char) : List Char :=
  let n := c.toNat
  if n = 34 then ['\\', c]
  else if n = 92 then ['\\', c]
  else if n = 8 then ['\\', 'b']
  else if n = 9 then ['\\', 't']
  else if n = 10 then ['\\', 'n']
  else if n = 12 then ['\\', 'f']
  else if n = 13 then ['\\', 'r']
  else if 32 ≤ n ∧ n < 127 then [c]
  else if n < 65536 then jsonUnit n
  else jsonUnit (55296 + (n - 65536) / 1024) ++ jsonUnit (56320 + (n - 65536) % 1024)

def jsonString (s : String) : String :=
  "\"" ++ String.ofList (s.toList.flatMap jsonChar) ++ "\""

mutual

/-- `json.dumps(value, sort_keys=True)`. -/
def jsonDumps : Value → Except PyExc String
  | .none => .ok "null"
  | .bool b => .ok (if b then "true" else "false")
  | .int n =>
      if Json.digitLimit ≤ n.natAbs then
        .error (.valueError "Exceeds the limit (4300 digits) for integer string conversion")
      else .ok (toString n)
  | .float repr => .ok repr
  | .str s => .ok (jsonString s)
  | .list items =>
      (jsonDumpsList items).map fun texts => "[" ++ ", ".intercalate texts ++ "]"
  | .dict items =>
      (jsonDumpsItems items).map fun texts =>
        let sorted := texts.insertionSort fun a b => a.1 ≤ b.1
        "\x7b" ++ ", ".intercalate (sorted.map fun item =>
          jsonString item.1 ++ ": " ++ item.2) ++ "\x7d"
  | .datetime _ =>
      .error (.typeError "Object of type datetime is not JSON serializable")
  | .object typeName =>
      .error (.typeError ("Object of type " ++ typeName ++ " is not JSON serializable"))

def jsonDumpsList : List Value → Except PyExc (List String)
  | [] => .ok []
  | value :: rest =>
      match jsonDumps value with
      | .error e => .error e
      | .ok text => (jsonDumpsList rest).map (text :: ·)

def jsonDumpsItems : List (String × Value) → Except PyExc (List (String × String))
  | [] => .ok []
  | (key, value) :: rest =>
      match jsonDumps value with
      | .error e => .error e
      | .ok text => (jsonDumpsItems rest).map ((key, text) :: ·)

end

/-- `hashlib.sha256(json.dumps(input, sort_keys=True).encode()).hexdigest()[:16]`,
over the digest function of the standard library. -/
def inputFingerprint (sha256Hex : String → String) (input : Dict) :
    Except PyExc String :=
  (jsonDumps (.dict input)).map fun text =>
    String.ofList ((sha256Hex text).toList.take 16)

/-- The input can be fingerprinted. -/
def JsonSerialisable (input : Dict) : Prop :=
  ∃ text, jsonDumps (.dict input) = .ok text

theorem inputFingerprint_eq_ok (sha256Hex : String → String) {input : Dict}
    (h : JsonSerialisable input) :
    ∃ fingerprint, inputFingerprint sha256Hex input = .ok fingerprint := by
  obtain ⟨text, htext⟩ := h
  exact ⟨_, by rw [inputFingerprint, htext]; rfl⟩

/-- `text or default` on an optional string. -/
def orText (text : Option String) (default : String) : String :=
  match text with
  | some text => if text.isEmpty then default else text
  | none => default

/-- `str.isspace` for one character. -/
def isSpace (c : Char) : Bool :=
  let n := c.toNat
  (9 ≤ n && n ≤ 13) || (28 ≤ n && n ≤ 32) || n == 133 || n == 160 || n == 5760 ||
    (8192 ≤ n && n ≤ 8202) || n == 8232 || n == 8233 || n == 8239 || n == 8287 || n == 12288

/-- `not s.strip()`. -/
def isBlank (s : String) : Bool := s.toList.all isSpace

/-- `repr(s)` of a string: double quotes where the text holds a single quote
and no double quote. -/
def pyRepr (s : String) : String :=
  let single := s.toList.any (·.toNat == 39)
  let double := s.toList.any (·.toNat == 34)
  let quote := if single && !double then Char.ofNat 34 else Char.ofNat 39
  let escape (c : Char) : List Char :=
    if c = quote || c.toNat == 92 then ['\\', c]
    else if c.toNat = 10 then ['\\', 'n']
    else if c.toNat = 13 then ['\\', 'r']
    else if c.toNat = 9 then ['\\', 't']
    else [c]
  String.ofList (quote :: s.toList.flatMap escape ++ [quote])

example : (jsonDumps (.dict [("b", .int 1), ("a", .list [.none, .bool true])])).toOption =
    some "\x7b\"a\": [null, true], \"b\": 1\x7d" := by
  decide +kernel

end Conductor
