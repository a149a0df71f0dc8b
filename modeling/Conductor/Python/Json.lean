/-
JSON texts, as `json.loads` reads them and `json.dumps` writes them.  Texts are
lists of characters here; a lone surrogate, which no Lean string holds, is read
as the replacement character.
-/
import Conductor.Python.Value

namespace Conductor

namespace Json

/-- `JSONDecodeError`, without the place in the text. -/
def decodeError : PyExc := .exception "JSONDecodeError" "Expecting value"

def isWhitespace (c : Char) : Bool := c == ' ' || c == '\t' || c == '\n' || c == '\r'

def skipSpace (cs : List Char) : List Char := cs.dropWhile isWhitespace

/-- The text after this character, if the text begins with it. -/
def expect (c : Char) : List Char → Option (List Char)
  | [] => none
  | d :: rest => if d = c then some rest else none

def hexValue (c : Char) : Option Nat :=
  let n := c.toNat
  if 48 ≤ n ∧ n ≤ 57 then some (n - 48)
  else if 97 ≤ n ∧ n ≤ 102 then some (n - 87)
  else if 65 ≤ n ∧ n ≤ 70 then some (n - 55)
  else none

/-- Four hexadecimal digits: a UTF-16 code unit. -/
def readUnit : List Char → Option (Nat × List Char)
  | a :: b :: c :: d :: rest =>
      match hexValue a, hexValue b, hexValue c, hexValue d with
      | some a, some b, some c, some d => some (((a * 16 + b) * 16 + c) * 16 + d, rest)
      | _, _, _, _ => none
  | _ => none

def replacement : Char := Char.ofNat 65533

/-- The character of a code point; surrogates have none. -/
def charOf (n : Nat) : Char := if n.isValidChar then Char.ofNat n else replacement

/-- After `\u`: one code unit, or a pair of surrogates. -/
def readEscapedUnit (cs : List Char) : Except PyExc (Char × List Char) :=
  match readUnit cs with
  | none => .error decodeError
  | some (n, rest) =>
      if 55296 ≤ n ∧ n < 56320 then
        match (expect '\\' rest).bind (expect 'u') with
        | none => .ok (replacement, rest)
        | some second =>
            match readUnit second with
            | none => .error decodeError
            | some (m, rest') =>
                if 56320 ≤ m ∧ m < 57344 then
                  .ok (charOf (65536 + (n - 55296) * 1024 + (m - 56320)), rest')
                else .ok (replacement, rest)
      else .ok (charOf n, rest)

/-- The one-letter escapes. -/
def unescape (c : Char) : Option Char :=
  if c = '"' ∨ c = '\\' ∨ c = '/' then some c
  else if c = 'b' then some (Char.ofNat 8)
  else if c = 'f' then some (Char.ofNat 12)
  else if c = 'n' then some (Char.ofNat 10)
  else if c = 'r' then some (Char.ofNat 13)
  else if c = 't' then some (Char.ofNat 9)
  else none

/-- One character of a string, which may be escaped. -/
def readChar : List Char → Except PyExc (Char × List Char)
  | [] => .error decodeError
  | c :: rest =>
      if c = '\\' then
        match rest with
        | [] => .error decodeError
        | e :: rest =>
            if e = 'u' then readEscapedUnit rest
            else match unescape e with
              | some c => .ok (c, rest)
              | none => .error decodeError
      else if c.toNat < 32 then .error decodeError
      else .ok (c, rest)

/-- The characters up to the closing quote. -/
def readString : Nat → List Char → Except PyExc (List Char × List Char)
  | 0, _ => .error decodeError
  | fuel + 1, cs =>
      match cs with
      | [] => .error decodeError
      | c :: rest =>
          if c = '"' then .ok ([], rest)
          else
            match readChar (c :: rest) with
            | .error e => .error e
            | .ok (c, rest) => (readString fuel rest).map fun read => (c :: read.1, read.2)

/-- `(\.[0-9]+)?` -/
def readFraction (cs : List Char) : List Char × List Char :=
  match expect '.' cs with
  | none => ([], cs)
  | some rest =>
      let digits := rest.takeWhile Char.isDigit
      if digits.isEmpty then ([], cs) else ('.' :: digits, rest.dropWhile Char.isDigit)

/-- The digits of an exponent, with what stands before them. -/
def readExponentDigits (before cs all : List Char) : List Char × List Char :=
  let digits := cs.takeWhile Char.isDigit
  if digits.isEmpty then ([], all) else (before ++ digits, cs.dropWhile Char.isDigit)

/-- `([eE][-+]?[0-9]+)?` -/
def readExponent : List Char → List Char × List Char
  | e :: cs =>
      if e = 'e' ∨ e = 'E' then
        match cs with
        | sign :: rest =>
            if sign = '+' ∨ sign = '-' then readExponentDigits [e, sign] rest (e :: cs)
            else readExponentDigits [e] cs (e :: cs)
        | [] => ([], e :: cs)
      else ([], e :: cs)
  | [] => ([], [])

/-- `0|[1-9][0-9]*` -/
def readWhole (cs : List Char) : List Char × List Char :=
  match expect '0' cs with
  | some rest => (['0'], rest)
  | none => (cs.takeWhile Char.isDigit, cs.dropWhile Char.isDigit)

/-- `int(digits)`, which refuses more than 4300 digits. -/
def intOf (negative : Bool) (digits : List Char) : Except PyExc Value :=
  if 4300 < digits.length then
    .error (.valueError "Exceeds the limit (4300 digits) for integer string conversion")
  else
    let n := Nat.ofDigitChars 10 digits 0
    .ok (.int (if negative then -n else n))

/-- A number after its sign.  A float keeps its text. -/
def readUnsigned (negative : Bool) (cs : List Char) : Except PyExc (Value × List Char) :=
  let whole := readWhole cs
  let fraction := readFraction whole.2
  let exponent := readExponent fraction.2
  if whole.1.isEmpty then .error decodeError
  else if fraction.1.isEmpty && exponent.1.isEmpty then
    (intOf negative whole.1).map fun n => (n, exponent.2)
  else
    let sign := if negative then ['-'] else []
    .ok (.float (String.ofList (sign ++ whole.1 ++ fraction.1 ++ exponent.1)), exponent.2)

def readNumber (cs : List Char) : Except PyExc (Value × List Char) :=
  match expect '-' cs with
  | some rest => readUnsigned true rest
  | none => readUnsigned false cs

/-- The named values. -/
def literals : List (String × Value) :=
  [("null", .none), ("true", .bool true), ("false", .bool false), ("NaN", .float "NaN"),
    ("Infinity", .float "Infinity"), ("-Infinity", .float "-Infinity")]

def readLiteral (cs : List Char) : List (String × Value) → Option (Value × List Char)
  | [] => none
  | (name, value) :: rest =>
      if name.toList.isPrefixOf cs then some (value, cs.drop name.length)
      else readLiteral cs rest

def readScalar (cs : List Char) : Except PyExc (Value × List Char) :=
  match readLiteral cs literals with
  | some read => .ok read
  | none => readNumber cs

/-- The key of an item, up to its value. -/
def readKey (cs : List Char) : Except PyExc (String × List Char) :=
  match expect '"' cs with
  | none => .error decodeError
  | some cs =>
      match readString cs.length cs with
      | .error e => .error e
      | .ok (key, rest) =>
          match expect ':' (skipSpace rest) with
          | none => .error decodeError
          | some rest => .ok (String.ofList key, skipSpace rest)

mutual

def readValue : Nat → List Char → Except PyExc (Value × List Char)
  | 0, _ => .error decodeError
  | _, [] => .error decodeError
  | fuel + 1, c :: cs =>
      if c = '"' then
        (readString cs.length cs).map fun read => (.str (String.ofList read.1), read.2)
      else if c = '[' then
        let rest := skipSpace cs
        match expect ']' rest with
        | some rest => .ok (.list [], rest)
        | none => readElements fuel [] rest
      else if c = '\x7b' then
        let rest := skipSpace cs
        match expect '\x7d' rest with
        | some rest => .ok (.dict [], rest)
        | none => readMembers fuel [] rest
      else readScalar (c :: cs)

/-- The values of an array, after those that are read. -/
def readElements : Nat → List Value → List Char → Except PyExc (Value × List Char)
  | 0, _, _ => .error decodeError
  | fuel + 1, items, cs =>
      match readValue fuel cs with
      | .error e => .error e
      | .ok (value, rest) =>
          let rest := skipSpace rest
          match expect ']' rest, expect ',' rest with
          | some rest, _ => .ok (.list (items ++ [value]), rest)
          | none, some rest => readElements fuel (items ++ [value]) (skipSpace rest)
          | none, none => .error decodeError

/-- The items of an object, after those that are read; of two items with one
key the later value stands. -/
def readMembers : Nat → Dict → List Char → Except PyExc (Value × List Char)
  | 0, _, _ => .error decodeError
  | fuel + 1, items, cs =>
      match readKey cs with
      | .error e => .error e
      | .ok (key, rest) =>
          match readValue fuel rest with
          | .error e => .error e
          | .ok (value, rest) =>
              let items := Dict.insert key value items
              let rest := skipSpace rest
              match expect '\x7d' rest, expect ',' rest with
              | some rest, _ => .ok (.dict items, rest)
              | none, some rest => readMembers fuel items (skipSpace rest)
              | none, none => .error decodeError

end

/-- `json.loads(text)`.  A text may not begin with a byte order mark. -/
def loads (text : String) : Except PyExc Value :=
  let cs := text.toList
  if cs.head? = some (Char.ofNat 65279) then .error decodeError
  else
    match readValue (2 * cs.length) (skipSpace cs) with
    | .error e => .error e
    | .ok (value, rest) =>
        if (skipSpace rest).isEmpty then .ok value else .error decodeError

/-- Everything on one line, or each item on a line of its own. -/
inductive Layout where
  | oneLine
  | indented (width : Nat)

/-- The space before an item or a closing bracket of this level. -/
def Layout.newline : Layout → Nat → List Char
  | oneLine, _ => []
  | indented width, level => '\n' :: List.replicate (width * level) ' '

/-- What stands between two items. -/
def Layout.comma : Layout → Nat → List Char
  | oneLine, _ => [',', ' ']
  | indented width, level => ',' :: (indented width).newline level

def quoted (s : String) : List Char := '"' :: s.toList.flatMap jsonChar ++ ['"']

mutual

/-- The text of a value whose items stand in the order in which they are
written. -/
def render (layout : Layout) : Nat → Value → List Char
  | _, .none => "null".toList
  | _, .bool b => if b then "true".toList else "false".toList
  | _, .int n => (toString n).toList
  | _, .float repr => repr.toList
  | _, .str s => quoted s
  | _, .list [] => ['[', ']']
  | level, .list (value :: rest) =>
      '[' :: layout.newline (level + 1) ++ render layout (level + 1) value ++
        renderRest layout (level + 1) rest ++ layout.newline level ++ [']']
  | _, .dict [] => ['\x7b', '\x7d']
  | level, .dict ((key, value) :: rest) =>
      '\x7b' :: layout.newline (level + 1) ++ quoted key ++ ": ".toList ++
        render layout (level + 1) value ++ renderItems layout (level + 1) rest ++
          layout.newline level ++ ['\x7d']
  | _, .datetime _ => []
  | _, .object _ => []

def renderRest (layout : Layout) : Nat → List Value → List Char
  | _, [] => []
  | level, value :: rest =>
      layout.comma level ++ render layout level value ++ renderRest layout level rest

def renderItems (layout : Layout) : Nat → Dict → List Char
  | _, [] => []
  | level, (key, value) :: rest =>
      layout.comma level ++ quoted key ++ ": ".toList ++ render layout level value ++
        renderItems layout level rest

end

mutual

/-- The exception for a value that cannot be written. -/
def refusal : Value → Option PyExc
  | .int n =>
      if digitLimit ≤ n.natAbs then
        some (.valueError "Exceeds the limit (4300 digits) for integer string conversion")
      else none
  | .list items => refusalList items
  | .dict items => refusalItems items
  | .datetime _ => some (.typeError "Object of type datetime is not JSON serializable")
  | .object typeName =>
      some (.typeError ("Object of type " ++ typeName ++ " is not JSON serializable"))
  | .none | .bool _ | .float _ | .str _ => none

def refusalList : List Value → Option PyExc
  | [] => none
  | value :: rest => (refusal value).or (refusalList rest)

def refusalItems : Dict → Option PyExc
  | [] => none
  | (_, value) :: rest => (refusal value).or (refusalItems rest)

end

mutual

/-- The value with the items of all its dicts in the order of their keys. -/
def sorted : Value → Value
  | .list items => .list (sortedList items)
  | .dict items => .dict ((sortedItems items).insertionSort fun item item' => item.1 ≤ item'.1)
  | .none => .none
  | .bool b => .bool b
  | .int n => .int n
  | .float repr => .float repr
  | .str s => .str s
  | .datetime t => .datetime t
  | .object typeName => .object typeName

def sortedList : List Value → List Value
  | [] => []
  | value :: rest => sorted value :: sortedList rest

def sortedItems : Dict → Dict
  | [] => []
  | (key, value) :: rest => (key, sorted value) :: sortedItems rest

end

/-- `json.dumps(value, sort_keys=sortKeys)`, with `indent=width` for the
indented layout. -/
def dumps (layout : Layout) (sortKeys : Bool) (value : Value) : Except PyExc String :=
  match refusal value with
  | some e => .error e
  | none => .ok (String.ofList (render layout 0 (if sortKeys then sorted value else value)))

end Json

end Conductor
