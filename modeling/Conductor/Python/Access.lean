/-
Values as Python takes them: their truth, and the items of a value that may or
may not be a dict.
-/
import Conductor.Python.Assoc
import Conductor.Python.Json

namespace Conductor

/-- `bool(x)` of a float by its text: false if it is rounded to zero, which is
when it is at most half of the smallest float, `2 ^ -1074`. -/
def floatTruthy (text : String) : Bool :=
  let cs := (Json.expect '-' text.toList).getD text.toList
  let whole := Json.readWhole cs
  let fraction := Json.readFraction whole.2
  let exponent := (Json.readExponent fraction.2).1
  let digits := whole.1 ++ fraction.1.drop 1
  let scale := Nat.ofDigitChars 10 (exponent.filter Char.isDigit) 0
  let mantissa := Nat.ofDigitChars 10 digits 0
  let places := Nat.pow 10 (fraction.1.length - 1)
  let smallest := Nat.pow 2 1075
  whole.1.isEmpty ||
    if exponent.contains '-' then places * Nat.pow 10 scale < mantissa * smallest
    else places < mantissa * Nat.pow 10 scale * smallest

/-- `bool(value)`. -/
def Value.truthy : Value → Bool
  | Value.none => false
  | .bool b => b
  | .int n => n != 0
  | .float repr => floatTruthy repr
  | .str s => s != ""
  | .list items => !items.isEmpty
  | .dict items => !items.isEmpty
  | .datetime _ | .object _ => true

/-- `value or other`. -/
def Value.orElse (value other : Value) : Value := if value.truthy then value else other

/-- The name of the type of a value in the message of an exception. -/
def Value.typeName : Value → String
  | Value.none => "NoneType"
  | .bool _ => "bool"
  | .int _ => "int"
  | .float _ => "float"
  | .str _ => "str"
  | .list _ => "list"
  | .dict _ => "dict"
  | .datetime _ => "datetime.datetime"
  | .object typeName => typeName

/-- `value[key]`. -/
def Value.subscript (value : Value) (key : String) : Except PyExc Value :=
  match value with
  | .dict items =>
      match items.lookup key with
      | some found => .ok found
      | Option.none => .error (.exception "KeyError" (pyRepr key))
  | .list _ => .error (.typeError "list indices must be integers or slices, not str")
  | .str _ => .error (.typeError "string indices must be integers, not 'str'")
  | value => .error (.typeError (pyRepr value.typeName ++ " object is not subscriptable"))

/-- `value.get(key, default)`, of a dict. -/
def Value.get (value : Value) (key : String) (fallback : Value) : Value :=
  match value with
  | .dict items => (items.lookup key).getD fallback
  | _ => fallback

/-- `value.items()`. -/
def Value.items : Value → Except PyExc Dict
  | .dict items => .ok items
  | value => .error (.exception "AttributeError"
      (pyRepr value.typeName ++ " object has no attribute 'items'"))

/-- `value.get(key)`. -/
def Value.getItem (value : Value) (key : String) : Except PyExc (Option Value) :=
  match value with
  | .dict items => .ok (items.lookup key)
  | value => .error (.exception "AttributeError"
      (pyRepr value.typeName ++ " object has no attribute 'get'"))

/-- `value == text` for a text. -/
def Value.isStr (text : String) : Value → Bool
  | .str s => s == text
  | _ => false

/-- `key in text`, of two texts. -/
def occursIn (key : List Char) : List Char → Bool
  | [] => key.isEmpty
  | c :: rest => key.isPrefixOf (c :: rest) || occursIn key rest

/-- `key in value`. -/
def Value.hasItem (value : Value) (key : String) : Except PyExc Bool :=
  match value with
  | .dict items => .ok (items.any fun item => item.1 == key)
  | .list values => .ok (values.any fun item => item.isStr key)
  | .str text => .ok (occursIn key.toList text.toList)
  | value => .error (.typeError ("argument of type " ++ pyRepr value.typeName ++
      " is not iterable"))

/-- `value[key] = item`, as the items after it. -/
def Value.setItem (value : Value) (key : String) (item : Value) : Except PyExc Dict :=
  match value with
  | .dict items => .ok (Dict.insert key item items)
  | .list _ => .error (.typeError "list indices must be integers or slices, not str")
  | value => .error (.typeError (pyRepr value.typeName ++
      " object does not support item assignment"))

/-- `del value[key]` for a key that is there, as the items after it. -/
def Value.delItem (value : Value) (key : String) : Except PyExc Dict :=
  match value with
  | .dict items => .ok (Assoc.erase key items)
  | .list _ => .error (.typeError "list indices must be integers or slices, not str")
  | value => .error (.typeError (pyRepr value.typeName ++
      " object does not support item deletion"))

theorem Dict.insert_eq (key : String) (value : Value) (items : Dict) :
    Dict.insert key value items = Assoc.insert key value items := by
  induction items with
  | nil => rfl
  | cons item rest ih => rw [Dict.insert, Assoc.insert, ih]

theorem Dict.lookup_update_of_not_mem {d other : Dict} {key : String}
    (hkey : key ∉ Assoc.keys other) : (Dict.update d other).lookup key = d.lookup key := by
  unfold Dict.update
  induction other generalizing d with
  | nil => rfl
  | cons item rest ih =>
      rw [Assoc.keys_cons, List.mem_cons, not_or] at hkey
      rw [List.foldl_cons, ih hkey.2, Dict.insert_eq, Assoc.lookup_insert, if_neg hkey.1]

mutual

/-- `repr(value)` of a value that JSON can hold. -/
def Value.repr : Value → String
  | .none => "None"
  | .bool b => if b then "True" else "False"
  | .int n => toString n
  | .float text => text
  | .str s => pyRepr s
  | .list items => "[" ++ ", ".intercalate (Value.reprs items) ++ "]"
  | .dict items => "\x7b" ++ ", ".intercalate (Value.reprItems items) ++ "\x7d"
  | .datetime _ => "datetime.datetime"
  | .object typeName => typeName

def Value.reprs : List Value → List String
  | [] => []
  | value :: rest => value.repr :: Value.reprs rest

def Value.reprItems : Dict → List String
  | [] => []
  | (key, value) :: rest => (pyRepr key ++ ": " ++ value.repr) :: Value.reprItems rest

end

/-- `str(value)`. -/
def Value.text : Value → String
  | .str s => s
  | value => value.repr

mutual

/-- An integer of more than 4300 digits stands somewhere in the value. -/
def Value.hasLongInt : Value → Bool
  | .int n => Json.digitLimit ≤ n.natAbs
  | .list items => Value.hasLongInts items
  | .dict items => Value.hasLongItems items
  | .none | .bool _ | .float _ | .str _ | .datetime _ | .object _ => false

def Value.hasLongInts : List Value → Bool
  | [] => false
  | value :: rest => value.hasLongInt || Value.hasLongInts rest

def Value.hasLongItems : Dict → Bool
  | [] => false
  | (_, value) :: rest => value.hasLongInt || Value.hasLongItems rest

end

/-- `str(value)`, which refuses an integer of more than 4300 digits. -/
def Value.asStr (value : Value) : Except PyExc String :=
  if value.hasLongInt then
    .error (.valueError "Exceeds the limit (4300 digits) for integer string conversion")
  else .ok value.text

/-- `values[offset:]`. -/
def sliceFrom {α : Type} (offset : Int) (values : List α) : List α :=
  if 0 ≤ offset then values.drop offset.toNat
  else values.drop (values.length - (-offset).toNat)

/-- `values[:limit]`. -/
def sliceTo {α : Type} (limit : Int) (values : List α) : List α :=
  if 0 ≤ limit then values.take limit.toNat
  else values.take (values.length - (-limit).toNat)

/-- `values[offset:][:limit]`, where there may be no limit. -/
def page {α : Type} (offset : Int) (limit : Option Int) (values : List α) : List α :=
  match limit with
  | none => sliceFrom offset values
  | some limit => sliceTo limit (sliceFrom offset values)

@[simp] theorem page_all {α : Type} (values : List α) : page 0 none values = values := rfl

theorem page_sublist {α : Type} (offset : Int) (limit : Option Int) (values : List α) :
    (page offset limit values).Sublist values := by
  have hfrom : (sliceFrom offset values).Sublist values := by
    rw [sliceFrom]
    split <;> exact List.drop_sublist _ _
  cases limit with
  | none => exact hfrom
  | some limit =>
      rw [page, sliceTo]
      split <;> exact (List.take_sublist _ _).trans hfrom

theorem page_nil {α : Type} (offset : Int) (limit : Option Int) :
    page offset limit ([] : List α) = [] :=
  List.sublist_nil.mp (page_sublist offset limit [])

theorem map_sliceFrom {α β : Type} (f : α → β) (offset : Int) (values : List α) :
    (sliceFrom offset values).map f = sliceFrom offset (values.map f) := by
  unfold sliceFrom
  split <;> simp [List.map_drop]

theorem map_page {α β : Type} (f : α → β) (offset : Int) (limit : Option Int) (values : List α) :
    (page offset limit values).map f = page offset limit (values.map f) := by
  cases limit with
  | none => exact map_sliceFrom f offset values
  | some limit =>
      rw [page, page, ← map_sliceFrom, sliceTo, sliceTo, List.length_map]
      split <;> simp [List.map_take]

end Conductor
