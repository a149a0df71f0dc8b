/-
Model fields as pydantic dumps them in JSON mode and validates them again.  The
package itself is a parameter: what it makes of a value that is not of the
type of the field is left open.
-/
import Conductor.Python.JsonFile

namespace Conductor

open Json

/-- What pydantic makes of the value of a field of each type, of a datetime and
of a foreign object in JSON mode, and the clock that a default reads. -/
structure Pydantic where
  str : Value → Except PyExc String
  int : Value → Except PyExc Int
  bool : Value → Except PyExc Bool
  dict : Value → Except PyExc Dict
  list : Value → Except PyExc (List Value)
  datetime : Value → Except PyExc Time
  isoformat : Time → String
  dumpObject : String → Except PyExc Value
  now : Value → Time

namespace Pydantic

/-- A value of the type of its field is taken as it is, and a datetime is read
from its text. -/
structure Lawful (p : Pydantic) : Prop where
  str : ∀ s, p.str (.str s) = .ok s
  int : ∀ n, p.int (.int n) = .ok n
  bool : ∀ b, p.bool (.bool b) = .ok b
  dict : ∀ items, p.dict (.dict items) = .ok items
  list : ∀ values, p.list (.list values) = .ok values
  datetime : ∀ t, p.datetime (.str (p.isoformat t)) = .ok t

/-- A pydantic that refuses every value of another type.  It writes the epoch as
the real one does. -/
def strict : Pydantic where
  str
    | .str s => .ok s
    | _ => .error (.valueError "Input should be a valid string")
  int
    | .int n => .ok n
    | _ => .error (.valueError "Input should be a valid integer")
  bool
    | .bool b => .ok b
    | _ => .error (.valueError "Input should be a valid boolean")
  dict
    | .dict items => .ok items
    | _ => .error (.valueError "Input should be a valid dictionary")
  list
    | .list values => .ok values
    | _ => .error (.valueError "Input should be a valid list")
  datetime
    | .str s => .ok (if s = "1970-01-01T00:00:00Z" then 0 else s.length)
    | _ => .error (.valueError "Input should be a valid datetime")
  isoformat t :=
    if t = 0 then "1970-01-01T00:00:00Z" else String.ofList (List.replicate t '.')
  dumpObject typeName := .error (.typeError ("Unable to serialize unknown type: " ++ typeName))
  now _ := 0

theorem strict_lawful : strict.Lawful where
  str _ := rfl
  int _ := rfl
  bool _ := rfl
  dict _ := rfl
  list _ := rfl
  datetime t := by
    by_cases ht : t = 0
    · subst ht
      rfl
    · have hepoch : String.ofList (List.replicate t '.') ≠ "1970-01-01T00:00:00Z" := by
        intro heq
        have hchars : List.replicate t '.' = "1970-01-01T00:00:00Z".toList := by
          rw [← heq, String.toList_ofList]
        have hdot : '1' ∈ List.replicate t '.' := by
          rw [hchars]
          decide
        exact absurd (List.eq_of_mem_replicate hdot) (by decide)
      simp [strict, ht, hepoch]

def fieldRequired (field : String) : PyExc :=
  .exception "ValidationError" (field ++ "\nField required")

/-- A field without a default. -/
def required {α : Type} (items : Dict) (field : String) (check : Value → Except PyExc α) :
    Except PyExc α :=
  match items.lookup field with
  | some value => check value
  | none => .error (fieldRequired field)

/-- A field with a default, which is not validated. -/
def defaulted {α : Type} (items : Dict) (field : String) (default : α)
    (check : Value → Except PyExc α) : Except PyExc α :=
  match items.lookup field with
  | some value => check value
  | none => .ok default

/-- A field of type `T | None`. -/
def orNone {α : Type} (check : Value → Except PyExc α) : Value → Except PyExc (Option α)
  | .none => .ok none
  | value => (check value).map some

variable (p : Pydantic)

mutual

/-- `model_dump(mode="json")` of a value in a field of type `Any`. -/
def jsonMode : Value → Except PyExc Value
  | .list items => (jsonModeList items).map .list
  | .dict items => (jsonModeItems items).map .dict
  | .datetime t => .ok (.str (p.isoformat t))
  | .object typeName => p.dumpObject typeName
  | .none => .ok .none
  | .bool b => .ok (.bool b)
  | .int n => .ok (.int n)
  | .float repr => .ok (.float repr)
  | .str s => .ok (.str s)

def jsonModeList : List Value → Except PyExc (List Value)
  | [] => .ok []
  | value :: rest => do
      let value ← jsonMode value
      let rest ← jsonModeList rest
      return value :: rest

def jsonModeItems : Dict → Except PyExc Dict
  | [] => .ok []
  | (key, value) :: rest => do
      let value ← jsonMode value
      let rest ← jsonModeItems rest
      return (key, value) :: rest

end

def datetimeText (t : Time) : Value := .str (p.isoformat t)

/-- A value that JSON carries is dumped as it is. -/
theorem jsonMode_eq {value : Value} (hvalue : Faithful value) : p.jsonMode value = .ok value := by
  induction value using value_induction with
  | hscalar value hlist hdict =>
      cases value with
      | list items => exact absurd rfl (hlist items)
      | dict items => exact absurd rfl (hdict items)
      | datetime t => exact hvalue.elim
      | object typeName => exact hvalue.elim
      | _ => rfl
  | hlist items ih =>
      rw [Faithful, faithfulList_iff] at hvalue
      have hitems : p.jsonModeList items = .ok items := by
        induction items with
        | nil => rfl
        | cons value rest ihrest =>
            rw [List.forall_mem_cons] at ih hvalue
            rw [jsonModeList, ih.1 hvalue.1, ihrest ih.2 hvalue.2]
            rfl
      rw [jsonMode, hitems]
      rfl
  | hdict items ih =>
      rw [Faithful, faithfulItems_iff] at hvalue
      replace hvalue := hvalue.2
      have hitems : p.jsonModeItems items = .ok items := by
        induction items with
        | nil => rfl
        | cons item rest ihrest =>
            obtain ⟨key, value⟩ := item
            rw [List.forall_mem_cons] at ih hvalue
            rw [jsonModeItems, ih.1 hvalue.1, ihrest ih.2 hvalue.2]
            rfl
      rw [jsonMode, hitems]
      rfl

theorem jsonModeItems_eq {items : Dict} (hitems : Faithful (.dict items)) :
    p.jsonModeItems items = .ok items := by
  have hdict := p.jsonMode_eq hitems
  rw [jsonMode] at hdict
  cases hmode : p.jsonModeItems items with
  | error e => simp [hmode, Except.map] at hdict
  | ok dumped =>
      rw [hmode] at hdict
      simpa [Except.map] using hdict

end Pydantic

end Conductor
