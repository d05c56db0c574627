import BoardMarkup.Json.Value

/-! Values of structured types read from JSON. -/
namespace BoardMarkup.Json

/-- What a record holds for a field: a value, nothing, or nothing because its list is too short. -/
inductive Slot where
  | given (v : Json)
  | missing
  | cutOff

/-- The value of the one field with this key. Two such fields are an error. -/
def field? (fields : List (Option String × Json)) (name : String) : Option Slot :=
  match fields.filter (·.1 == some name) with
  | [] => some .missing
  | [f] => some (.given f.2)
  | _ => none

/-- The fields of a record with these names: an object in any order, or a list in theirs. -/
def slots? (names : List String) : Json → Option (List Slot)
  | .object fields =>
    if fields.all (·.1.isSome) then names.mapM (field? fields) else none
  | .list items =>
    if items.length ≤ names.length then
      some (items.map .given ++ List.replicate (names.length - items.length) .cutOff)
    else none
  | _ => none

namespace Slot

def required? {α : Type} (f : Json → Option α) : Slot → Option α
  | .given v => f v
  | _ => none

def optional? {α : Type} (f : Json → Option α) : Slot → Option (Option α)
  | .given .null => some none
  | .given v => (f v).map some
  | .missing => some none
  | .cutOff => none

def defaulted? {α : Type} (a : α) (f : Json → Option α) : Slot → Option α
  | .given v => f v
  | _ => some a

end Slot

def asBool? : Json → Option Bool
  | .bool b => some b
  | _ => none

def asText? : Json → Option String
  | .str s => s
  | _ => none

def asInt64? : Json → Option Int64
  | .int n => if Int64.minValue.toInt ≤ n ∧ n ≤ Int64.maxValue.toInt then some (Int64.ofInt n) else none
  | _ => none

def asList? {α : Type} (f : Json → Option α) : Json → Option (List α)
  | .list items => items.mapM f
  | _ => none

def asFields? {α : Type} (f : Json → Option α) : Json → Option (List (String × α))
  | .object fields => fields.mapM fun (k, v) => do pure (← k, ← f v)
  | _ => none

def asOption? {α : Type} (f : Json → Option α) : Json → Option (Option α)
  | .null => some none
  | v => (f v).map some

end BoardMarkup.Json
