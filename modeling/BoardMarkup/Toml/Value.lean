/-! Values of a TOML document, and the tables its keys and headers make. -/
namespace BoardMarkup

/-- What made a table, which decides what may still be added to it. -/
inductive Toml.Origin where
  | header
  | implied
  | dotted
  | inline
  deriving DecidableEq

/-- A value. Of a number with a fraction or an exponent only its being finite is kept. -/
inductive Toml where
  | text (s : String)
  | int (n : Int)
  | float (finite : Bool)
  | bool (b : Bool)
  | list (items : List Toml)
  | table (origin : Toml.Origin) (fields : List (String × Toml))
  | tables (items : List (List (String × Toml)))

namespace Toml

abbrev Fields := List (String × Toml)

/-- The integers that can be read have 128 bits, signed or unsigned. -/
def isReadableInt (n : Int) : Bool := -Int.pow 2 127 ≤ n && n < Int.pow 2 128

mutual

def isReadable : Toml → Bool
  | .int n => isReadableInt n
  | .float finite => finite
  | .list items => areReadable items
  | .table _ fields => haveReadable fields
  | .tables items => allHaveReadable items
  | _ => true

def areReadable : List Toml → Bool
  | [] => true
  | v :: vs => v.isReadable && areReadable vs

def haveReadable : List (String × Toml) → Bool
  | [] => true
  | (_, v) :: fs => v.isReadable && haveReadable fs

def allHaveReadable : List (List (String × Toml)) → Bool
  | [] => true
  | fs :: rest => haveReadable fs && allHaveReadable rest

end

def field? (fields : Fields) (key : String) : Option Toml := (fields.find? (·.1 == key)).map (·.2)

def set (key : String) (v : Toml) : Fields → Fields
  | [] => [(key, v)]
  | f :: fs => if f.1 = key then (key, v) :: fs else f :: set key v fs

def updateLast (f : Fields → Option Fields) : List Fields → Option (List Fields)
  | [] => none
  | [fs] => (f fs).map ([·])
  | fs :: rest => (updateLast f rest).map (fs :: ·)

/-- Goes into a table named in a header, making it where there is none. Of tables it is the last. -/
def enter (f : Fields → Option Fields) (key : String) (fields : Fields) : Option Fields := do
  let v ← match field? fields key with
    | none => (f []).map (.table .implied)
    | some (.table .inline _) => none
    | some (.table origin inner) => (f inner).map (.table origin)
    | some (.tables items) => (updateLast f items).map .tables
    | some _ => none
  pure (set key v fields)

def inside (f : Fields → Option Fields) : List String → Fields → Option Fields
  | [], fields => f fields
  | key :: path, fields => enter (inside f path) key fields

/-- Makes the table of a header. It may be there only because a longer header implied it. -/
def define (key : String) (fields : Fields) : Option Fields :=
  match field? fields key with
  | none => some (set key (.table .header []) fields)
  | some (.table .implied inner) => some (set key (.table .header inner) fields)
  | some _ => none

def append (key : String) (fields : Fields) : Option Fields :=
  match field? fields key with
  | none => some (set key (.tables [[]]) fields)
  | some (.tables items) => some (set key (.tables (items ++ [[]])) fields)
  | some _ => none

/--
Gives a key its value, once. A table on the way may have been implied by headers, but the one
that holds a dotted key is made of dotted keys alone.
-/
def assign (v : Toml) (holder : Origin) (key : String) : List String → Fields → Option Fields
  | [], fields =>
    match holder, field? fields key with
    | .dotted, none => some (set key v fields)
    | _, _ => none
  | next :: path, fields => do
    let inner ← match field? fields key with
      | none => (assign v .dotted next path []).map (.table .dotted)
      | some (.table .dotted inner) => (assign v .dotted next path inner).map (.table .dotted)
      | some (.table .implied inner) => (assign v .implied next path inner).map (.table .implied)
      | some (.tables items) => (updateLast (assign v .header next path) items).map .tables
      | some _ => none
    pure (set key inner fields)

def put (v : Toml) (key : String) (path : List String) (fields : Fields) : Option Fields :=
  match path with
  | [] => assign v .dotted key [] fields
  | path => assign v .header key path fields

end Toml
end BoardMarkup
