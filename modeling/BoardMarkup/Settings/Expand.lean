import BoardMarkup.Table
import BoardMarkup.Text.Classes
import BoardMarkup.Text.Pieces

/-! Variables of the environment in the values of settings. -/
namespace BoardMarkup.Settings

open Text

abbrev Environment := Table String

def isNameChar (c : Char) : Bool := isAlphanumeric c || c == '_'

/-- The value of a variable, or its name if it is not set. -/
def lookup (env : Environment) (name : List Char) : Except String (List Char) :=
  match env.get? (String.ofList name) with
  | some v => .ok v.toList
  | none => .error (String.ofList name)

/-- A reference in braces. Behind `:-` stands what counts when the variable is not set. -/
def reference (env : Environment) (inside : List Char) : Except String (List Char) :=
  match cut? ":-".toList inside with
  | some (c :: name, default) =>
    match lookup env (c :: name) with
    | .ok v => .ok v
    | .error _ => .ok default
  | _ => lookup env inside

/-- Expands the text behind the next `skip` characters. The name of an unset variable is the error. -/
def expandFrom (env : Environment) : Nat → List Char → Except String (List Char)
  | _, [] => .ok []
  | skip + 1, _ :: cs => expandFrom env skip cs
  | 0, c :: cs =>
    if c = '$' then
      match cs with
      | '{' :: body =>
        let inside := body.takeWhile (· != '}')
        if inside.length < body.length then do
          let v ← reference env inside
          pure (v ++ (← expandFrom env (inside.length + 2) cs))
        else do pure ('$' :: '{' :: (← expandFrom env 1 cs))
      | '$' :: _ => do pure ('$' :: (← expandFrom env 1 cs))
      | _ =>
        match cs.takeWhile isNameChar with
        | [] => do pure ('$' :: (← expandFrom env 0 cs))
        | name => do
          let v ← lookup env name
          pure (v ++ (← expandFrom env name.length cs))
    else do pure (c :: (← expandFrom env 0 cs))

/-- Expands a value, if there is a reference in braces in it. Other values stay as they are. -/
def expand (env : Environment) (value : String) : Except String String :=
  if (cut? ['$', '{'] value.toList).isSome then (expandFrom env 0 value.toList).map String.ofList
  else .ok value

end BoardMarkup.Settings
