/-! JSON values and their written forms. -/
namespace BoardMarkup

/--
A JSON value. A string literal denotes a text, or none when it holds an unpaired surrogate or a
byte of no character. Numbers other than integers are kept as they are written.
-/
inductive Json where
  | null
  | bool (b : Bool)
  | int (n : Int)
  | real (literal : String)
  | str (s : Option String)
  | list (items : List Json)
  | object (fields : List (Option String × Json))

namespace Json

def text (s : String) : Json := .str (some s)

def record (fields : List (String × Json)) : Json :=
  .object (fields.map fun f => (some f.1, f.2))

def ofOption {α : Type} (f : α → Json) : Option α → Json
  | some a => f a
  | none => .null

/-- A character inside a string literal. Only quotes, backslashes and controls are escaped. -/
def escape (c : Char) : List Char :=
  if c = '"' then ['\\', '"']
  else if c = '\\' then ['\\', '\\']
  else if c = '\x08' then ['\\', 'b']
  else if c = '\t' then ['\\', 't']
  else if c = '\n' then ['\\', 'n']
  else if c = '\x0c' then ['\\', 'f']
  else if c = '\r' then ['\\', 'r']
  else if c.toNat < 0x20 then
    ['\\', 'u', '0', '0', Nat.digitChar (c.toNat / 16), Nat.digitChar (c.toNat % 16)]
  else [c]

/-- A string literal. One that denotes no text is written as an unpaired surrogate. -/
def literal : Option String → List Char
  | some s => '"' :: s.toList.flatMap escape ++ ['"']
  | none => "\"\\ud800\"".toList

def writeInt : Int → List Char
  | .ofNat n => Nat.toDigits 10 n
  | .negSucc n => '-' :: Nat.toDigits 10 (n + 1)

mutual

def compact : Json → List Char
  | .null => "null".toList
  | .bool true => "true".toList
  | .bool false => "false".toList
  | .int n => writeInt n
  | .real s => s.toList
  | .str s => literal s
  | .list [] => "[]".toList
  | .list (v :: vs) => '[' :: compact v ++ compactItems vs
  | .object [] => "\x7b\x7d".toList
  | .object ((k, v) :: fs) => '{' :: literal k ++ ':' :: compact v ++ compactFields fs

def compactItems : List Json → List Char
  | [] => [']']
  | v :: vs => ',' :: compact v ++ compactItems vs

def compactFields : List (Option String × Json) → List Char
  | [] => ['}']
  | (k, v) :: fs => ',' :: literal k ++ ':' :: compact v ++ compactFields fs

end

def newline (depth : Nat) : List Char := '\n' :: List.replicate (2 * depth) ' '

mutual

/-- Written over lines, at a depth of indentation. Empty lists and objects stay on one line. -/
def prettyAt (depth : Nat) : Json → List Char
  | .null => "null".toList
  | .bool true => "true".toList
  | .bool false => "false".toList
  | .int n => writeInt n
  | .real s => s.toList
  | .str s => literal s
  | .list [] => "[]".toList
  | .list (v :: vs) =>
    '[' :: newline (depth + 1) ++ prettyAt (depth + 1) v ++ prettyItems depth vs
  | .object [] => "\x7b\x7d".toList
  | .object ((k, v) :: fs) =>
    '{' :: newline (depth + 1) ++ literal k ++ ':' :: ' ' :: prettyAt (depth + 1) v ++
      prettyFields depth fs

def prettyItems (depth : Nat) : List Json → List Char
  | [] => newline depth ++ [']']
  | v :: vs => ',' :: newline (depth + 1) ++ prettyAt (depth + 1) v ++ prettyItems depth vs

def prettyFields (depth : Nat) : List (Option String × Json) → List Char
  | [] => newline depth ++ ['}']
  | (k, v) :: fs =>
    ',' :: newline (depth + 1) ++ literal k ++ ':' :: ' ' :: prettyAt (depth + 1) v ++
      prettyFields depth fs

end

def write (v : Json) : String := String.ofList v.compact

def writePretty (v : Json) : String := String.ofList (v.prettyAt 0)

end Json
end BoardMarkup
