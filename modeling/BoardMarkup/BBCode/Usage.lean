import BoardMarkup.Text.Pieces
import BoardMarkup.Text.Trim

/-! Usages: how a BBCode is written, with the tokens it declares. -/
namespace BoardMarkup.BBCode

open Text

/-- A declared token: its parameter stands behind `=`, its options behind `;`. -/
structure Token where
  id : String
  param : Option String := none
  options : List String := []
  deriving DecidableEq

/-- A parsed usage. The parse rules are the patterns of its `PARSE` tokens. -/
structure Usage where
  name : String
  tagName : String
  tokens : List Token
  parseRules : List String
  source : String
  deriving DecidableEq

inductive UsageFault where
  | noName
  | noTagName
  deriving DecidableEq

def UsageFault.message : UsageFault → String
  | .noName => "expected [NAME at the start"
  | .noTagName => "[* needs a $tagName"

def isLetter (c : Char) : Bool := c.isUpper || c.isLower

/-- Upper case for the letters of ASCII. -/
def upper (s : String) : String := String.ofList (s.toList.map Char.toUpper)

def lower (s : String) : String := String.ofList (s.toList.map Char.toLower)

/-- The id of a token: a capital, capitals and underscores, then digits. -/
def tokenId? (cs : List Char) : Option (List Char) :=
  match cs with
  | [] => none
  | c :: rest =>
    if c.isUpper then
      let letters := rest.takeWhile fun c => c.isUpper || c == '_'
      let digits := (rest.drop letters.length).takeWhile Char.isDigit
      some (c :: letters ++ digits)
    else none

/-- A token as a usage declares it: the id, and what follows it up to the closing brace. -/
def declaration : Finder (List Char × List Char) := fun _ cs =>
  match cs with
  | '{' :: rest => do
    let id ← tokenId? rest
    let tail := rest.drop id.length
    let extra := tail.takeWhile (· != '}')
    if (extra = [] ∨ extra.head? = some ';' ∨ extra.head? = some '=') ∧ extra.length < tail.length then
      pure ((id, extra), id.length + extra.length + 2)
    else none
  | _ => none

def optionsOf (parts : List (List Char)) : List String :=
  (parts.filter (· ≠ [])).map String.ofList

def Token.ofDeclaration (id extra : List Char) : Token :=
  match extra with
  | '=' :: rest =>
    match split ';' rest with
    | param :: parts => ⟨String.ofList id, some (String.ofList param), optionsOf parts⟩
    | [] => ⟨String.ofList id, none, []⟩
  | _ :: rest => ⟨String.ofList id, none, optionsOf (split ';' rest)⟩
  | [] => ⟨String.ofList id, none, []⟩

def addOptions (options more : List String) : List String :=
  more.foldl (fun os o => if o ∈ os then os else os ++ [o]) options

/-- Declares a token. A token declared before only gains options. -/
def addToken (tokens : List Token) (t : Token) : List Token :=
  if tokens.any (·.id == t.id) then
    tokens.map fun u => if u.id = t.id then { u with options := addOptions u.options t.options } else u
  else tokens ++ [t]

/-- The token whose parameter is a pattern instead of a value. -/
def parseId : List Char := "PARSE".toList

/-- The name behind the opening bracket: an asterisk, or a letter with letters, digits and underscores. -/
def header? (cs : List Char) : Option (List Char) :=
  match cs with
  | '[' :: '*' :: _ => some ['*']
  | '[' :: c :: rest =>
    if isLetter c then some (c :: rest.takeWhile fun c => isLetter c || c.isDigit || c == '_') else none
  | _ => none

def tagNameMark : Finder (List Char) := fun _ cs => do
  match ← after? "$tagName=".toList cs with
  | c :: rest =>
    if isLetter c || c == '_' then
      let name := c :: rest.takeWhile fun c => isLetter c || c.isDigit || c == '_' || c == ':'
      pure (name, 9 + name.length)
    else none
  | [] => none

namespace Usage

def parse? (usage : String) : Except UsageFault Usage := do
  let cs := stripWhile isBlank usage.toList
  let name ← match header? cs with
    | some name => .ok (upper (String.ofList name))
    | none => .error .noName
  let tagName := match findAll tagNameMark cs with
    | given :: _ => upper (String.ofList given)
    | [] => name
  if tagName = "*" then .error .noTagName
  else
    let declared := findAll declaration cs
    pure {
      name, tagName
      tokens := ((declared.filter (·.1 ≠ parseId)).map fun d => Token.ofDeclaration d.1 d.2).foldl addToken []
      parseRules := declared.filterMap fun
        | (id, '=' :: rule) => if id = parseId then some (String.ofList rule) else none
        | _ => none
      source := String.ofList cs }

def defines (u : Usage) (id : String) : Bool := u.tokens.any (·.id == id)

end Usage
end BoardMarkup.BBCode
