import BoardMarkup.Markup.Fault
import BoardMarkup.Text.Classes

/-! Attributes of a tag. -/
namespace BoardMarkup.Markup

open Text

/-- An attribute, with the byte position of its name. -/
structure Attribute where
  name : List Char
  position : Nat
  value : List Char
  deriving DecidableEq

/-- Where in the attributes a reader stands. Texts already seen are held in reverse. -/
inductive AttributeCursor where
  | between
  | name (start : Nat) (seen : List Char)
  | afterName (start : Nat) (name : List Char)
  | afterEquals (start : Nat) (name : List Char)
  | value (quote : Char) (start : Nat) (name seen : List Char)
  | stopped (f : Fault)
  deriving DecidableEq

/-- Goes on behind the equals sign of a name, unless an earlier attribute has it too. -/
def afterEquals (earlier : List Attribute) (start : Nat) (name : List Char) : AttributeCursor :=
  match earlier.find? (·.name == name) with
  | some a => .stopped (.repeated start a.position)
  | none => .afterEquals start name

def attributeStep (earlier : List Attribute) (position : Nat) :
    AttributeCursor → Char → AttributeCursor × Option Attribute
  | .between, c => (if isMarkupBlank c then .between else .name position [c], none)
  | .name start seen, c =>
    (if c = '=' then afterEquals earlier start seen.reverse
     else if isMarkupBlank c then .afterName start seen.reverse
     else .name start (c :: seen), none)
  | .afterName start name, c =>
    (if isMarkupBlank c then .afterName start name
     else if c = '=' then afterEquals earlier start name
     else .stopped (.noEquals position), none)
  | .afterEquals start name, c =>
    (if isMarkupBlank c then .afterEquals start name
     else if c = '"' ∨ c = '\'' then .value c start name []
     else .stopped (.unquoted position), none)
  | .value quote start name seen, c =>
    if c = quote then (.between, some ⟨name, start, seen.reverse⟩)
    else (.value quote start name (c :: seen), none)
  | .stopped f, _ => (.stopped f, none)

def AttributeCursor.fault? (length : Nat) : AttributeCursor → Option Fault
  | .between => none
  | .name .. | .afterName .. => some (.noEquals length)
  | .afterEquals .. => some (.noValue length)
  | .value quote .. => some (.noClosingQuote length quote)
  | .stopped f => some f

/-- The attributes from a position on, behind earlier ones, and what ends them. -/
def scanAttributes (earlier : List Attribute) (position : Nat) (cursor : AttributeCursor) :
    List Char → List Attribute × Option Fault
  | [] => ([], cursor.fault? position)
  | c :: cs =>
    match attributeStep earlier position cursor c with
    | (next, some a) =>
      let (attributes, fault) := scanAttributes (earlier ++ [a]) (position + c.utf8Size) next cs
      (a :: attributes, fault)
    | (next, none) => scanAttributes earlier (position + c.utf8Size) next cs

def elementName (content : List Char) : List Char := content.takeWhile (!isMarkupBlank ·)

def attributes (content : List Char) : List Attribute × Option Fault :=
  let name := elementName content
  scanAttributes [] (String.ofList name).utf8ByteSize .between (content.drop name.length)

/-- What an attribute of a template must not be: a way to unescaped output, or a handler made from tokens. -/
def Attribute.hazard? (a : Attribute) : Option Hazard :=
  let name := a.name.map Char.toLower
  if name = "disable-output-escaping".toList then some .rawOutput
  else if "on".toList.isPrefixOf name ∧ '{' ∈ a.value then
    some (.dynamicHandler (String.ofList name))
  else none

/-- The first problem of a tag's attributes. Hazards count only in a checked template. -/
def attributeProblem? (checked : Bool) (content : List Char) : Option Problem :=
  let (found, fault) := attributes content
  match if checked then found.findSome? Attribute.hazard? else none with
  | some h => some (.hazard h)
  | none => fault.map .fault

end BoardMarkup.Markup
