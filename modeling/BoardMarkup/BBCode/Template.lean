import BoardMarkup.BBCode.Usage
import BoardMarkup.Markup.Check
import BoardMarkup.Text.Quoted

/-! Templates of BBCodes, and why a definition is refused. -/
namespace BoardMarkup.BBCode

open Text

inductive DefinitionError where
  | invalidUsage (usage : String) (fault : UsageFault)
  | duplicate (name : String)
  | unknownFilter (name filter : String)
  | undefinedToken (name token : String)
  | malformedTemplate (name : String) (fault : Markup.Fault)
  | hazardousTemplate (name : String) (hazard : Markup.Hazard)
  deriving DecidableEq

def DefinitionError.message : DefinitionError → String
  | .invalidUsage usage fault => "invalid usage " ++ quote usage ++ ": " ++ fault.message
  | .duplicate name => "BBCode " ++ name ++ " already exists"
  | .unknownFilter name filter => "unknown filter " ++ filter ++ " in BBCode " ++ name
  | .undefinedToken name token => "token \x7b" ++ token ++ "\x7d is undefined in BBCode " ++ name
  | .malformedTemplate name fault => "malformed template for BBCode " ++ name ++ ": " ++ fault.message
  | .hazardousTemplate name hazard => "unsafe template for BBCode " ++ name ++ ": " ++ hazard.message

/-- A template. A checked one must also be harmless. -/
structure Template where
  source : String
  checked : Bool := true
  deriving DecidableEq

def placeholder : Finder (List Char) := fun _ cs =>
  match cs with
  | '{' :: rest => do
    let id ← tokenId? rest
    if (rest.drop id.length).head? = some '}' then pure (id, id.length + 2) else none
  | _ => none

def tokensOf (template : String) : List String :=
  (findAll placeholder template.toList).map String.ofList

/-- Texts in the reader's language have tokens of their own, which no usage declares. -/
def isLanguageToken (id : String) : Bool := "L_".toList.isPrefixOf id.toList

def Template.validate (t : Template) (u : Usage) : Except DefinitionError Unit :=
  match (tokensOf t.source).find? fun id => !isLanguageToken id && !u.defines id with
  | some id => .error (.undefinedToken u.name id)
  | none =>
    match Markup.check t.checked t.source with
    | .ok () => .ok ()
    | .error (.fault f) => .error (.malformedTemplate u.name f)
    | .error (.hazard h) => .error (.hazardousTemplate u.name h)

end BoardMarkup.BBCode
