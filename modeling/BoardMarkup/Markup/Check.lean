import BoardMarkup.Markup.Attribute
import BoardMarkup.Markup.Token

/-! The check that a template is well-formed and, where asked, harmless. -/
namespace BoardMarkup.Markup

def walk (checked : Bool) : List (List Char) → List Token → Except Problem (List (List Char))
  | openNames, [] => .ok openNames
  | openNames, .opening content :: tokens =>
    match attributeProblem? checked content with
    | some p => .error p
    | none => walk checked (elementName content :: openNames) tokens
  | openNames, .empty content :: tokens =>
    match attributeProblem? checked content with
    | some p => .error p
    | none => walk checked openNames tokens
  | [], .closing name :: _ => .error (.fault (.unmatched (String.ofList name)))
  | expected :: openNames, .closing name :: tokens =>
    if name = expected then walk checked openNames tokens
    else .error (.fault (.mismatched (String.ofList expected) (String.ofList name)))

/-- The name of the element whose content a template is read as. -/
def wrapper : List Char := "template".toList

/-- Reads a template as the content of an element, up to the end of that element. -/
def check (checked : Bool) (template : String) : Except Problem Unit := do
  let (tokens, cursor) := scan .text (template.toList ++ "</".toList ++ wrapper ++ ['>'])
  let openNames ← walk checked [wrapper] tokens
  match cursor.fault? with
  | some f => .error (.fault f)
  | none => if openNames.isEmpty then .ok () else .error (.fault .openElement)

end BoardMarkup.Markup
