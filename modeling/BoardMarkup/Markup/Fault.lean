/-! What can be wrong with the markup of a template. -/
namespace BoardMarkup.Markup

/-- Why a text is not well-formed. Positions count the bytes of a tag from behind its `<`. -/
inductive Fault where
  | openReference
  | unknownDeclaration
  | openComment
  | openCdata
  | openDoctype
  | namelessDoctype
  | openInstruction
  | openXmlDeclaration
  | openTag
  | openValue (quote : Char)
  | mismatched (expected found : String)
  | unmatched (found : String)
  | noEquals (position : Nat)
  | repeated (position first : Nat)
  | noValue (position : Nat)
  | unquoted (position : Nat)
  | noClosingQuote (position : Nat) (quote : Char)
  | openElement
  deriving DecidableEq

private def notClosed (what mark : String) : String :=
  what ++ " not closed: `" ++ mark ++ "` not found before end of input"

def Fault.message : Fault → String
  | .openReference => "ill-formed document: " ++ notClosed "entity or character reference" ";"
  | .unknownDeclaration => "syntax error: unknown or missed symbol in markup"
  | .openComment => "syntax error: " ++ notClosed "comment" "-->"
  | .openCdata => "syntax error: " ++ notClosed "CDATA" "]]>"
  | .openDoctype => "syntax error: " ++ notClosed "DOCTYPE" ">"
  | .namelessDoctype =>
    "ill-formed document: `<!DOCTYPE>` declaration does not contain a name of a document type"
  | .openInstruction => "syntax error: " ++ notClosed "processing instruction" "?>"
  | .openXmlDeclaration => "syntax error: " ++ notClosed "XML declaration" "?>"
  | .openTag => "syntax error: " ++ notClosed "tag" ">"
  | .openValue quote => "syntax error: " ++ notClosed "attribute value" (String.singleton quote)
  | .mismatched expected found =>
    "ill-formed document: expected `</" ++ expected ++ ">`, but `</" ++ found ++ ">` was found"
  | .unmatched found =>
    "ill-formed document: close tag `</" ++ found ++ ">` does not match any open tag"
  | .noEquals position =>
    "position " ++ toString position ++
      ": attribute key must be directly followed by `=` or space"
  | .repeated position first =>
    "position " ++ toString position ++ ": duplicated attribute, previous declaration at position " ++
      toString first
  | .noValue position =>
    "position " ++ toString position ++ ": `=` must be followed by an attribute value"
  | .unquoted position =>
    "position " ++ toString position ++ ": attribute value must be enclosed in `\"` or `'`"
  | .noClosingQuote position quote =>
    "position " ++ toString position ++ ": missing closing quote `" ++ String.singleton quote ++
      "` in attribute value"
  | .openElement => "unclosed element"

/-- Markup through which a reader's text could act as script. -/
inductive Hazard where
  | rawOutput
  | dynamicHandler (name : String)
  deriving DecidableEq

def Hazard.message : Hazard → String
  | .rawOutput => "output escaping disabled"
  | .dynamicHandler name => "dynamic content in " ++ name ++ " event handler"

inductive Problem where
  | fault (f : Fault)
  | hazard (h : Hazard)
  deriving DecidableEq

def Problem.message : Problem → String
  | .fault f => f.message
  | .hazard h => h.message

end BoardMarkup.Markup
