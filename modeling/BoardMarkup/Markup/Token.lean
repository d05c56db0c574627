import BoardMarkup.Markup.Doctype
import BoardMarkup.Markup.Fault
import BoardMarkup.Text.Classes
import BoardMarkup.Text.Trim

/-! Tags of a markup text, read from left to right. -/
namespace BoardMarkup.Markup

open Text

/-- A tag, with the text between its angle brackets and outside its slash. -/
inductive Token where
  | opening (content : List Char)
  | empty (content : List Char)
  | closing (name : List Char)
  deriving DecidableEq

/-- Where in the markup a reader stands. Texts already seen are held in reverse. -/
inductive Cursor where
  | text
  | reference
  | less
  | declaration
  | commentStart
  | comment (dashes : Nat)
  | cdataStart (expected : List Char)
  | cdata (brackets : Nat)
  | doctypeStart (expected : List Char)
  | doctype (part : Doctype) (named : Bool)
  | instruction (seen : List Char)
  | tag (quote : Option Char) (seen : List Char)
  | stopped (f : Fault)
  deriving DecidableEq

/-- The name in a closing tag, without blanks behind it. A name of blanks alone keeps them. -/
def closingName (name : List Char) : List Char :=
  if name.all isMarkupBlank then name else dropEndWhile isMarkupBlank name

/-- The tag with this content. A slash at the start closes, one at the end makes the element empty. -/
def Token.ofContent (content : List Char) : Token :=
  match content with
  | '/' :: name => .closing (closingName name)
  | _ => if content.getLast? = some '/' then .empty content.dropLast else .opening content

/-- Inside a tag: it ends at the first `>` outside quotes. -/
def tagStep (quote : Option Char) (seen : List Char) (c : Char) : Cursor × Option Token :=
  if c = '>' ∧ quote = none then (.text, some (.ofContent seen.reverse))
  else (.tag (quoteAfter quote c) (c :: seen), none)

/-- Inside a document type, of which something other than blanks has been seen or not. -/
def doctypeStep (part : Doctype) (named : Bool) (c : Char) : Cursor :=
  if c = '>' ∧ part.atEnd then
    if named then .text else .stopped .namelessDoctype
  else .doctype (part.step c) (named || !isMarkupBlank c)

def lessStep (c : Char) : Cursor × Option Token :=
  if c = '!' then (.declaration, none)
  else if c = '?' then (.instruction [], none)
  else tagStep none [] c

def declarationStep (c : Char) : Cursor :=
  if c = '-' then .commentStart
  else if c = '[' then .cdataStart "CDATA[".toList
  else if c = 'D' ∨ c = 'd' then .doctypeStart "OCTYPE".toList
  else .stopped .unknownDeclaration

/-- Reads one character. A tag is returned with its closing bracket. -/
def step : Cursor → Char → Cursor × Option Token
  | .text, c => (if c = '<' then .less else if c = '&' then .reference else .text, none)
  | .reference, c =>
    (if c = ';' then .text
     else if c = '&' ∨ c = '<' then .stopped .openReference
     else .reference, none)
  | .less, c => lessStep c
  | .declaration, c => (declarationStep c, none)
  | .commentStart, c => (if c = '-' then .comment 0 else .stopped .openComment, none)
  | .comment dashes, c =>
    (if c = '>' ∧ 2 ≤ dashes then .text
     else .comment (countAfter '-' dashes c), none)
  | .cdataStart expected, c =>
    (match expected with
     | [] => .stopped .openCdata
     | [e] => if c = e then .cdata 0 else .stopped .openCdata
     | e :: es => if c = e then .cdataStart es else .stopped .openCdata, none)
  | .cdata brackets, c =>
    (if c = '>' ∧ 2 ≤ brackets then .text
     else .cdata (countAfter ']' brackets c), none)
  | .doctypeStart expected, c =>
    (match expected with
     | [] => .stopped .openDoctype
     | [e] => if c.toUpper = e then .doctype (.before none) false else .stopped .openDoctype
     | e :: es => if c.toUpper = e then .doctypeStart es else .stopped .openDoctype, none)
  | .doctype part named, c => (doctypeStep part named c, none)
  | .instruction seen, c =>
    (if c = '>' then
      match seen with
      | [] => .stopped .openInstruction
      | '?' :: _ => .text
      | _ => .instruction (c :: seen)
     else .instruction (c :: seen), none)
  | .tag quote seen, c => tagStep quote seen c
  | .stopped f, _ => (.stopped f, none)

/-- The tags of a text, and where reading it ends. -/
def scan : Cursor → List Char → List Token × Cursor
  | cursor, [] => ([], cursor)
  | cursor, c :: cs =>
    let (next, token) := step cursor c
    let (tokens, last) := scan next cs
    (token.toList ++ tokens, last)

def isXmlDeclaration (content : List Char) : Bool :=
  match content with
  | 'x' :: 'm' :: 'l' :: rest => rest.head?.all fun c => isMarkupBlank c || c == '?'
  | _ => false

def Cursor.fault? : Cursor → Option Fault
  | .text => none
  | .reference => some .openReference
  | .less => some .openTag
  | .declaration => some .unknownDeclaration
  | .commentStart | .comment _ => some .openComment
  | .cdataStart _ | .cdata _ => some .openCdata
  | .doctypeStart _ | .doctype .. => some .openDoctype
  | .instruction seen =>
    if isXmlDeclaration seen.reverse then some .openXmlDeclaration else some .openInstruction
  | .tag none _ => some .openTag
  | .tag (some quote) _ => some (.openValue quote)
  | .stopped f => some f

end BoardMarkup.Markup
