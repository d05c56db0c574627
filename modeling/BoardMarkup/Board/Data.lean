import BoardMarkup.Style.Switch

/-! The data of a board from which its formatter is made. -/
namespace BoardMarkup.Board

/-- A style: its template document, and its activations in base64. -/
structure StyleRow where
  id : Style.StyleId
  document : String
  bitfield : String

structure BBCodeRow where
  usage : String
  template : String

/-- A smiley: the code that is written, the address of its image and what it expresses. -/
structure SmileyRow where
  code : String
  url : String
  emotion : String

/-- A censored word and what replaces it, both with entities. -/
structure WordRow where
  word : String
  replacement : String

inductive QueryFailure where
  | unavailable
  | permissionDenied
  | invalidData
  | other
  deriving DecidableEq

def QueryFailure.name : QueryFailure → String
  | .unavailable => "Unavailable"
  | .permissionDenied => "PermissionDenied"
  | .invalidData => "InvalidData"
  | .other => "Other"

/-- A query that failed, with the text of the underlying error if there is one. -/
structure QueryError where
  failure : QueryFailure
  query : String
  source : Option String := none
  deriving DecidableEq

def QueryError.message (e : QueryError) : String :=
  e.failure.name ++ " while reading " ++ e.query ++
    match e.source with
    | some text => ": " ++ text
    | none => ""

structure Data where
  styles : Except QueryError (List StyleRow) := .ok []
  bbcodes : Except QueryError (List BBCodeRow) := .ok []
  smilies : Except QueryError (List SmileyRow) := .ok []
  words : Except QueryError (List WordRow) := .ok []

/-- Rows held in memory. The query named `failing`, if there is one, is not available. -/
structure Rows where
  styles : List StyleRow := []
  bbcodes : List BBCodeRow := []
  smilies : List SmileyRow := []
  words : List WordRow := []
  failing : Option String := none

namespace Rows

def query {α : Type} (r : Rows) (name : String) (rows : List α) : Except QueryError (List α) :=
  if r.failing = some name then .error ⟨.unavailable, name, none⟩ else .ok rows

def data (r : Rows) : Data where
  styles := r.query "styles" r.styles
  bbcodes := r.query "bbcodes" r.bbcodes
  smilies := r.query "smilies" r.smilies
  words := r.query "censored words" r.words

def addBBCode (r : Rows) (usage template : String) : Rows :=
  { r with bbcodes := r.bbcodes ++ [⟨usage, template⟩] }

def addWord (r : Rows) (word replacement : String) : Rows :=
  { r with words := r.words ++ [⟨word, replacement⟩] }

end Rows
end BoardMarkup.Board
