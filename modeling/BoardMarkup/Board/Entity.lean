import BoardMarkup.Text.Pieces

/-! HTML entities for the characters that markup reserves. -/
namespace BoardMarkup.Board

open Text

def escapeChar (c : Char) : List Char :=
  if c = '&' then "&amp;".toList
  else if c = '"' then "&quot;".toList
  else if c = '\'' then "&#039;".toList
  else if c = '<' then "&lt;".toList
  else if c = '>' then "&gt;".toList
  else [c]

def escapeHtml (s : String) : String := String.ofList (s.toList.flatMap escapeChar)

/-- The entities that are read, with their characters. The apostrophe has two. -/
def entities : List (List Char × Char) := [
  ("&amp;".toList, '&'), ("&quot;".toList, '"'), ("&lt;".toList, '<'), ("&gt;".toList, '>'),
  ("&#39;".toList, '\''), ("&#039;".toList, '\'')]

def entity : Finder Char := fun _ cs =>
  (entities.find? fun e => (after? e.1 cs).isSome).map fun e => (e.2, e.1.length)

/-- Reads entities as characters, each once. -/
def unescapeHtml (s : String) : String := String.ofList (replaceAll entity ([·]) s.toList)

end BoardMarkup.Board
