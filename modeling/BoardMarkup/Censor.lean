import BoardMarkup.Censor.Match
import BoardMarkup.Censor.Size
import BoardMarkup.Json.Record

/-! Censored words, and texts with those words replaced. -/
namespace BoardMarkup.Censor

open Text

/-- A word, in which `*` stands for any letters and numbers, and what replaces it. -/
structure Word where
  word : String
  replacement : Option String := none
  deriving DecidableEq

def defaultReplacement : String := "****"

/-- A length, and what replaces so many characters. -/
abbrev Match := Nat × List Char

def Word.matches (w : Word) (places : List Place) : List (Option Match) :=
  let replacement := (w.replacement.getD defaultReplacement).toList
  (wordLengths (items w.word.toList) places).map (·.map (·, replacement))

/-- At each place of a text the match of the first word that has one. -/
def firstMatches (ws : List Word) (places : List Place) : List (Option Match) :=
  ws.foldr (fun w later => List.zipWith Option.or (w.matches places) later) (places.map fun _ => none)

/--
Characters with the matches before them, of which the first `skip` belong to the last replaced
word. A match of no characters ends the search.
-/
def replaceMatches : Nat → List (Char × Option Match) → List Char
  | _, [] => []
  | skip + 1, _ :: rest => replaceMatches skip rest
  | 0, (c, none) :: rest => c :: replaceMatches 0 rest
  | 0, (c, some (0, _)) :: rest => c :: rest.map (·.1)
  | 0, (_, some (n + 1, replacement)) :: rest => replacement ++ replaceMatches n rest

/-- Words in the order in which they count. -/
structure WordList where
  words : List Word := []
  deriving DecidableEq

/-- The words whose patterns the library compiles. All others are skipped. -/
def WordList.usable (compiles : String → Bool) (l : WordList) : List Word :=
  l.words.filter fun w => compiles w.word

/--
Replaces every censored word whose pattern compiles, from left to right. Replacements are not searched
again.
-/
def WordList.censorWith (compiles : String → Bool) (l : WordList) (s : String) : String :=
  let cs := s.toList
  let places := Place.ofSigns (cs.map Sign.ofChar)
  String.ofList (replaceMatches 0 (cs.zip (firstMatches (l.usable compiles) places)))

/-- As the program is run here, with an estimate in place of the library's own test. -/
def WordList.censor (l : WordList) (s : String) : String := l.censorWith fitsLibrary s

/-- A list of words with the tag that marks them. -/
structure Plugin where
  tagName : String
  words : List Word := []
  deriving DecidableEq

namespace Plugin

/-- Adds a word, unless it consists of asterisks only. An empty replacement is none. -/
def add (p : Plugin) (word : String) (replacement : Option String) : Plugin :=
  if word.toList.all (· == '*') then p
  else { p with words := p.words ++ [⟨word, replacement.filter (· ≠ "")⟩] }

def tagTemplate : String :=
  "<xsl:choose><xsl:when test=\"@with\"><xsl:value-of select=\"@with\"/></xsl:when>" ++
    "<xsl:otherwise>" ++ defaultReplacement ++ "</xsl:otherwise></xsl:choose>"

def wordList (p : Plugin) : WordList := ⟨p.words⟩

end Plugin

def Word.toJson (w : Word) : Json :=
  .record [("word", .text w.word), ("replacement", .ofOption .text w.replacement)]

def Word.ofJson? (j : Json) : Option Word := do
  match ← j.slots? ["word", "replacement"] with
  | [word, replacement] =>
    pure ⟨← word.required? Json.asText?, ← replacement.optional? Json.asText?⟩
  | _ => none

def WordList.toJson (l : WordList) : Json := .record [("words", .list (l.words.map Word.toJson))]

def WordList.ofJson? (j : Json) : Option WordList := do
  match ← j.slots? ["words"] with
  | [words] => pure ⟨← words.required? (Json.asList? Word.ofJson?)⟩
  | _ => none

end BoardMarkup.Censor
