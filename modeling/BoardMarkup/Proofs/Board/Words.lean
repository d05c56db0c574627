import BoardMarkup.Board.Assembly
import BoardMarkup.Proofs.Censor.Replacement
import BoardMarkup.Proofs.Table

/-! The censored words of a board, and the censor that holds them until it is detached. -/
namespace BoardMarkup.Board

def searchedWords (words : List WordRow) : List Censor.Word :=
  (words.filter fun r => (unescapeHtml r.word).toList.any (· != '*')).map fun r =>
    ⟨unescapeHtml r.word,
      if unescapeHtml r.replacement = "" then none else some (unescapeHtml r.replacement)⟩

/-- What a record says of the words. Of no words it says nothing. -/
def censorOf (words : List WordRow) : Option Censor.WordList :=
  if words.isEmpty then none else some ⟨searchedWords words⟩

theorem foldl_add_words (c : Censor.Plugin) (words : List WordRow) :
    words.foldl (fun c r => c.add (unescapeHtml r.word) (some (unescapeHtml r.replacement))) c =
      { c with words := c.words ++ searchedWords words } := by
  have hwords : searchedWords words = Censor.registeredWords
      (words.map fun r => (unescapeHtml r.word, some (unescapeHtml r.replacement))) := by
    rw [Censor.registeredWords, List.filter_map, List.map_map]
    refine List.map_congr_left fun r _ => ?_
    by_cases he : unescapeHtml r.replacement = "" <;> simp [he, Option.filter]
  have hfold := Censor.Plugin.foldl_add c
    (words.map fun r => (unescapeHtml r.word, some (unescapeHtml r.replacement)))
  rwa [List.foldl_map, ← hwords] at hfold

/-- When words are added to a formatter and the censor is detached, the words are all that is left. -/
theorem detachCensor_addWords {f : Formatter} (hc : f.censor = none)
    (ht : f.tags.contains censorTag = false) (words : List WordRow) :
    (addWords f words).detachCensor = (censorOf words, f) := by
  unfold addWords censorOf
  split
  · rw [Formatter.detachCensor, hc]
  · have htags : (f.tags.insert censorTag Censor.Plugin.tagTemplate).erase censorTag = f.tags :=
      Table.erase_insert ht _
    simp only [Formatter.loadCensor, Formatter.detachCensor, Option.map_some, foldl_add_words,
      Censor.Plugin.wordList, List.nil_append, htags, ← hc]

theorem detachCensor_addLinks (f : Formatter) :
    (addLinks f).detachCensor = (f.detachCensor.1, addLinks f.detachCensor.2) := by
  unfold Formatter.detachCensor
  cases hc : f.censor with
  | none => simp only [addLinks, hc]
  | some c => simp only [addLinks, hc]

end BoardMarkup.Board
