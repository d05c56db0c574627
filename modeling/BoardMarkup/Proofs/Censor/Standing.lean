import BoardMarkup.Proofs.Censor.Spans
import BoardMarkup.Proofs.Text.CharSet

/-! When a word that stands between blanks is replaced: the characters at its ends decide. -/
namespace BoardMarkup.Censor

open Text

structure StandsAlone (before after : List Char) : Prop where
  before : ∀ c, before.getLast? = some c → isBlank c = true
  after : ∀ c, after.head? = some c → isBlank c = true

/--
Whether a word is found where it stands alone: its pattern compiles, and at an end at which the text goes on
it has a character of words.
-/
structure Found (compiles : String → Bool) (before word after : List Char) : Prop where
  compiled : compiles (String.ofList word) = true
  start : before = [] ∨ startsInWord word = true
  finish : after = [] ∨ endsInWord word = true

theorem StandsAlone.endsInWord_eq {before after : List Char} (h : StandsAlone before after) :
    endsInWord before = false := by
  rw [endsInWord]
  cases hc : before.getLast? with
  | none => rfl
  | some c => exact isWord_of_isBlank (h.before c hc)

theorem StandsAlone.startsInWord_eq {before after : List Char} (h : StandsAlone before after) :
    startsInWord after = false := by
  rw [startsInWord]
  cases hc : after.head? with
  | none => rfl
  | some c => exact isWord_of_isBlank (h.after c hc)

theorem spells_self {word : List Char} (h : '*' ∉ word) : Spells word word := by
  induction word with
  | nil => exact .nil
  | cons c word ih =>
    rw [List.mem_cons, not_or] at h
    exact .letter (Ne.symm h.1) rfl (ih h.2)

/-- Without asterisks a word takes as many characters as it has, and blanks only for blanks. -/
theorem spells_plain {word span : List Char} (h : Spells word span) (hplain : '*' ∉ word) :
    span.length = word.length ∧ ((∀ c ∈ word, isBlank c = false) → ∀ d ∈ span, isBlank d = false) := by
  induction h with
  | nil => simp
  | @letter c d word span hc hd h ih =>
    rw [List.mem_cons, not_or] at hplain
    obtain ⟨hlength, hblank⟩ := ih hplain.2
    refine ⟨by simp [hlength], fun hword e he => ?_⟩
    rcases List.mem_cons.1 he with rfl | he
    · rw [← isBlank_fold, hd, isBlank_fold]
      exact hword c List.mem_cons_self
    · exact hblank (fun c hc => hword c (.tail _ hc)) e he
  | run => exact absurd List.mem_cons_self hplain

section Ends

variable {w : Word} {before span after : List Char}

/-- Between blanks a match needs characters of words at the ends at which the text goes on. -/
theorem matchesAt_iff_of_standsAlone (h : StandsAlone before after) (hne : span ≠ []) :
    MatchesAt w before span after ↔ Spells w.word.toList span ∧ (before = [] ∨ startsInWord span = true) ∧
      (after = [] ∨ endsInWord span = true) := by
  have hstart : startsInWord (span ++ after) = startsInWord span := by
    cases span with
    | nil => exact absurd rfl hne
    | cons c span => rfl
  have hend : endsInWord (before ++ span) = endsInWord span := by
    rw [endsInWord, endsInWord, List.getLast?_append, List.getLast?_eq_some_getLast hne, Option.some_or]
  constructor
  · intro hm
    have hs := hm.start
    have hf := hm.finish
    rw [hstart, h.endsInWord_eq] at hs
    rw [hend, h.startsInWord_eq] at hf
    exact ⟨hm.spells, by simpa using hs, by simpa using hf⟩
  · rintro ⟨hspells, hs, hf⟩
    refine ⟨?_, hspells, ?_⟩
    · rw [hstart, h.endsInWord_eq]
      simpa using hs
    · rw [hend, h.startsInWord_eq]
      simpa using hf

end Ends

section Position

variable {before word after xs span ys : List Char}

theorem mem_of_getElem?_middle {i : Nat} {c : Char} (h : (xs ++ span ++ ys)[i]? = some c)
    (hfirst : xs.length ≤ i)
    (hlast : i < xs.length + span.length) : c ∈ span := by
  rw [List.append_assoc, List.getElem?_append_right hfirst, List.getElem?_append_left (by omega)] at h
  exact List.mem_of_getElem? h

/-- A stretch without blanks, as long as a word between blanks and not apart from it, is at its place. -/
theorem length_eq_of_overlap (h : StandsAlone before after) (he : xs ++ span ++ ys = before ++ word ++ after)
    (hlength : span.length = word.length) (hspan : ∀ c ∈ span, isBlank c = false)
    (hfirst : xs.length < before.length + word.length) (hlast : before.length < xs.length + span.length) :
    xs.length = before.length := by
  rcases Nat.lt_trichotomy xs.length before.length with hlt | heq | hgt
  · -- the blank in front of the word would be in the stretch
    obtain ⟨c, hc⟩ : ∃ c, before.getLast? = some c := by
      rw [← Option.isSome_iff_exists, List.getLast?_isSome]
      rintro rfl
      exact absurd hlt (Nat.not_lt_zero _)
    have hget : (xs ++ span ++ ys)[before.length - 1]? = some c := by
      rw [he, List.append_assoc, List.getElem?_append_left (by omega), ← List.getLast?_eq_getElem?, hc]
    have hmem := mem_of_getElem?_middle hget (by omega) (by omega)
    exact absurd (h.before c hc) (by simp [hspan c hmem])
  · exact heq
  · -- the blank behind the word would be in it
    have hlengths := congrArg List.length he
    simp only [List.length_append] at hlengths
    obtain ⟨c, hc⟩ : ∃ c, after.head? = some c := by
      rw [← Option.isSome_iff_exists, List.isSome_head?]
      rintro rfl
      simp only [List.length_nil] at hlengths
      omega
    have hget : (xs ++ span ++ ys)[before.length + word.length]? = some c := by
      rw [he, List.getElem?_append_right (by simp), List.length_append, Nat.sub_self,
        ← List.head?_eq_getElem?, hc]
    have hmem := mem_of_getElem?_middle hget (by omega) (by omega)
    exact absurd (h.after c hc) (by simp [hspan c hmem])

end Position

section Replaced

variable {compiles : String → Bool} {before word after : List Char}

def soleWord (word : List Char) (replacement : Option String) : WordList :=
  ⟨[⟨String.ofList word, replacement.filter (· ≠ "")⟩]⟩

theorem wordList_ofWords (tagName : String) (replacement : Option String) (hne : word ≠ [])
    (hplain : '*' ∉ word) :
    (Plugin.ofWords tagName [(String.ofList word, replacement)]).wordList = soleWord word replacement := by
  have hany : (String.ofList word).toList.any (· != '*') = true := by
    rw [String.toList_ofList]
    cases word with
    | nil => exact absurd rfl hne
    | cons c word =>
      rw [List.mem_cons, not_or] at hplain
      simp [Ne.symm hplain.1]
  rw [Plugin.wordList, Plugin.words_ofWords, registeredWords, List.filter_cons, if_pos hany]
  rfl

private theorem exists_span_of_found (replacement : Option String) (hne : word ≠ []) (hplain : '*' ∉ word)
    (h : StandsAlone before after) (hf : Found compiles before word after) :
    ∃ s ∈ (soleWord word replacement).spans compiles (String.ofList (before ++ word ++ after)),
      s.Overlaps before.length word.length := by
  have hm : MatchesAt ⟨String.ofList word, replacement.filter (· ≠ "")⟩ before word after := by
    rw [matchesAt_iff_of_standsAlone h hne, String.toList_ofList]
    exact ⟨spells_self hplain, hf.start, hf.finish⟩
  have hmem : Word.mk (String.ofList word) (replacement.filter (· ≠ "")) ∈
      (soleWord word replacement).usable compiles :=
    List.mem_filter.2 ⟨List.mem_singleton_self _, hf.compiled⟩
  have hletter : ∀ w ∈ (soleWord word replacement).words, ∃ c ∈ w.word.toList, c ≠ '*' := by
    intro w hw
    rw [List.mem_singleton.1 hw, String.toList_ofList]
    exact ⟨word.head hne, List.head_mem hne, fun he => hplain (he ▸ List.head_mem hne)⟩
  obtain ⟨c, rest, hsplit⟩ := List.exists_cons_of_ne_nil hne
  have ho : Occurs ((soleWord word replacement).usable compiles) before (c :: (rest ++ after)) := by
    rw [← List.cons_append, ← hsplit]
    exact .of_mem hmem hm
  obtain ⟨s, hs, hfirst, hlast⟩ := exists_span_of_occurs hletter ho
  rw [← List.cons_append, ← hsplit, ← List.append_assoc] at hs
  have hpos : 0 < word.length := List.length_pos_iff.2 hne
  exact ⟨s, hs, by omega, hlast⟩

/-- A span that reaches into a word without blanks is that word. -/
theorem found_of_overlap {replacement : Option String} (hne : word ≠ []) (hplain : '*' ∉ word)
    (h : StandsAlone before after) (hword : ∀ c ∈ word, isBlank c = false) {s : Span}
    (hs : s ∈ (soleWord word replacement).spans compiles (String.ofList (before ++ word ++ after)))
    (hover : s.Overlaps before.length word.length) :
    Found compiles before word after ∧ s.start = before.length ∧ s.length = word.length := by
  obtain ⟨xs, span, ys, hsplit, hstart, hlength, w, hw, hm, -⟩ := matchesAt_of_mem_spans hs
  obtain ⟨hfirst, hlast⟩ := hover
  obtain ⟨hw, hcompiled⟩ := List.mem_filter.1 hw
  rw [List.mem_singleton.1 hw] at hm hcompiled
  have hspells := hm.spells
  rw [String.toList_ofList] at hspells hsplit
  obtain ⟨hspan, hblank⟩ := spells_plain hspells hplain
  have hplace := length_eq_of_overlap h hsplit.symm hspan (hblank hword) (by omega) (by omega)
  rw [List.append_assoc, List.append_assoc] at hsplit
  obtain ⟨rfl, hrest⟩ := List.append_inj hsplit hplace.symm
  obtain ⟨rfl, rfl⟩ := List.append_inj hrest hspan.symm
  obtain ⟨-, hends⟩ := (matchesAt_iff_of_standsAlone h hne).1 hm
  exact ⟨⟨hcompiled, hends.1, hends.2⟩, hstart.symm, hlength.symm⟩

end Replaced

/--
Whatever patterns the library compiles, a word without asterisks that stands between blanks is replaced where
its pattern compiles and it has characters of words at the ends at which the text goes on. A word that holds
no blanks is replaced nowhere else.
-/
theorem standing_word_replaced {before word after : List Char} (compiles : String → Bool) (tagName : String)
    (replacement : Option String) (hne : word ≠ []) (hplain : '*' ∉ word) (h : StandsAlone before after) :
    let l := (Plugin.ofWords tagName [(String.ofList word, replacement)]).wordList
    let text := String.ofList (before ++ word ++ after)
    (l.censorWith compiles text).toList = splice 0 (l.spans compiles text) (before ++ word ++ after) ∧
      (Found compiles before word after →
        ∃ s ∈ l.spans compiles text, s.Overlaps before.length word.length) ∧
      ((∀ c ∈ word, isBlank c = false) →
        ∀ s ∈ l.spans compiles text, s.Overlaps before.length word.length →
          Found compiles before word after ∧ s.start = before.length ∧ s.length = word.length) := by
  intro l text
  have hl : l = soleWord word replacement := wordList_ofWords tagName replacement hne hplain
  have htext : text.toList = before ++ word ++ after := String.toList_ofList
  rw [hl]
  refine ⟨?_, ?_, ?_⟩
  · rw [WordList.censor_eq_splice, htext]
  · exact exists_span_of_found replacement hne hplain h
  · exact fun hword s hs hover => found_of_overlap hne hplain h hword hs hover

theorem standing_word_replaced_example : StandsAlone "Well, ".toList " it".toList ∧
    ∃ s ∈ (Plugin.ofWords "censor" [("darn", none)]).wordList.spans (fun _ => true) "Well, darn it",
      s.Overlaps 6 4 := by
  have h : StandsAlone "Well, ".toList " it".toList := by
    constructor <;> rintro c ⟨⟩ <;> decide
  have hf : Found (fun _ => true) "Well, ".toList "darn".toList " it".toList :=
    ⟨rfl, .inr (by decide +kernel), .inr (by decide +kernel)⟩
  have hne : "darn".toList ≠ [] := by decide
  exact ⟨h, (standing_word_replaced _ "censor" none hne (by decide) h).2.1 hf⟩

/-- A word of symbols is replaced where it is the whole text, but not between blanks. -/
theorem symbols_stay_between_blanks : StandsAlone " ".toList " ".toList ∧
    (Plugin.ofWords "censor" [("$$$", none)]).wordList.censorWith (fun _ => true) "$$$" = "****" ∧
    (Plugin.ofWords "censor" [("$$$", none)]).wordList.censorWith (fun _ => true) " $$$ " = " $$$ " ∧
    ¬ ∃ s ∈ (Plugin.ofWords "censor" [("$$$", none)]).wordList.spans (fun _ => true) " $$$ ",
      s.Overlaps 1 3 := by
  have hnone : (Plugin.ofWords "censor" [("$$$", none)]).wordList.spans (fun _ => true) " $$$ " = [] := by
    decide +kernel
  have h : StandsAlone " ".toList " ".toList := by
    constructor <;> rintro c ⟨⟩ <;> decide
  refine ⟨h, by decide +kernel, by decide +kernel, ?_⟩
  rw [hnone]
  rintro ⟨s, hs, -⟩
  cases hs

end BoardMarkup.Censor
