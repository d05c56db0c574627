import BoardMarkup.Censor
import Mathlib.Data.List.Induction

/-! Where a word matches as a whole word: the search over all places against what the word says. -/
namespace BoardMarkup.Censor

open Text

/-- Whether an asterisk may stand for a character: a letter or number, up to case. -/
def isRunCharacter (c : Char) : Bool := isLetterOrNumber c || c == '\u0345'

/-- What a word says of a text: characters up to case, and for an asterisk any letters and numbers. -/
inductive Spells : List Char → List Char → Prop
  | nil : Spells [] []
  | letter {c d : Char} {word span : List Char} (hc : c ≠ '*') (h : fold d = fold c) :
      Spells word span → Spells (c :: word) (d :: span)
  | run {run word span : List Char} (h : ∀ d ∈ run, isRunCharacter d) :
      Spells word span → Spells ('*' :: word) (run ++ span)

inductive Fits : List Item → List Char → Prop
  | nil : Fits [] []
  | literal {d : Char} {is : List Item} {span : List Char} :
      Fits is span → Fits (.literal (fold d) :: is) (d :: span)
  | run {run : List Char} {is : List Item} {span : List Char} (h : ∀ d ∈ run, isRunCharacter d) :
      Fits is span → Fits (.run :: is) (run ++ span)

private theorem items_asterisk (word : List Char) :
    items ('*' :: word) = items word ∧ (∃ rest, items word = .run :: rest) ∨
      items ('*' :: word) = .run :: items word := by
  rw [items, if_pos rfl]
  split
  · next rest h => exact .inl ⟨h.symm, rest, h⟩
  · exact .inr rfl

theorem items_letter {c : Char} (h : c ≠ '*') (word : List Char) :
    items (c :: word) = .literal (fold c) :: items word := by
  rw [items, if_neg h]

/-- Asterisks that stand for nothing may be left out. -/
theorem fits_asterisk_iff {word span : List Char} : Fits (items ('*' :: word)) span ↔
    ∃ run rest, span = run ++ rest ∧ (∀ d ∈ run, isRunCharacter d) ∧ Fits (items word) rest := by
  rcases items_asterisk word with ⟨he, is, his⟩ | he
  · rw [he, his]
    constructor
    · intro h
      exact ⟨[], span, rfl, by simp, h⟩
    · rintro ⟨run, rest, rfl, hrun, h⟩
      cases h with
      | @run more is rest hmore h =>
        rw [← List.append_assoc]
        refine .run (fun d hd => ?_) h
        rcases List.mem_append.1 hd with hd | hd
        · exact hrun d hd
        · exact hmore d hd
  · rw [he]
    constructor
    · intro h
      cases h with
      | @run run is rest hrun h => exact ⟨run, rest, rfl, hrun, h⟩
    · rintro ⟨run, rest, rfl, hrun, h⟩
      exact .run hrun h

theorem fits_items_iff {word span : List Char} : Fits (items word) span ↔ Spells word span := by
  constructor
  · intro h
    induction word generalizing span with
    | nil =>
      cases h
      exact .nil
    | cons c word ih =>
      by_cases hc : c = '*'
      · subst hc
        obtain ⟨run, rest, rfl, hrun, hrest⟩ := fits_asterisk_iff.1 h
        exact .run hrun (ih hrest)
      · rw [items_letter hc] at h
        generalize hl : fold c = l at h
        cases h with
        | literal h => exact .letter hc hl.symm (ih h)
  · intro h
    induction h with
    | nil => exact .nil
    | letter hc hd h ih =>
      rw [items_letter hc, ← hd]
      exact .literal ih
    | run hrun h ih => exact fits_asterisk_iff.2 ⟨_, _, rfl, hrun, ih⟩

/-- Only asterisks can stand for nothing. -/
theorem eq_asterisk_of_spells_nil {word : List Char} (h : Spells word []) : ∀ c ∈ word, c = '*' := by
  generalize hs : ([] : List Char) = span at h
  induction h with
  | nil => simp
  | letter hc hd h ih => cases hs
  | run hrun h ih =>
    obtain ⟨-, hspan⟩ := List.append_eq_nil_iff.1 hs.symm
    intro c hc
    rcases List.mem_cons.1 hc with rfl | hc
    · rfl
    · exact ih hspan.symm c hc

section Places

def placeOf (before : Option Sign) (cs : List Char) : Place := ⟨before, cs.head?.map Sign.ofChar⟩

def signAfter (before : Option Sign) (cs : List Char) : Option Sign :=
  cs.foldl (fun _ c => some (Sign.ofChar c)) before

theorem signAfter_append (before : Option Sign) (xs ys : List Char) :
    signAfter before (xs ++ ys) = signAfter (signAfter before xs) ys := List.foldl_append

theorem signAfter_none (cs : List Char) : signAfter none cs = cs.getLast?.map Sign.ofChar := by
  induction cs using List.reverseRecOn with
  | nil => rfl
  | append_singleton cs c ih => rw [signAfter_append, List.getLast?_concat]; rfl

def placesFrom (before : Option Sign) : List Char → List Place
  | [] => [placeOf before []]
  | c :: cs => placeOf before (c :: cs) :: placesFrom (some (Sign.ofChar c)) cs

private theorem zipWith_eq_placesFrom (before : Option Sign) (cs : List Char) :
    List.zipWith Place.mk (before :: (cs.map Sign.ofChar).map some)
      ((cs.map Sign.ofChar).map some ++ [none]) =
      placesFrom before cs := by
  induction cs generalizing before with
  | nil => rfl
  | cons c cs ih =>
    rw [placesFrom, ← ih (some (Sign.ofChar c))]
    rfl

theorem ofSigns_eq (cs : List Char) : Place.ofSigns (cs.map Sign.ofChar) = placesFrom none cs :=
  zipWith_eq_placesFrom none cs

end Places

/-- How many characters the parts of a word take at the start of a text, the runs as many as they can. -/
def best (before : Option Sign) : List Item → List Char → Option Nat
  | [], cs => if (placeOf before cs).mayEnd then some 0 else none
  | .literal _ :: _, [] => none
  | .literal l :: is, c :: cs => if fold c = l then oneMore (best (some (Sign.ofChar c)) is cs) else none
  | .run :: is, [] => best before is []
  | .run :: is, c :: cs =>
    (if isRunCharacter c then oneMore (best (some (Sign.ofChar c)) (.run :: is) cs) else none).or
      (best before is (c :: cs))
termination_by is cs => is.length + cs.length

/-- What the search knows at a place: for each end of the list of parts what it takes there. -/
def Row (before : Option Sign) (cs : List Char) : List Item → List (Option Nat) → Prop
  | [], row => row.headD none = best before [] cs
  | i :: is, row => row.headD none = best before (i :: is) cs ∧ Row before cs is row.tail

theorem Row.head {before : Option Sign} {cs : List Char} {is : List Item} {row : List (Option Nat)}
    (h : Row before cs is row) : row.headD none = best before is cs := by
  cases is with
  | nil => exact h
  | cons i is => exact h.1

theorem row_lengths_nil (before : Option Sign) (is : List Item) (later : List (Option Nat)) :
    Row before [] is (lengths (placeOf before []) is later) := by
  induction is generalizing later with
  | nil => rw [lengths, Row, best]; rfl
  | cons i is ih =>
    cases i with
    | literal l => exact ⟨by rw [best]; rfl, ih _⟩
    | run =>
      refine ⟨?_, ih _⟩
      rw [best, lengths]
      exact (ih _).head

theorem row_lengths_cons (before : Option Sign) {c : Char} {cs : List Char} {is : List Item}
    {later : List (Option Nat)} (h : Row (some (Sign.ofChar c)) cs is later) :
    Row before (c :: cs) is (lengths (placeOf before (c :: cs)) is later) := by
  induction is generalizing later with
  | nil => rw [lengths, Row, best]; rfl
  | cons i is ih =>
    cases i with
    | literal l =>
      refine ⟨?_, ih h.2⟩
      rw [best, lengths, List.headD_cons, h.2.head]
      simp [placeOf, Sign.ofChar]
    | run =>
      refine ⟨?_, ih h.2⟩
      rw [best, lengths, List.headD_cons, h.1, (ih h.2).head]
      rfl

theorem Fits.skip_run {is : List Item} {span : List Char} (h : Fits is span) : Fits (.run :: is) span :=
  @Fits.run [] is span (by simp) h

private theorem Fits.cons_run {c : Char} {is : List Item} {span : List Char} (hc : isRunCharacter c)
    (h : Fits (.run :: is) span) : Fits (.run :: is) (c :: span) := by
  cases h with
  | @run run is rest hrun h =>
    rw [← List.cons_append]
    refine .run (fun d hd => ?_) h
    rcases List.mem_cons.1 hd with rfl | hd
    · exact hc
    · exact hrun d hd

/-- What the search takes fits, and a match may end behind it. -/
theorem fits_of_best {before : Option Sign} {is : List Item} {cs : List Char} {n : Nat}
    (h : best before is cs = some n) : ∃ span after, cs = span ++ after ∧ span.length = n ∧ Fits is span ∧
      (placeOf (signAfter before span) after).mayEnd := by
  induction before, is, cs using best.induct generalizing n with
  | case1 before cs hend =>
    rw [best, if_pos hend] at h
    cases h
    exact ⟨[], cs, rfl, rfl, .nil, hend⟩
  | case2 before cs hend =>
    rw [best, if_neg hend] at h
    cases h
  | case3 before l is =>
    rw [best] at h
    cases h
  | case4 before is c cs ih =>
    rw [best, if_pos rfl] at h
    obtain ⟨k, hk, rfl⟩ := Option.map_eq_some_iff.1 h
    obtain ⟨span, after, rfl, hlength, hfits, hend⟩ := ih hk
    exact ⟨c :: span, after, rfl, by rw [List.length_cons, hlength], .literal hfits, hend⟩
  | case5 before l is c cs hne =>
    rw [best, if_neg hne] at h
    cases h
  | case6 before is ih =>
    rw [best] at h
    obtain ⟨span, after, hcs, hlength, hfits, hend⟩ := ih h
    exact ⟨span, after, hcs, hlength, .skip_run hfits, hend⟩
  | case7 before is c cs ihLonger ihShorter =>
    rw [best, Option.or_eq_some_iff] at h
    rcases h with h | ⟨-, h⟩
    · by_cases hc : isRunCharacter c
      · rw [if_pos hc] at h
        obtain ⟨k, hk, rfl⟩ := Option.map_eq_some_iff.1 h
        obtain ⟨span, after, rfl, hlength, hfits, hend⟩ := ihLonger hk
        exact ⟨c :: span, after, rfl, by rw [List.length_cons, hlength], hfits.cons_run hc, hend⟩
      · rw [if_neg hc] at h
        cases h
    · obtain ⟨span, after, hcs, hlength, hfits, hend⟩ := ihShorter h
      exact ⟨span, after, hcs, hlength, .skip_run hfits, hend⟩

private theorem best_run_isSome {before : Option Sign} {is : List Item} {cs : List Char}
    (h : (best before is cs).isSome) : (best before (.run :: is) cs).isSome := by
  cases cs with
  | nil => rwa [best]
  | cons c cs =>
    rw [best, Option.isSome_or, h, Bool.or_true]

/-- Where something fits and a match may end behind it, the search finds a match. -/
theorem best_isSome {before : Option Sign} {is : List Item} {span after : List Char} (h : Fits is span)
    (hend : (placeOf (signAfter before span) after).mayEnd) : (best before is (span ++ after)).isSome := by
  induction h generalizing before with
  | nil =>
    have hhere : (placeOf before after).mayEnd := hend
    rw [List.nil_append, best, if_pos hhere]
    rfl
  | @literal d is span h ih =>
    rw [List.cons_append, best, if_pos rfl, oneMore, Option.isSome_map]
    exact ih hend
  | @run run is span hrun h ih =>
    rw [signAfter_append] at hend
    induction run generalizing before with
    | nil => exact best_run_isSome (ih hend)
    | cons c run ihRun =>
      have hlonger : (best (some (Sign.ofChar c)) (.run :: is) (run ++ span ++ after)).isSome :=
        ihRun (fun d hd => hrun d (.tail _ hd)) hend
      rw [List.cons_append, List.cons_append, best, if_pos (hrun c (by simp)), Option.isSome_or, oneMore,
        Option.isSome_map, hlonger, Bool.true_or]

def wholeWord (is : List Item) (before : Option Sign) (cs : List Char) : Option Nat :=
  if (placeOf before cs).mayStart then best before is cs else none

def searchStep (is : List Item) (p : Place) (later : List (Option Nat) × List (Option Nat)) :
    List (Option Nat) × List (Option Nat) :=
  let here := lengths p is later.1
  (here, (if p.mayStart then here.headD none else none) :: later.2)

theorem wordLengths_eq (is : List Item) (places : List Place) :
    wordLengths is places = (places.foldr (searchStep is) ([], [])).2 := rfl

private theorem row_search (is : List Item) (before : Option Sign) (cs : List Char) :
    Row before cs is ((placesFrom before cs).foldr (searchStep is) ([], [])).1 := by
  induction cs generalizing before with
  | nil => exact row_lengths_nil before is []
  | cons c cs ih => exact row_lengths_cons before (ih (some (Sign.ofChar c)))

theorem wordLengths_cons (is : List Item) (before : Option Sign) (c : Char) (cs : List Char) :
    wordLengths is (placesFrom before (c :: cs)) =
      wholeWord is before (c :: cs) :: wordLengths is (placesFrom (some (Sign.ofChar c)) cs) := by
  have hrow := (row_lengths_cons before (row_search is (some (Sign.ofChar c)) cs)).head
  rw [wordLengths_eq, wordLengths_eq, placesFrom, List.foldr_cons, searchStep, wholeWord, ← hrow]

def startsInWord (cs : List Char) : Bool := cs.head?.any isWord

def endsInWord (cs : List Char) : Bool := cs.getLast?.any isWord

/--
Whether a word matches a text between two others as a whole word: at either end the text stops, or a character
of words meets one that is none.
-/
structure MatchesAt (w : Word) (before span after : List Char) : Prop where
  start : before = [] ∨ endsInWord before ≠ startsInWord (span ++ after)
  spells : Spells w.word.toList span
  finish : after = [] ∨ endsInWord (before ++ span) ≠ startsInWord after

theorem isBoundary_iff {before after : List Char} : (placeOf (signAfter none before) after).isBoundary ↔
    endsInWord before ≠ startsInWord after := by
  rw [Place.isBoundary, placeOf, signAfter_none, Option.any_map, Option.any_map, bne_iff_ne]
  exact Iff.rfl

theorem mayStart_iff {before after : List Char} : (placeOf (signAfter none before) after).mayStart ↔
    before = [] ∨ endsInWord before ≠ startsInWord after := by
  have hfirst : (signAfter none before).isNone ↔ before = [] := by
    rw [signAfter_none, Option.isNone_map, Option.isNone_iff_eq_none, List.getLast?_eq_none_iff]
  rw [Place.mayStart, Bool.or_eq_true, isBoundary_iff]
  exact or_congr hfirst Iff.rfl

theorem mayEnd_iff {before after : List Char} : (placeOf (signAfter none before) after).mayEnd ↔
    after = [] ∨ endsInWord before ≠ startsInWord after := by
  have hlast : (after.head?.map Sign.ofChar).isNone ↔ after = [] := by
    rw [Option.isNone_map, Option.isNone_iff_eq_none, List.head?_eq_none_iff]
  rw [Place.mayEnd, Bool.or_eq_true, isBoundary_iff]
  exact or_congr hlast Iff.rfl

section WholeWord

variable {w : Word} {before cs : List Char}

theorem matchesAt_of_wholeWord {n : Nat}
    (h : wholeWord (items w.word.toList) (signAfter none before) cs = some n) :
    ∃ span after, cs = span ++ after ∧ span.length = n ∧ MatchesAt w before span after := by
  rw [wholeWord] at h
  split at h
  · next hstart =>
    obtain ⟨span, after, rfl, hlength, hfits, hend⟩ := fits_of_best h
    rw [← signAfter_append] at hend
    exact ⟨span, after, rfl, hlength, mayStart_iff.1 hstart, fits_items_iff.1 hfits, mayEnd_iff.1 hend⟩
  · cases h

private theorem wholeWord_isSome {span after : List Char} (h : MatchesAt w before span after) :
    (wholeWord (items w.word.toList) (signAfter none before) (span ++ after)).isSome := by
  have hend := mayEnd_iff.2 h.finish
  rw [signAfter_append] at hend
  rw [wholeWord, if_pos (mayStart_iff.2 h.start)]
  exact best_isSome (fits_items_iff.2 h.spells) hend

theorem wholeWord_eq_none_iff : wholeWord (items w.word.toList) (signAfter none before) cs = none ↔
    ∀ span after, cs = span ++ after → ¬ MatchesAt w before span after := by
  constructor
  · rintro h span after rfl hm
    have hsome := wholeWord_isSome hm
    rw [h] at hsome
    cases hsome
  · intro h
    rw [Option.eq_none_iff_forall_ne_some]
    intro n hn
    obtain ⟨span, after, hcs, -, hm⟩ := matchesAt_of_wholeWord hn
    exact h span after hcs hm

end WholeWord

end BoardMarkup.Censor
