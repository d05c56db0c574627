import BoardMarkup.Proofs.Censor.Matching

/-! What is left of a text whose words were replaced from left to right. -/
namespace BoardMarkup.Censor

open Text

def Word.text (w : Word) : List Char := (w.replacement.getD defaultReplacement).toList

def Occurs (ws : List Word) (before cs : List Char) : Prop :=
  ∃ w ∈ ws, ∃ span after, cs = span ++ after ∧ MatchesAt w before span after

/--
A text with matches replaced, behind what was passed before: at the first place where a word matches, a
match of the first word that does so there, then the rest in the same way. What replaces a match is not
looked at again.
-/
inductive Censored (ws : List Word) : List Char → List Char → List Char → Prop
  | done {before rest : List Char}
      (none : ∀ gap tail, rest = gap ++ tail → ¬ Occurs ws (before ++ gap) tail) :
      Censored ws before rest rest
  | span {before gap span after out : List Char} {earlier later : List Word} {w : Word}
      (first : ∀ start inner, gap = start ++ inner → inner ≠ [] →
        ¬ Occurs ws (before ++ start) (inner ++ span ++ after))
      (words : ws = earlier ++ w :: later) (least : ¬ Occurs earlier (before ++ gap) (span ++ after))
      (nonempty : span ≠ []) (matched : MatchesAt w (before ++ gap) span after)
      (rest : Censored ws (before ++ gap ++ span) after out) :
      Censored ws before (gap ++ span ++ after) (gap ++ w.text ++ out)

theorem Occurs.of_mem {ws : List Word} {w : Word} (hw : w ∈ ws) {before span after : List Char}
    (h : MatchesAt w before span after) : Occurs ws before (span ++ after) := ⟨w, hw, span, after, rfl, h⟩

/-- A character at which no word matches stays. -/
theorem Censored.keep {ws : List Word} {before cs out : List Char} {c : Char}
    (hc : ¬ Occurs ws before (c :: cs))
    (h : Censored ws (before ++ [c]) cs out) : Censored ws before (c :: cs) (c :: out) := by
  generalize hb : before ++ [c] = next at h
  cases h with
  | done hnone =>
    refine .done fun gap tail hsplit => ?_
    cases gap with
    | nil =>
      rw [List.nil_append] at hsplit
      rwa [← hsplit, List.append_nil]
    | cons d gap =>
      obtain ⟨rfl, hrest⟩ := List.cons.inj hsplit
      have := hnone gap tail hrest
      rwa [← hb, List.append_assoc] at this
  | @span _ gap span after out earlier later w hfirst hwords hleast hne hmatched hrest =>
    subst hb
    have hshift : ∀ xs, before ++ [c] ++ xs = before ++ c :: xs := by simp
    rw [hshift] at hleast hmatched hrest
    have hall : ∀ start inner, c :: gap = start ++ inner → inner ≠ [] →
        ¬ Occurs ws (before ++ start) (inner ++ span ++ after) := by
      intro start inner hgap hinner
      cases start with
      | nil =>
        rw [List.nil_append] at hgap
        rwa [List.append_nil, ← hgap]
      | cons d start =>
        obtain ⟨rfl, htail⟩ := List.cons.inj hgap
        rw [← hshift]
        exact hfirst start inner htail hinner
    exact .span hall hwords hleast hne hmatched hrest

/-- At a place where a word matches the first that does so is replaced. -/
theorem Censored.replace {ws earlier later : List Word} {w : Word} {before span after out : List Char}
    (hws : ws = earlier ++ w :: later) (hleast : ¬ Occurs earlier before (span ++ after)) (hne : span ≠ [])
    (hm : MatchesAt w before span after) (h : Censored ws (before ++ span) after out) :
    Censored ws before (span ++ after) (w.text ++ out) := by
  rw [← List.append_nil before] at hleast hm h
  have hfirst : ∀ start inner, [] = start ++ inner → inner ≠ [] →
      ¬ Occurs ws (before ++ start) (inner ++ span ++ after) := fun start inner hgap hinner =>
    absurd (List.append_eq_nil_iff.1 hgap.symm).2 hinner
  exact .span hfirst hws hleast hne hm h

section Search

variable {ws : List Word}

def firstMatch (ws : List Word) (before : Option Sign) (cs : List Char) : Option Match :=
  ws.findSome? fun w => (wholeWord (items w.word.toList) before cs).map (·, w.text)

theorem firstMatches_cons (ws : List Word) (before : Option Sign) (c : Char) (cs : List Char) :
    firstMatches ws (placesFrom before (c :: cs)) =
      firstMatch ws before (c :: cs) :: firstMatches ws (placesFrom (some (Sign.ofChar c)) cs) := by
  induction ws with
  | nil => rfl
  | cons w ws ih =>
    have hword : w.matches (placesFrom before (c :: cs)) =
        (wholeWord (items w.word.toList) before (c :: cs)).map (·, w.text) ::
          w.matches (placesFrom (some (Sign.ofChar c)) cs) := by
      rw [Word.matches, wordLengths_cons]
      rfl
    have hunfold : ∀ places, firstMatches (w :: ws) places =
        List.zipWith Option.or (w.matches places) (firstMatches ws places) := fun _ => rfl
    rw [hunfold, hunfold, hword, ih, List.zipWith_cons_cons, firstMatch, firstMatch, List.findSome?_cons]
    cases (wholeWord (items w.word.toList) before (c :: cs)) <;> rfl

theorem firstMatch_eq_none_iff {before cs : List Char} :
    firstMatch ws (signAfter none before) cs = none ↔ ¬ Occurs ws before cs := by
  rw [firstMatch, List.findSome?_eq_none_iff]
  constructor
  · rintro h ⟨w, hw, span, after, rfl, hm⟩
    have hnone := h w hw
    rw [Option.map_eq_none_iff, wholeWord_eq_none_iff] at hnone
    exact hnone span after rfl hm
  · intro h w hw
    rw [Option.map_eq_none_iff, wholeWord_eq_none_iff]
    rintro span after rfl hm
    exact h (.of_mem hw hm)

theorem firstMatch_eq_some {before cs : List Char} {n : Nat} {replacement : List Char}
    (h : firstMatch ws (signAfter none before) cs = some (n, replacement)) :
    ∃ earlier w later span after, ws = earlier ++ w :: later ∧ ¬ Occurs earlier before cs ∧
      cs = span ++ after ∧ span.length = n ∧ MatchesAt w before span after ∧ replacement = w.text := by
  obtain ⟨earlier, w, later, hws, hw, hearlier⟩ := List.findSome?_eq_some_iff.1 h
  obtain ⟨k, hk, he⟩ := Option.map_eq_some_iff.1 hw
  obtain ⟨rfl, rfl⟩ := Prod.mk.inj he
  obtain ⟨span, after, hcs, hlength, hm⟩ := matchesAt_of_wholeWord hk
  have hnone : firstMatch earlier (signAfter none before) cs = none := List.findSome?_eq_none_iff.2 hearlier
  exact ⟨earlier, w, later, span, after, hws, firstMatch_eq_none_iff.1 hnone, hcs, hlength, hm, rfl⟩

/-- The rest of a text with its words replaced, of which the first `skip` characters are gone. -/
def censorFrom (ws : List Word) (skip : Nat) (before : Option Sign) (cs : List Char) : List Char :=
  replaceMatches skip (cs.zip (firstMatches ws (placesFrom before cs)))

theorem censorFrom_nil (ws : List Word) (skip : Nat) (before : Option Sign) :
    censorFrom ws skip before [] = [] := by
  rw [censorFrom, List.zip_nil_left, replaceMatches]

private theorem censorFrom_skip (ws : List Word) (before : Option Sign) (span after : List Char) :
    censorFrom ws span.length before (span ++ after) = censorFrom ws 0 (signAfter before span) after := by
  induction span generalizing before with
  | nil => rfl
  | cons c span ih =>
    rw [List.cons_append, censorFrom, firstMatches_cons, List.zip_cons_cons, List.length_cons, replaceMatches]
    exact ih (some (Sign.ofChar c))

theorem censorFrom_of_none {before : Option Sign} {c : Char} {cs : List Char}
    (h : firstMatch ws before (c :: cs) = none) :
    censorFrom ws 0 before (c :: cs) = c :: censorFrom ws 0 (some (Sign.ofChar c)) cs := by
  rw [censorFrom, firstMatches_cons, List.zip_cons_cons, h, replaceMatches, censorFrom]

private theorem censorFrom_of_some {before : Option Sign} {c : Char} {span after replacement : List Char}
    (h : firstMatch ws before (c :: span ++ after) = some (span.length + 1, replacement)) :
    censorFrom ws 0 before (c :: span ++ after) =
      replacement ++ censorFrom ws 0 (signAfter before (c :: span)) after := by
  have hskip := censorFrom_skip ws (some (Sign.ofChar c)) span after
  rw [List.cons_append] at h ⊢
  rw [censorFrom, firstMatches_cons, List.zip_cons_cons, h, replaceMatches]
  exact congrArg _ hskip

/-- Where no word consists of asterisks only, the search goes on to the end of the text. -/
theorem censored_censorFrom (h : ∀ w ∈ ws, ∃ c ∈ w.word.toList, c ≠ '*') (before cs : List Char) :
    Censored ws before cs (censorFrom ws 0 (signAfter none before) cs) := by
  have hspan : ∀ w ∈ ws, ∀ before span after, MatchesAt w before span after → span ≠ [] := by
    rintro w hw before span after hm rfl
    obtain ⟨c, hc, hne⟩ := h w hw
    exact hne (eq_asterisk_of_spells_nil hm.spells c hc)
  induction hn : cs.length using Nat.strongRecOn generalizing before cs with
  | ind n ih =>
    cases cs with
    | nil =>
      rw [censorFrom_nil]
      refine .done ?_
      rintro gap tail hsplit ⟨w, hw, span, after, rfl, hm⟩
      obtain ⟨-, htail⟩ := List.append_eq_nil_iff.1 hsplit.symm
      exact hspan w hw _ span after hm (List.append_eq_nil_iff.1 htail).1
    | cons c cs =>
      rw [List.length_cons] at hn
      cases hmatch : firstMatch ws (signAfter none before) (c :: cs) with
      | none =>
        have hsign : some (Sign.ofChar c) = signAfter none (before ++ [c]) := by
          rw [signAfter_append]
          rfl
        rw [censorFrom_of_none hmatch, hsign]
        exact .keep (firstMatch_eq_none_iff.1 hmatch) (ih cs.length (by omega) _ cs rfl)
      | some found =>
        obtain ⟨k, replacement⟩ := found
        obtain ⟨earlier, w, later, span, after, hws, hleast, hcs, rfl, hm, rfl⟩ := firstMatch_eq_some hmatch
        have hne := hspan w (by rw [hws]; simp) _ span after hm
        cases span with
        | nil => exact absurd rfl hne
        | cons d span =>
          have hshorter := congrArg List.length hcs
          rw [List.length_append, List.length_cons, List.length_cons] at hshorter
          rw [hcs] at hmatch hleast ⊢
          rw [censorFrom_of_some hmatch, ← signAfter_append]
          exact .replace hws hleast hne hm (ih after.length (by omega) (before ++ d :: span) after rfl)

end Search

def Plugin.ofWords (tagName : String) (adds : List (String × Option String)) : Plugin :=
  adds.foldl (fun p a => p.add a.1 a.2) ⟨tagName, []⟩

/-- The words that are registered: all but those that consist of asterisks. An empty replacement is none. -/
def registeredWords (adds : List (String × Option String)) : List Word :=
  (adds.filter fun a => a.1.toList.any (· != '*')).map fun a => ⟨a.1, a.2.filter (· ≠ "")⟩

private theorem Plugin.add_eq (p : Plugin) (a : String × Option String) :
    p.add a.1 a.2 = { p with words := p.words ++ registeredWords [a] } := by
  have hall : a.1.toList.all (· == '*') = !a.1.toList.any (· != '*') := List.all_eq_not_any_not
  rw [Plugin.add, registeredWords, hall, List.filter_cons, List.filter_nil]
  cases a.1.toList.any (· != '*') with
  | true => rfl
  | false => simp

theorem Plugin.foldl_add (p : Plugin) (adds : List (String × Option String)) :
    adds.foldl (fun p a => p.add a.1 a.2) p = { p with words := p.words ++ registeredWords adds } := by
  induction adds generalizing p with
  | nil => simp [registeredWords]
  | cons a adds ih =>
    have hcons : registeredWords (a :: adds) = registeredWords [a] ++ registeredWords adds := by
      rw [registeredWords, registeredWords, registeredWords, ← List.map_append, ← List.filter_append,
        List.singleton_append]
    rw [List.foldl_cons, ih, Plugin.add_eq, hcons, List.append_assoc]

theorem Plugin.words_ofWords (tagName : String) (adds : List (String × Option String)) :
    (Plugin.ofWords tagName adds).words = registeredWords adds := by
  rw [Plugin.ofWords, Plugin.foldl_add]
  exact List.nil_append _

private theorem exists_letter_of_registered {adds : List (String × Option String)} {w : Word}
    (h : w ∈ registeredWords adds) : ∃ c ∈ w.word.toList, c ≠ '*' := by
  obtain ⟨a, ha, rfl⟩ := List.mem_map.1 h
  simpa using (List.mem_filter.1 ha).2

theorem WordList.toList_censorWith (compiles : String → Bool) (l : WordList) (text : String) :
    (l.censorWith compiles text).toList = censorFrom (l.usable compiles) 0 none text.toList := by
  rw [WordList.censorWith, String.toList_ofList, ofSigns_eq, censorFrom]

/--
Whatever patterns the library compiles, a censor replaces, from left to right, matches of the registered
words whose patterns it compiles: at each first place with a match the first registered of the words that
match there.
-/
theorem censor_replaces_words (compiles : String → Bool) (tagName : String)
    (adds : List (String × Option String)) (text : String) :
    (Plugin.ofWords tagName adds).words = registeredWords adds ∧
      Censored ((registeredWords adds).filter fun w => compiles w.word) [] text.toList
        ((Plugin.ofWords tagName adds).wordList.censorWith compiles text).toList := by
  have hwords := Plugin.words_ofWords tagName adds
  refine ⟨hwords, ?_⟩
  rw [WordList.toList_censorWith, WordList.usable, Plugin.wordList, hwords]
  exact censored_censorFrom (fun w hw => exists_letter_of_registered (List.mem_filter.1 hw).1) [] text.toList

theorem censorFrom_no_words (before : Option Sign) (cs : List Char) : censorFrom [] 0 before cs = cs := by
  induction cs generalizing before with
  | nil => exact censorFrom_nil [] 0 before
  | cons c cs ih => rw [censorFrom_of_none rfl, ih]

/-- More asterisks than the library takes in one pattern, between letters. -/
def heavyWord : Word := ⟨String.ofList ('a' :: (List.replicate 329 ['*', 'a']).flatten), none⟩

def heavyText : List Char := List.replicate 330 'a'

theorem toList_heavyWord : heavyWord.word.toList = 'a' :: (List.replicate 329 ['*', 'a']).flatten :=
  String.toList_ofList

theorem registeredWords_heavyWord : registeredWords [(heavyWord.word, none)] = [heavyWord] := by
  have hany : heavyWord.word.toList.any (· != '*') = true := by
    rw [toList_heavyWord, List.any_cons]
    rfl
  rw [registeredWords, List.filter_cons, List.filter_nil, if_pos hany]
  rfl

private theorem spells_letters (n : Nat) :
    Spells ('a' :: (List.replicate n ['*', 'a']).flatten) (List.replicate (n + 1) 'a') := by
  induction n with
  | zero => exact .letter (by decide) rfl .nil
  | succ n ih =>
    rw [List.replicate_succ, List.flatten_cons]
    exact .letter (by decide) rfl (@Spells.run [] _ _ (by simp) ih)

theorem matchesAt_heavyWord : MatchesAt heavyWord [] heavyText [] where
  start := .inl rfl
  spells := by
    rw [toList_heavyWord]
    exact spells_letters 329
  finish := .inl rfl

private theorem censor_heavyWord (compiles : String → Bool) (h : compiles heavyWord.word = false) :
    ((Plugin.ofWords "censor" [(heavyWord.word, none)]).wordList.censorWith compiles
      (String.ofList heavyText)).toList = heavyText := by
  have hskipped : (WordList.mk [heavyWord]).usable compiles = [] := by
    rw [WordList.usable, List.filter_cons, h]
    rfl
  rw [WordList.toList_censorWith, Plugin.wordList, Plugin.words_ofWords, registeredWords_heavyWord,
    hskipped, String.toList_ofList, censorFrom_no_words]

private theorem not_censored_heavyText {cs out : List Char} (hcs : cs = heavyText) (hout : out = heavyText) :
    ¬ Censored [heavyWord] [] cs out := by
  intro h
  cases h with
  | done hnone =>
    refine hnone [] cs rfl ?_
    rw [hcs, ← List.append_nil heavyText]
    exact .of_mem List.mem_cons_self matchesAt_heavyWord
  | @span _ gap span after out earlier later w hfirst hwords hleast hne hmatched hrest =>
    have hm : w ∈ [heavyWord] := by simp [hwords]
    have htext : '*' ∈ w.text := by
      rw [List.mem_singleton.1 hm]
      decide
    have hletter : '*' ∈ heavyText := by
      rw [← hout]
      simp [htext]
    exact absurd (List.eq_of_mem_replicate hletter) (by decide)

/-- Where the library refuses its pattern, such a word stays where it matches, though it is registered. -/
theorem heavyWord_stays : (Plugin.ofWords "censor" [(heavyWord.word, none)]).words = [heavyWord] ∧
    MatchesAt heavyWord [] heavyText [] ∧ ¬ Censored [heavyWord] [] heavyText
      ((Plugin.ofWords "censor" [(heavyWord.word, none)]).wordList.censorWith (· != heavyWord.word)
        (String.ofList heavyText)).toList := by
  refine ⟨(Plugin.words_ofWords _ _).trans registeredWords_heavyWord, matchesAt_heavyWord, ?_⟩
  rw [censor_heavyWord (· != heavyWord.word) (bne_self_eq_false heavyWord.word)]
  exact not_censored_heavyText rfl rfl

end BoardMarkup.Censor
