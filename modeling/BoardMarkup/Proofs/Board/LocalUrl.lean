import BoardMarkup.Proofs.BBCode.Tokens
import BoardMarkup.Proofs.Board.Furnish

/-! Where the address of a board is put into the templates of its own BBCodes. -/
namespace BoardMarkup.Board

open BBCode Text

/-- The name of the tokens for addresses within the board, to which a number may be added. -/
def localName : List Char := ['L', 'O', 'C', 'A', 'L', '_', 'U', 'R', 'L']

def tokenText (id : List Char) : List Char := '{' :: (id ++ ['}'])

def isLocalToken (id : List Char) : Bool := (after? localName id).any fun number => number.all Char.isDigit

/-- A template with an address before each token for an address within the board. -/
def withAddress (address template : List Char) : List Char :=
  replaceAll placeholder
    (fun id => (if isLocalToken id then address ++ ['/'] else []) ++ tokenText id) template

/-- Digits of other scripts are numbers, but no part of a token. -/
def HoldsForeignNumber (template : List Char) : Prop :=
  ∃ number, (∀ c ∈ number, isDecimal c = true) ∧ ¬ (∀ c ∈ number, c.isDigit = true) ∧
    tokenText (localName ++ number) <:+: template

theorem isLocalToken_iff {id : List Char} :
    isLocalToken id = true ↔ ∃ number, id = localName ++ number ∧ ∀ c ∈ number, c.isDigit = true := by
  simp only [isLocalToken, Option.any_eq_true, after?_eq_some_iff, List.all_eq_true]

private theorem isDecimal_eq_isDigit {c : Char} (h : c.toNat < 0x660) : isDecimal c = c.isDigit := by
  obtain ⟨bounds, hbounds⟩ : ∃ bounds, decimals.bounds = 0x30 :: 0x3A :: 0x660 :: bounds := ⟨_, rfl⟩
  have hlast : ¬ 0x660 ≤ c.toNat := by omega
  rw [Bool.eq_iff_iff, Char.isDigit_iff_toNat, isDecimal, CharSet.contains, hbounds]
  by_cases hfirst : 0x30 ≤ c.toNat <;> by_cases hbehind : 0x3A ≤ c.toNat <;>
    simp [hfirst, hbehind, hlast] <;> omega

theorem isDecimal_of_isDigit {c : Char} (h : c.isDigit = true) : isDecimal c = true := by
  have hrange := toNat_of_isDigit h
  rw [isDecimal_eq_isDigit (by omega), h]

theorem length_tokenText (id : List Char) : (tokenText id).length = id.length + 2 := by simp [tokenText]

theorem tokenText_append (id rest : List Char) : tokenText id ++ rest = '{' :: id ++ '}' :: rest := by
  simp [tokenText]

theorem localUrl_eq_some_iff {before cs token : List Char} {n : Nat} : localUrl before cs = some (token, n) ↔
    ∃ number rest, (∀ c ∈ number, isDecimal c = true) ∧ token = tokenText (localName ++ number) ∧
      cs = token ++ rest ∧ n = token.length := by
  have hopen : "\x7bLOCAL_URL".toList = '{' :: localName := String.toList_ofList
  constructor
  · intro h
    obtain ⟨tail, htail, h⟩ := Option.bind_eq_some_iff.1 h
    rw [after?_eq_some_iff, hopen] at htail
    dsimp only at h
    split at h
    · next hend =>
      cases h
      obtain ⟨rest, hrest⟩ := List.head?_eq_some_iff.1 hend
      rw [drop_length_takeWhile] at hrest
      have hall := List.takeWhile_append_dropWhile (p := isDecimal) (l := tail)
      rw [hrest] at hall
      refine ⟨tail.takeWhile isDecimal, rest, fun c hc => List.mem_takeWhile_imp hc, ?_, ?_, rfl⟩
      · rw [hopen, tokenText, List.append_assoc, List.cons_append, List.append_assoc]
      · conv_lhs => rw [htail, ← hall]
        rw [hopen]
        simp
    · cases h
  · rintro ⟨number, rest, hnumber, rfl, rfl, rfl⟩
    have htext : tokenText (localName ++ number) ++ rest = '{' :: localName ++ (number ++ '}' :: rest) := by
      simp [tokenText]
    have hrun : (number ++ '}' :: rest).takeWhile isDecimal = number := by
      rw [takeWhile_append_cons (by decide), List.takeWhile_eq_self_iff.2 hnumber]
    rw [localUrl, htext, hopen, after?_append]
    simp only [Option.bind_eq_bind, Option.bind_some, hrun, List.drop_left, List.head?_cons, if_true]
    simp [tokenText]

theorem localUrl_takes : localUrl.Takes fun text token => text = token ∧
    ∃ number, (∀ c ∈ number, isDecimal c = true) ∧ token = tokenText (localName ++ number) := by
  intro cs token n h
  obtain ⟨number, rest, hnumber, rfl, rfl, rfl⟩ := localUrl_eq_some_iff.1 h
  exact ⟨_, rest, rfl, rfl, List.cons_ne_nil _ _, rfl, number, hnumber, rfl⟩

theorem placeholder_takes : placeholder.Takes fun text id => text = tokenText id := by
  intro cs id n h
  obtain ⟨⟨rest, rfl⟩, -, rfl⟩ := placeholder_eq_some_iff.1 h
  exact ⟨_, rest, (tokenText_append id rest).symm, (length_tokenText id).symm, List.cons_ne_nil _ _, rfl⟩

theorem localUrl_contextFree : localUrl.ContextFree := fun _ _ _ => rfl

theorem brace_notMem_localToken {number : List Char} (h : ∀ c ∈ number, isDecimal c = true) :
    '{' ∉ localName ++ number ++ ['}'] := by
  have hnumber : '{' ∉ number := fun hm => by
    have hbrace : isDecimal '{' = false := by decide
    rw [h _ hm] at hbrace
    cases hbrace
  simp [localName, hnumber]

theorem localUrl_append {number : List Char} (h : ∀ c ∈ number, isDecimal c = true) (rest : List Char) :
    localUrl [] (tokenText (localName ++ number) ++ rest) =
      some (tokenText (localName ++ number), (tokenText (localName ++ number)).length) :=
  localUrl_eq_some_iff.2 ⟨number, rest, h, rfl, rfl, rfl⟩

theorem number_inj {number other xs ys : List Char} (hn : ∀ c ∈ number, isDecimal c = true)
    (ho : ∀ c ∈ other, isDecimal c = true)
    (h : tokenText (localName ++ number) ++ xs = tokenText (localName ++ other) ++ ys) : number = other := by
  have hfind := localUrl_append hn xs
  rw [h, localUrl_append ho, Option.some.injEq, Prod.mk.injEq] at hfind
  simpa [tokenText] using hfind.1.symm

section Address

variable (address : List Char)

/-- The address goes before a token for an address within the board, -/
theorem withAddress_append {number : List Char} (h : ∀ c ∈ number, c.isDigit = true) (rest : List Char) :
    withAddress address (tokenText (localName ++ number) ++ rest) =
      address ++ '/' :: tokenText (localName ++ number) ++ withAddress address rest := by
  have hletters : ∀ c ∈ localName.tail, (c.isUpper || c == '_') = true := List.all_eq_true.1 (by decide)
  have hid : tokenId? (localName ++ number) = some (localName ++ number) :=
    tokenId?_self_iff.2 ⟨'L', localName.tail, number, rfl, rfl, by simpa using hletters, h⟩
  have hfind : placeholder [] (tokenText (localName ++ number) ++ rest) =
      some (localName ++ number, (tokenText (localName ++ number)).length) :=
    placeholder_eq_some_iff.2 ⟨⟨rest, tokenText_append _ _⟩, hid, length_tokenText _⟩
  have hlocal : isLocalToken (localName ++ number) = true := isLocalToken_iff.2 ⟨number, rfl, h⟩
  refine (replaceAll_append_of_some placeholder_contextFree _ (List.cons_ne_nil _ _) hfind).trans ?_
  rw [hlocal, if_pos rfl, List.append_assoc, List.append_assoc, List.append_assoc]
  rfl

/-- and every other character stays as it is. -/
theorem withAddress_cons {c : Char} {cs : List Char} (h : ∀ number rest, (∀ d ∈ number, d.isDigit = true) →
    c :: cs ≠ tokenText (localName ++ number) ++ rest) :
    withAddress address (c :: cs) = c :: withAddress address cs := by
  cases hfind : placeholder [] (c :: cs) with
  | none => exact replaceAll_cons_of_none placeholder_contextFree hfind
  | some found =>
    obtain ⟨id, n⟩ := found
    obtain ⟨⟨rest, he⟩, hid, -⟩ := placeholder_eq_some_iff.1 hfind
    have hlocal : isLocalToken id = false := by
      rw [Bool.eq_false_iff]
      intro hlocal
      obtain ⟨number, hnumber, hdigits⟩ := isLocalToken_iff.1 hlocal
      exact h number rest hdigits (by rw [← hnumber, tokenText_append, he])
    have hbrace : ∀ d ∈ id ++ ['}'], ∀ ds, placeholder [] (d :: ds) = none := by
      intro d hd ds
      refine placeholder_eq_none ?_ ds
      rintro rfl
      have hnot : '{' ∉ id := brace_notMem hid (by decide)
      simp [hnot] at hd
    have hfound : placeholder [] (tokenText id ++ rest) = some (id, (tokenText id).length) :=
      placeholder_eq_some_iff.2 ⟨⟨rest, tokenText_append _ _⟩, hid, length_tokenText _⟩
    obtain ⟨rfl, rfl⟩ : c = '{' ∧ cs = id ++ ['}'] ++ rest := by simpa using he
    refine (replaceAll_append_of_some placeholder_contextFree _ (List.cons_ne_nil _ _) hfound).trans ?_
    rw [hlocal, if_neg Bool.false_ne_true, List.nil_append, withAddress,
      replaceAll_append_of_none placeholder_contextFree _ hbrace]
    rfl

/-- A token whose number is in other digits is none, so no address goes before it. -/
theorem withAddress_append_foreign {number : List Char} (hn : ∀ c ∈ number, isDecimal c = true)
    (hforeign : ¬ ∀ c ∈ number, c.isDigit = true) (rest : List Char) :
    withAddress address (tokenText (localName ++ number) ++ rest) =
      tokenText (localName ++ number) ++ withAddress address rest := by
  have hfirst : withAddress address ('{' :: (localName ++ number ++ ['}'] ++ rest)) =
      '{' :: withAddress address (localName ++ number ++ ['}'] ++ rest) := by
    refine withAddress_cons address fun other ys hdigits he => hforeign ?_
    have hsame : number = other := number_inj hn (fun c hc => isDecimal_of_isDigit (hdigits c hc)) he
    rwa [hsame]
  have hbrace : ∀ d ∈ localName ++ number ++ ['}'], ∀ ds, placeholder [] (d :: ds) = none := fun d hd ds =>
    placeholder_eq_none (fun he => brace_notMem_localToken hn (he ▸ hd)) ds
  refine hfirst.trans ?_
  rw [withAddress, replaceAll_append_of_none placeholder_contextFree _ hbrace]
  rfl

end Address

section Foreign

theorem not_holdsForeignNumber_nil : ¬ HoldsForeignNumber [] := by
  rintro ⟨number, -, -, h⟩
  cases List.infix_nil.1 h

private theorem holdsForeignNumber_cons_iff {c : Char} {cs : List Char} (h : localUrl [] (c :: cs) = none) :
    HoldsForeignNumber (c :: cs) ↔ HoldsForeignNumber cs := by
  refine exists_congr fun number => and_congr_right fun hn => and_congr_right fun _ =>
    ⟨fun hin => ?_, List.infix_cons⟩
  refine (List.infix_cons_iff.1 hin).resolve_left ?_
  rintro ⟨rest, hrest⟩
  rw [← hrest, localUrl_append hn] at h
  cases h

private theorem holdsForeignNumber_append_iff {number : List Char}
    (h : ∀ c ∈ number, c.isDigit = true) (rest : List Char) :
    HoldsForeignNumber (tokenText (localName ++ number) ++ rest) ↔ HoldsForeignNumber rest := by
  have hn : ∀ c ∈ number, isDecimal c = true := fun c hc => isDecimal_of_isDigit (h c hc)
  constructor
  · rintro ⟨other, ho, hforeign, hin⟩
    refine ⟨other, ho, hforeign, ?_⟩
    rcases List.infix_cons_iff.1 hin with ⟨last, hlast⟩ | hin
    · exact absurd (number_inj ho hn hlast ▸ h) hforeign
    · exact infix_of_infix_append hin (brace_notMem_localToken hn)
  · rintro ⟨other, ho, hforeign, hin⟩
    exact ⟨other, ho, hforeign, hin.trans (List.suffix_append _ _).isInfix⟩

end Foreign

/--
The address goes just before the tokens of a template, as long as the template holds no number in other
digits; where it does hold one, it becomes longer than that.
-/
theorem replaceAll_localUrl_or (address cs : List Char) :
    ¬ HoldsForeignNumber cs ∧
        replaceAll localUrl (fun token => address ++ '/' :: token) cs = withAddress address cs ∨
      HoldsForeignNumber cs ∧ (withAddress address cs).length <
        (replaceAll localUrl (fun token => address ++ '/' :: token) cs).length := by
  induction cs using find_induction localUrl_takes with
  | nil => exact .inl ⟨not_holdsForeignNumber_nil, rfl⟩
  | plain c cs hfind ih =>
    have hkeep : withAddress address (c :: cs) = c :: withAddress address cs := by
      refine withAddress_cons address fun number rest hdigits he => ?_
      rw [he, localUrl_append fun d hd => isDecimal_of_isDigit (hdigits d hd)] at hfind
      cases hfind
    rw [holdsForeignNumber_cons_iff hfind, hkeep, replaceAll_cons_of_none localUrl_contextFree hfind]
    simpa using ih
  | found text rest token hne htoken hfind ih =>
    obtain ⟨rfl, number, hnumber, rfl⟩ := htoken
    rw [replaceAll_append_of_some localUrl_contextFree _ hne hfind]
    by_cases hdigits : ∀ d ∈ number, d.isDigit = true
    · rw [holdsForeignNumber_append_iff hdigits, withAddress_append address hdigits]
      simpa using ih
    · refine .inr ⟨⟨number, hnumber, hdigits, (List.prefix_append _ _).isInfix⟩, ?_⟩
      have hle : (withAddress address rest).length ≤
          (replaceAll localUrl (fun token => address ++ '/' :: token) rest).length := by
        rcases ih with ⟨-, hsame⟩ | ⟨-, hlt⟩
        · rw [hsame]
        · exact hlt.le
      rw [withAddress_append_foreign address hnumber hdigits]
      simp only [List.length_append, List.length_cons]
      omega

/-- Without an address a template is put together again from its tokens and what stands between them. -/
theorem replaceAll_tokenText (cs : List Char) : replaceAll placeholder tokenText cs = cs := by
  induction cs using find_induction placeholder_takes with
  | nil => rfl
  | plain c cs hfind ih => rw [replaceAll_cons_of_none placeholder_contextFree hfind, ih]
  | found text rest id hne htext hfind ih =>
    rw [replaceAll_append_of_some placeholder_contextFree _ hne hfind, ih, htext]

/--
The board's own BBCodes are defined with the address before the tokens of their templates and nowhere
else, just when no template holds a number in other digits. Nothing but the address is added to a
template.
-/
theorem address_before_tokens_iff (o : Options) (bbcodes : List BBCodeRow) :
    (∀ a, addCustom o a bbcodes = a.defineAll (customDefinitions o bbcodes)) ∧
      (∀ cs, replaceAll placeholder tokenText cs = cs) ∧
      (customDefinitions o bbcodes = bbcodes.map (fun r =>
          (r.usage, ⟨String.ofList (withAddress o.boardUrl.toList r.template.toList), false⟩)) ↔
        ∀ r ∈ bbcodes, ¬ HoldsForeignNumber r.template.toList) := by
  refine ⟨fun a => addCustom_eq o a bbcodes, replaceAll_tokenText, ?_⟩
  rw [customDefinitions, List.map_inj_left]
  refine forall₂_congr fun r _ => ?_
  rw [Prod.mk.injEq, and_iff_right rfl, Template.mk.injEq, and_iff_left rfl, prefixLocalUrls,
    String.ofList_inj]
  rcases replaceAll_localUrl_or o.boardUrl.toList r.template.toList with ⟨hno, hsame⟩ | ⟨hyes, hlt⟩
  · exact iff_of_true hsame hno
  · refine iff_of_false (fun he => ?_) (not_not_intro hyes)
    rw [he] at hlt
    exact Nat.lt_irrefl _ hlt

/-- A template with an Arabic three behind the name of such a token. -/
def foreignRow : BBCodeRow := ⟨"[x]{TEXT}[/x]", "\x7bLOCAL_URL\u0663\x7d{TEXT}"⟩

/-- The address is put before a text that is no token. -/
theorem foreignRow_prefixed : tokensOf foreignRow.template = ["TEXT"] ∧
    prefixLocalUrls "https://forum.example.com" foreignRow.template =
      "https://forum.example.com/\x7bLOCAL_URL\u0663\x7d{TEXT}" := by
  decide +kernel

end BoardMarkup.Board
