import BoardMarkup.Proofs.Text.Cut
import BoardMarkup.Proofs.Text.Find
import BoardMarkup.Proofs.Text.Strip

/-! Characters that a markup text writes by their numbers, and where the brace is one of them. -/
namespace BoardMarkup.Markup

open Text

/-- How the number of a character is written: a sign for the base, and digits. -/
structure Radix where
  sign : List Char
  base : Nat
  isDigit : Char → Bool

namespace Radix

def decimal : Radix := ⟨[], 10, Char.isDigit⟩

def hexadecimal : Radix := ⟨['x'], 16, Char.isHexDigit⟩

end Radix

def digitValue (c : Char) : Nat := if c.isDigit then c.toNat - 48 else c.toUpper.toNat - 55

namespace Radix

def value (r : Radix) (digits : List Char) : Nat := digits.foldl (fun n c => n * r.base + digitValue c) 0

def text (r : Radix) (digits : List Char) : List Char := '&' :: '#' :: r.sign ++ digits ++ [';']

def Denotes (r : Radix) (text : List Char) (c : Char) : Prop :=
  ∃ digits, text = r.text digits ∧ digits ≠ [] ∧ (∀ d ∈ digits, r.isDigit d = true) ∧ c.toNat = r.value digits

def reference (r : Radix) : Finder Char := fun _ cs => do
  let rest ← after? ('&' :: '#' :: r.sign) cs
  let digits := rest.takeWhile r.isDigit
  if digits ≠ [] ∧ (rest.drop digits.length).head? = some ';' ∧ Nat.isValidChar (r.value digits) then
    pure (Char.ofNat (r.value digits), (r.text digits).length)
  else none

theorem reference_eq_some_iff {r : Radix} (hr : r.isDigit ';' = false) {before cs : List Char} {c : Char}
    {n : Nat} : r.reference before cs = some (c, n) ↔
      ∃ text rest, cs = text ++ rest ∧ r.Denotes text c ∧ n = text.length := by
  constructor
  · intro h
    obtain ⟨tail, htail, h⟩ := Option.bind_eq_some_iff.1 h
    rw [after?_eq_some_iff] at htail
    dsimp only at h
    split at h
    · next hdigits =>
      obtain ⟨hne, hend, hvalid⟩ := hdigits
      cases h
      obtain ⟨rest, hrest⟩ := List.head?_eq_some_iff.1 hend
      refine ⟨r.text (tail.takeWhile r.isDigit), rest, ?_,
        ⟨_, rfl, hne, fun d hd => List.mem_takeWhile_imp hd, ?_⟩, rfl⟩
      · rw [drop_length_takeWhile] at hrest
        have hall := List.takeWhile_append_dropWhile (p := r.isDigit) (l := tail)
        rw [hrest] at hall
        rw [htail, text, List.append_assoc, List.append_assoc, List.singleton_append, hall]
      · rw [Char.ofNat, dif_pos hvalid]
        rfl
    · cases h
  · rintro ⟨_, rest, rfl, ⟨digits, rfl, hne, hdigits, hc⟩, rfl⟩
    have htext : r.text digits ++ rest = ('&' :: '#' :: r.sign) ++ (digits ++ ';' :: rest) := by
      simp [text]
    have hrun : (digits ++ ';' :: rest).takeWhile r.isDigit = digits := by
      rw [takeWhile_append_cons hr, List.takeWhile_eq_self_iff.2 hdigits]
    have hvalid : Nat.isValidChar (r.value digits) := hc ▸ c.valid
    rw [reference, htext, after?_append]
    simp only [Option.bind_eq_bind, Option.bind_some, hrun, List.drop_left, List.head?_cons]
    rw [if_pos ⟨hne, trivial, hvalid⟩, ← hc, Char.ofNat_toNat]
    rfl

/-- A reference has one ampersand, at its start, and no brace. -/
theorem Denotes.eq_cons {r : Radix} {text : List Char} {c : Char} (h : r.Denotes text c) {d : Char}
    (hd : d = '&' ∨ d = '{') (hsign : d ∉ r.sign) (hdigit : r.isDigit d = false) :
    ∃ tail, text = '&' :: tail ∧ d ∉ tail := by
  obtain ⟨digits, rfl, -, hdigits, -⟩ := h
  refine ⟨'#' :: r.sign ++ digits ++ [';'], rfl, ?_⟩
  have hnot : d ∉ digits := fun hm => by
    rw [hdigits d hm] at hdigit
    cases hdigit
  rcases hd with rfl | rfl <;> simp [hsign, hnot]

end Radix

/-- Whether a text is a reference to a character, in one of the two bases. -/
def Denotes (text : List Char) (c : Char) : Prop :=
  Radix.decimal.Denotes text c ∨ Radix.hexadecimal.Denotes text c

def reference : Finder Char := fun before cs =>
  (Radix.decimal.reference before cs).or (Radix.hexadecimal.reference before cs)

/-- A text with the characters in place of their references. -/
def dereference (cs : List Char) : List Char := replaceAll reference (fun c => [c]) cs

theorem reference_contextFree : reference.ContextFree := fun _ _ _ => rfl

private theorem decimal_eq_none {text rest : List Char} {c : Char} (h : Radix.hexadecimal.Denotes text c)
    (before : List Char) : Radix.decimal.reference before (text ++ rest) = none := by
  rw [Option.eq_none_iff_forall_ne_some]
  rintro ⟨d, n⟩ hd
  obtain ⟨other, tail, he, ⟨digits, rfl, hne, hdigits, -⟩, -⟩ :=
    (Radix.reference_eq_some_iff (by decide)).1 hd
  obtain ⟨hexDigits, rfl, -⟩ := h
  cases digits with
  | nil => exact hne rfl
  | cons first digits =>
    have hfirst : 'x' = first :=
      (by simpa [Radix.text, Radix.decimal, Radix.hexadecimal] using he : 'x' = first ∧ _).1
    have hdigit := hdigits first (by simp)
    rw [← hfirst] at hdigit
    cases hdigit

theorem reference_eq_some_iff {before cs : List Char} {c : Char} {n : Nat} :
    reference before cs = some (c, n) ↔
      ∃ text rest, cs = text ++ rest ∧ Denotes text c ∧ n = text.length := by
  have hdecimal := @Radix.reference_eq_some_iff .decimal (by decide) before cs c n
  have hhexadecimal := @Radix.reference_eq_some_iff .hexadecimal (by decide) before cs c n
  rw [reference, Option.or_eq_some_iff, hdecimal, hhexadecimal]
  constructor
  · rintro (⟨text, rest, he, hd, hn⟩ | ⟨-, text, rest, he, hd, hn⟩)
    · exact ⟨text, rest, he, .inl hd, hn⟩
    · exact ⟨text, rest, he, .inr hd, hn⟩
  · rintro ⟨text, rest, he, hd | hd, hn⟩
    · exact .inl ⟨text, rest, he, hd, hn⟩
    · exact .inr ⟨he ▸ decimal_eq_none hd before, text, rest, he, hd, hn⟩

theorem Denotes.eq_cons {text : List Char} {c : Char} (h : Denotes text c) {d : Char}
    (hd : d = '&' ∨ d = '{') : ∃ tail, text = '&' :: tail ∧ d ∉ tail := by
  rcases h with h | h
  · exact h.eq_cons hd (by simp [Radix.decimal]) (by rcases hd with rfl | rfl <;> decide)
  · exact h.eq_cons hd (by rcases hd with rfl | rfl <;> decide) (by rcases hd with rfl | rfl <;> decide)

theorem Denotes.ne_nil {text : List Char} {c : Char} (h : Denotes text c) : text ≠ [] := by
  obtain ⟨tail, rfl, -⟩ := h.eq_cons (.inl rfl)
  exact List.cons_ne_nil _ _

theorem reference_takes : reference.Takes Denotes := by
  intro cs c n h
  obtain ⟨text, rest, rfl, hdenotes, rfl⟩ := reference_eq_some_iff.1 h
  exact ⟨text, rest, rfl, rfl, hdenotes.ne_nil, hdenotes⟩

/-- Whether a text writes the brace by its number somewhere. -/
def RefersToBrace (cs : List Char) : Prop := ∃ text, Denotes text '{' ∧ text <:+: cs

section Dereference

variable {text : List Char} {c : Char} {cs : List Char}

theorem reference_append (h : Denotes text c) (rest : List Char) :
    reference [] (text ++ rest) = some (c, text.length) :=
  reference_eq_some_iff.2 ⟨text, rest, rfl, h, rfl⟩

theorem dereference_append (h : Denotes text c) (rest : List Char) :
    dereference (text ++ rest) = c :: dereference rest :=
  replaceAll_append_of_some reference_contextFree _ h.ne_nil (reference_append h rest)

theorem dereference_cons (h : reference [] (c :: cs) = none) : dereference (c :: cs) = c :: dereference cs :=
  replaceAll_cons_of_none reference_contextFree h

private theorem refersToBrace_cons (h : reference [] (c :: cs) = none) :
    RefersToBrace (c :: cs) ↔ RefersToBrace cs := by
  refine exists_congr fun text => and_congr_right fun hd => ⟨fun hin => ?_, List.infix_cons⟩
  refine (List.infix_cons_iff.1 hin).resolve_left ?_
  rintro ⟨rest, hrest⟩
  rw [← hrest, reference_append hd] at h
  cases h

/-- References do not overlap, as each begins with its only ampersand. -/
theorem refersToBrace_append (h : Denotes text c) (rest : List Char) :
    RefersToBrace (text ++ rest) ↔ c = '{' ∨ RefersToBrace rest := by
  constructor
  · rintro ⟨other, hother, hin⟩
    obtain ⟨tail, rfl, hamp⟩ := h.eq_cons (.inl rfl)
    obtain ⟨otherTail, rfl, -⟩ := hother.eq_cons (.inl rfl)
    rcases List.infix_cons_iff.1 hin with ⟨last, hlast⟩ | hin
    · have hsame : reference [] ('&' :: tail ++ rest) = some ('{', _) := hlast ▸ reference_append hother last
      rw [reference_append h rest, Option.some.injEq, Prod.mk.injEq] at hsame
      exact .inl hsame.1
    · exact .inr ⟨_, hother, infix_of_infix_append hin hamp⟩
  · rintro (rfl | ⟨other, hother, hin⟩)
    · exact ⟨text, h, (List.prefix_append text rest).isInfix⟩
    · exact ⟨other, hother, hin.trans (List.suffix_append text rest).isInfix⟩

/-- A brace stands in a dereferenced text just where the text has one, or a reference to it. -/
theorem brace_mem_dereference_iff (cs : List Char) : '{' ∈ dereference cs ↔ '{' ∈ cs ∨ RefersToBrace cs := by
  induction cs using find_induction reference_takes with
  | nil => simp [dereference, replaceAll, pieces, piecesFrom, RefersToBrace, Denotes, Radix.Denotes,
      Radix.text]
  | plain c cs hfind ih =>
      rw [dereference_cons hfind, refersToBrace_cons hfind, List.mem_cons, ih, List.mem_cons, or_assoc]
  | found text rest c hne hdenotes hfind ih =>
    obtain ⟨tail, htail, hbrace⟩ := hdenotes.eq_cons (.inr rfl)
    have hkeep : '{' ∈ text ++ rest ↔ '{' ∈ rest := by simp [htail, hbrace]
    rw [dereference_append hdenotes, refersToBrace_append hdenotes, List.mem_cons, ih, hkeep,
      or_left_comm, eq_comm]

end Dereference

/-- Both bases, zeros in front, and a reference that a named one only seems to make. -/
example : dereference "&#123;@x&#x7D; &#0000123; &amp;#123; &#123".toList =
    "\x7b@x\x7d \x7b &amp;#123; &#123".toList := by
  decide +kernel

end BoardMarkup.Markup
