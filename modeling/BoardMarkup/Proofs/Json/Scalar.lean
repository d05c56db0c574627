import BoardMarkup.Json.Reader
import Mathlib.Tactic.SplitIfs

/-! Texts and integers are read as they were written. -/
namespace BoardMarkup

namespace Text

private theorem symbolsFrom_append (before after : List Char) :
    symbolsFrom (before ++ after).utf8Encode before.utf8Encode.size = after.map some := by
  induction after generalizing before with
  | nil => rw [symbolsFrom, if_neg (by simp), List.map_nil]
  | cons c after ih =>
    have hsplit : before ++ c :: after = (before ++ [c]) ++ after := by simp
    have hc : (before ++ c :: after).utf8Encode.utf8DecodeChar? before.utf8Encode.size = some c := by
      rw [ByteArray.utf8DecodeChar?_eq_utf8DecodeChar?_extract, List.utf8Encode_append,
        ByteArray.extract_append_eq_right rfl (by simp)]
      exact List.utf8DecodeChar?_utf8Encode_cons
    have hsize : (before ++ [c]).utf8Encode.size = before.utf8Encode.size + c.utf8Size := by
      simp [List.utf8Encode_append, List.utf8Encode_singleton]
    rw [symbolsFrom, if_pos, hc]
    · simp only [← hsize, hsplit, ih, List.map_cons]
    · have hpos := c.utf8Size_pos
      have htotal : (before ++ c :: after).utf8Encode.size =
          (before ++ [c]).utf8Encode.size + after.utf8Encode.size := by
        rw [hsplit, List.utf8Encode_append, ByteArray.size_append]
      omega

theorem symbols_toUTF8 (s : String) : symbols s.toUTF8 = s.toList.map some := by
  have h := symbolsFrom_append [] s.toList
  rw [List.nil_append, String.utf8Encode_toList] at h
  exact h

end Text

namespace Json

open Text

def endsNumber : Input → Bool
  | some c :: _ => !c.isDigit && c != '.' && c != 'e' && c != 'E'
  | _ => true

section Number

variable {rest : Input}

theorem digits_eq {ds : List Char} (hd : ∀ c ∈ ds, c.isDigit) (hr : endsNumber rest) :
    digits (ds.map some ++ rest) = (ds, rest) := by
  induction ds with
  | nil =>
    rw [List.map_nil, List.nil_append]
    unfold digits
    split
    · simp only [endsNumber, Bool.and_eq_true, Bool.not_eq_true'] at hr
      rw [if_neg (by simp [hr.1.1.1])]
    · rfl
  | cons d ds ih =>
    rw [List.map_cons, List.cons_append, digits, if_pos (hd d (by simp)),
      ih fun c hc => hd c (List.mem_cons_of_mem _ hc)]

theorem fraction?_eq (hr : endsNumber rest) : fraction? rest = some ([], rest) := by
  unfold fraction?
  split
  · simp [endsNumber] at hr
  · rfl

theorem exponent?_eq (hr : endsNumber rest) : exponent? rest = some ([], rest) := by
  unfold exponent?
  split <;> first | rfl | simp [endsNumber] at hr

theorem toDigits_eq_cons {n : Nat} (hn : n ≠ 0) :
    ∃ d ds, Nat.toDigits 10 n = d :: ds ∧ d ≠ '0' := by
  induction n using Nat.strongRecOn with
  | ind n ih =>
    by_cases hlt : n < 10
    · exact ⟨_, [], Nat.toDigits_of_lt_base hlt, by simpa using hn⟩
    · obtain ⟨d, ds, hd, hne⟩ := ih (n / 10) (by omega) (by omega)
      refine ⟨d, ds ++ [Nat.digitChar (n % 10)], ?_, hne⟩
      rw [Nat.toDigits_of_base_le (by decide) (by omega), hd, List.cons_append]

theorem isDigit_of_toDigits {n : Nat} {c : Char} (h : c ∈ Nat.toDigits 10 n) : c.isDigit = true :=
  Nat.isDigit_of_mem_toDigits (by decide) (by decide) h

theorem unsigned?_toDigits (n : Nat) (hr : endsNumber rest) :
    unsigned? ((Nat.toDigits 10 n).map some ++ rest) = some ((Nat.toDigits 10 n, []), rest) := by
  by_cases hn : n = 0
  · subst hn
    simp [unsigned?, Nat.toDigits_zero, fraction?_eq hr, exponent?_eq hr]
  · have hdigits : digits? ((Nat.toDigits 10 n).map some ++ rest) = some (Nat.toDigits 10 n, rest) := by
      rw [digits?, digits_eq (fun c hc => isDigit_of_toDigits hc) hr]
      obtain ⟨d, ds, hd, -⟩ := toDigits_eq_cons hn
      rw [hd]
    obtain ⟨d, ds, hd, hne⟩ := toDigits_eq_cons hn
    rw [hd] at hdigits ⊢
    unfold unsigned?
    split
    · next cs hcs =>
      simp only [List.map_cons, List.cons_append, List.cons.injEq, Option.some.injEq] at hcs
      exact absurd hcs.1 hne
    · rw [hdigits]
      simp [fraction?_eq hr, exponent?_eq hr]

theorem natOf_toDigits (n : Nat) : natOf (Nat.toDigits 10 n) = n :=
  Nat.ofDigitChars_ten_toDigits

/-- An integer is read as it was written, where no number goes on behind it. -/
theorem number?_writeInt (n : Int) (hr : endsNumber rest) :
    number? ((writeInt n).map some ++ rest) = some (.int n, rest) := by
  cases n with
  | ofNat n =>
    rw [writeInt]
    unfold number?
    split
    · next cs hcs =>
      obtain ⟨d, ds, hd⟩ := List.exists_cons_of_ne_nil (Nat.toDigits_ne_nil (n := n) (b := 10))
      rw [hd] at hcs
      simp only [List.map_cons, List.cons_append, List.cons.injEq, Option.some.injEq] at hcs
      have := isDigit_of_toDigits (n := n) (c := d) (by rw [hd]; simp)
      rw [hcs.1] at this
      cases this
    · rw [unsigned?_toDigits n hr]
      simp [natOf_toDigits]
  | negSucc n =>
    rw [writeInt, List.map_cons, List.cons_append, number?, unsigned?_toDigits _ hr]
    simp [natOf_toDigits, Int.negSucc_eq]

end Number

section Literal

def partOf (c : Char) : Part :=
  if c.toNat < 0x20 ∧ c ∉ ['\x08', '\t', '\n', '\x0c', '\r'] then .unit c.toNat else .char c

theorem hexDigit?_digitChar : ∀ n < 16, hexDigit? (some (Nat.digitChar n)) = some n := by decide

private theorem parts?_plain {c : Char} (hquote : c ≠ '"') (hslash : c ≠ '\\') (hc : ¬ c.toNat < 0x20)
    (cs : Input) : parts? (some c :: cs) = (parts? cs).map fun (ps, cs) => (.char c :: ps, cs) := by
  rw [parts?]
  · simp [hslash, hc]
  · exact hquote
  · exact fun _ _ _ _ _ _ h => hslash h
  · exact fun _ _ _ h => hslash h

theorem parts?_escape (c : Char) {cs rest : Input} {ps : List Part} (h : parts? cs = some (ps, rest)) :
    parts? ((escape c).map some ++ cs) = some (partOf c :: ps, rest) := by
  have hnamed : ∀ d e, partOf d = .char d → unescape? e = some d →
      parts? ([some '\\', some e] ++ cs) = some (partOf d :: ps, rest) := by
    intro d e hd he
    have hu : e ≠ 'u' := by
      rintro rfl
      cases he
    rw [List.cons_append, List.cons_append, List.nil_append, parts?]
    · simp [he, h, hd]
    · exact fun _ _ _ _ _ _ he => hu he
  unfold escape
  split_ifs with hquote hslash hback htab hline hfeed hreturn hcontrol
  · exact hquote ▸ hnamed '"' '"' (if_neg (by decide)) rfl
  · exact hslash ▸ hnamed '\\' '\\' (if_neg (by decide)) rfl
  · exact hback ▸ hnamed '\x08' 'b' (if_neg (by decide)) rfl
  · exact htab ▸ hnamed '\t' 't' (if_neg (by decide)) rfl
  · exact hline ▸ hnamed '\n' 'n' (if_neg (by decide)) rfl
  · exact hfeed ▸ hnamed '\x0c' 'f' (if_neg (by decide)) rfl
  · exact hreturn ▸ hnamed '\r' 'r' (if_neg (by decide)) rfl
  · have hp : partOf c = .unit c.toNat := by
      simp [partOf, hcontrol, hback, htab, hline, hfeed, hreturn]
    have hn : c.toNat / 16 * 16 + c.toNat % 16 = c.toNat := by omega
    simp only [List.map_cons, List.map_nil, List.cons_append, List.nil_append, parts?]
    rw [hexDigit?_digitChar _ (by omega), hexDigit?_digitChar _ (by omega),
      show hexDigit? (some '0') = some 0 by decide]
    simp [h, hp, hn]
  · have hp : partOf c = .char c := by simp [partOf, hcontrol]
    rw [List.map_cons, List.map_nil, List.cons_append, List.nil_append, parts?_plain hquote hslash hcontrol,
      h, hp, Option.map_some]

private theorem textOf?_unit {n : Nat} (hn : n < 0xD800) (ps : List Part) :
    textOf? (.unit n :: ps) = (textOf? ps).map (Char.ofNat n :: ·) := by
  have hs : ¬ (0xD800 ≤ n ∧ n < 0xE000) := by omega
  cases ps with
  | nil => simp [textOf?, hs]
  | cons p ps =>
    cases p with
    | char c => simp [textOf?, hs]
    | unit m => simp [textOf?, show ¬ 0xD800 ≤ n by omega]
    | stray => simp [textOf?, hs]

private theorem textOf?_partOf (cs : List Char) : textOf? (cs.map partOf) = some cs := by
  induction cs with
  | nil => rfl
  | cons c cs ih =>
    rw [List.map_cons, partOf]
    split
    · next hc => rw [textOf?_unit (by omega), ih, Option.map_some, Char.ofNat_toNat]
    · rw [textOf?, ih, Option.map_some]

private theorem parts?_flatMap (cs : List Char) (rest : Input) :
    parts? ((cs.flatMap escape).map some ++ some '"' :: rest) = some (cs.map partOf, rest) := by
  induction cs with
  | nil => rfl
  | cons c cs ih =>
    rw [List.flatMap_cons, List.map_append, List.append_assoc, parts?_escape c ih, List.map_cons]

/-- A text is read as it was written, up to the quote that ends it. -/
theorem string?_flatMap (s : String) (rest : Input) :
    string? ((s.toList.flatMap escape).map some ++ some '"' :: rest) = some (some s, rest) := by
  simp only [string?, parts?_flatMap, Option.map_some, textOf?_partOf, String.ofList_toList]

end Literal

end Json
end BoardMarkup
