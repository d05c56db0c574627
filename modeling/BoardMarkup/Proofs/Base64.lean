import BoardMarkup.Base64
import BoardMarkup.Proofs.Text.Cut
import BoardMarkup.Text.Trim
import Mathlib.Data.List.DropRight

/-! Base64 is read back as it was written, with its padding or without. -/
namespace BoardMarkup.Base64

open Text

def symbol (c : Char) : UInt8 := UInt8.ofNat c.toNat

def unpad (cs : List Char) : List Char := dropEndWhile (· == '=') cs

theorem value?_digit : ∀ n < 64, value? (symbol (digit n)) = some n := by decide

theorem symbol_digit_ne_padding : ∀ n < 64, symbol (digit n) ≠ padding := by decide

theorem digit_ne_equals : ∀ n < 64, digit n ≠ '=' := by decide

theorem digitAt_digit (offset : Nat) {n : Nat} (h : n < 64) :
    digitAt offset (symbol (digit n)) = .ok n := by
  rw [digitAt, value?_digit n h]

theorem lastDigits_digit (start index : Nat) {n : Nat} (h : n < 64) (rest : List UInt8) :
    lastDigits start index none (symbol (digit n) :: rest) =
      (lastDigits start (index + 1) none rest).map ((symbol (digit n), n) :: ·) := by
  rw [lastDigits, if_neg (symbol_digit_ne_padding n h)]
  simp only [digitAt_digit _ h]
  cases lastDigits start (index + 1) none rest <;> rfl

theorem lastDigits_padding (start index : Nat) (h : 2 ≤ index) (padded : Option Nat) (rest : List UInt8) :
    lastDigits start index padded (padding :: rest) =
      lastDigits start (index + 1) (padded.or (some index)) rest := by
  rw [lastDigits.eq_def]
  simp only [if_true, if_neg (Nat.not_lt.2 h)]

section Groups

variable (start : Nat) {p q r s : Nat}

theorem decodeFrom_digits (hp : p < 64) (hq : q < 64) (hr : r < 64) (hs : s < 64)
    {rest : List UInt8} (hne : rest ≠ []) :
    decodeFrom start (symbol (digit p) :: symbol (digit q) :: symbol (digit r) :: symbol (digit s) ::
        rest) =
      (decodeFrom (start + 4) rest).map fun bytes =>
        UInt8.ofNat ((p * 262144 + q * 4096 + r * 64 + s) / 65536) ::
          UInt8.ofNat ((p * 262144 + q * 4096 + r * 64 + s) / 256 % 256) ::
            UInt8.ofNat ((p * 262144 + q * 4096 + r * 64 + s) % 256) :: bytes := by
  obtain ⟨e, rest, rfl⟩ := List.exists_cons_of_ne_nil hne
  rw [decodeFrom, digitAt_digit _ hp, digitAt_digit _ hq, digitAt_digit _ hr, digitAt_digit _ hs]
  cases decodeFrom (start + 4) (e :: rest) <;> rfl

theorem decodeLast_four (hp : p < 64) (hq : q < 64) (hr : r < 64) (hs : s < 64) :
    decodeLast start [symbol (digit p), symbol (digit q), symbol (digit r), symbol (digit s)] =
      .ok [UInt8.ofNat ((p * 262144 + q * 4096 + r * 64 + s) / 65536),
        UInt8.ofNat ((p * 262144 + q * 4096 + r * 64 + s) / 256 % 256),
        UInt8.ofNat ((p * 262144 + q * 4096 + r * 64 + s) % 256)] := by
  rw [decodeLast, lastDigits_digit _ _ hp, lastDigits_digit _ _ hq, lastDigits_digit _ _ hr,
    lastDigits_digit _ _ hs]
  rfl

/-- Padding behind three digits makes no difference. -/
theorem decodeLast_three (hp : p < 64) (hq : q < 64) (hr : r < 64) (hlow : r % 4 = 0) {end? : List UInt8}
    (hend : end? = [] ∨ end? = [padding]) :
    decodeLast start (symbol (digit p) :: symbol (digit q) :: symbol (digit r) :: end?) =
      .ok [UInt8.ofNat ((p * 4096 + q * 64 + r) / 4 / 256),
        UInt8.ofNat ((p * 4096 + q * 64 + r) / 4 % 256)] := by
  have hrest : lastDigits start 3 none end? = .ok [] := by
    rcases hend with rfl | rfl
    · rfl
    · rw [lastDigits_padding _ _ (by omega)]
      rfl
  rw [decodeLast, lastDigits_digit _ _ hp, lastDigits_digit _ _ hq, lastDigits_digit _ _ hr, hrest]
  simp only [Except.map, bind, Except.bind, if_pos hlow]

theorem decodeLast_two (hp : p < 64) (hq : q < 64) (hlow : q % 16 = 0) {end? : List UInt8}
    (hend : end? = [] ∨ end? = [padding, padding]) :
    decodeLast start (symbol (digit p) :: symbol (digit q) :: end?) =
      .ok [UInt8.ofNat (p * 4 + q / 16)] := by
  have hrest : lastDigits start 2 none end? = .ok [] := by
    rcases hend with rfl | rfl
    · rfl
    · rw [lastDigits_padding _ _ (by omega), lastDigits_padding _ _ (by omega)]
      rfl
  rw [decodeLast, lastDigits_digit _ _ hp, lastDigits_digit _ _ hq, hrest]
  simp only [Except.map, bind, Except.bind, if_pos hlow]

end Groups

/-- Three bytes are written as four digits, which say what the bytes are. -/
theorem exists_four (a b c : UInt8) (rest : List UInt8) : ∃ p q r s, p < 64 ∧ q < 64 ∧ r < 64 ∧ s < 64 ∧
    encode (a :: b :: c :: rest) = digit p :: digit q :: digit r :: digit s :: encode rest ∧
    UInt8.ofNat ((p * 262144 + q * 4096 + r * 64 + s) / 65536) = a ∧
    UInt8.ofNat ((p * 262144 + q * 4096 + r * 64 + s) / 256 % 256) = b ∧
    UInt8.ofNat ((p * 262144 + q * 4096 + r * 64 + s) % 256) = c := by
  have ha := a.toNat_lt
  have hb := b.toNat_lt
  have hc := c.toNat_lt
  obtain ⟨n, hn⟩ : ∃ n, n = a.toNat * 65536 + b.toNat * 256 + c.toNat := ⟨_, rfl⟩
  have hwhole : n / 262144 * 262144 + n / 4096 % 64 * 4096 + n / 64 % 64 * 64 + n % 64 = n := by omega
  have hfirst : n / 65536 = a.toNat := by omega
  have hsecond : n / 256 % 256 = b.toNat := by omega
  have hthird : n % 256 = c.toNat := by omega
  refine ⟨n / 262144, n / 4096 % 64, n / 64 % 64, n % 64, by omega, by omega, by omega, by omega,
    by rw [hn]; rfl, ?_, ?_, ?_⟩
  · rw [hwhole, hfirst, UInt8.ofNat_toNat]
  · rw [hwhole, hsecond, UInt8.ofNat_toNat]
  · rw [hwhole, hthird, UInt8.ofNat_toNat]

theorem exists_three (a b : UInt8) : ∃ p q r, p < 64 ∧ q < 64 ∧ r < 64 ∧ r % 4 = 0 ∧
    encode [a, b] = [digit p, digit q, digit r, '='] ∧
    UInt8.ofNat ((p * 4096 + q * 64 + r) / 4 / 256) = a ∧
    UInt8.ofNat ((p * 4096 + q * 64 + r) / 4 % 256) = b := by
  have ha := a.toNat_lt
  have hb := b.toNat_lt
  obtain ⟨n, hn⟩ : ∃ n, n = a.toNat * 1024 + b.toNat * 4 := ⟨_, rfl⟩
  have hwhole : n / 4096 * 4096 + n / 64 % 64 * 64 + n % 64 = n := by omega
  have hfirst : n / 4 / 256 = a.toNat := by omega
  have hsecond : n / 4 % 256 = b.toNat := by omega
  refine ⟨n / 4096, n / 64 % 64, n % 64, by omega, by omega, by omega, by omega, by rw [hn]; rfl, ?_, ?_⟩
  · rw [hwhole, hfirst, UInt8.ofNat_toNat]
  · rw [hwhole, hsecond, UInt8.ofNat_toNat]

theorem exists_two (a : UInt8) : ∃ p q, p < 64 ∧ q < 64 ∧ q % 16 = 0 ∧
    encode [a] = [digit p, digit q, '=', '='] ∧ UInt8.ofNat (p * 4 + q / 16) = a := by
  have ha := a.toNat_lt
  obtain ⟨n, hn⟩ : ∃ n, n = a.toNat * 16 := ⟨_, rfl⟩
  have hwhole : n / 64 * 4 + n % 64 / 16 = a.toNat := by omega
  refine ⟨n / 64, n % 64, by omega, by omega, by omega, by rw [hn]; rfl, ?_⟩
  rw [hwhole, UInt8.ofNat_toNat]

theorem unpad_cons {c : Char} (h : c ≠ '=') (cs : List Char) : unpad (c :: cs) = c :: unpad cs := by
  have hc : (c == '=') = false := by simpa using h
  have hd : (cs.reverse ++ [c]).dropWhile (· == '=') = cs.reverse.dropWhile (· == '=') ++ [c] :=
    dropWhile_append_cons (p := (· == '=')) hc _ _
  simp only [unpad, dropEndWhile, List.reverse_cons, hd, List.reverse_append]
  rfl

theorem mem_encode {bytes : List UInt8} {c : Char} (h : c ∈ encode bytes) :
    c = '=' ∨ ∃ n < 64, c = digit n := by
  induction bytes using encode.induct with
  | case1 a b d rest ih =>
    obtain ⟨p, q, r, s, hp, hq, hr, hs, he, -⟩ := exists_four a b d rest
    simp only [he, List.mem_cons] at h
    rcases h with rfl | rfl | rfl | rfl | h
    · exact .inr ⟨p, hp, rfl⟩
    · exact .inr ⟨q, hq, rfl⟩
    · exact .inr ⟨r, hr, rfl⟩
    · exact .inr ⟨s, hs, rfl⟩
    · exact ih h
  | case2 a b =>
    obtain ⟨p, q, r, hp, hq, hr, -, he, -⟩ := exists_three a b
    simp only [he, List.mem_cons, List.not_mem_nil, or_false] at h
    rcases h with rfl | rfl | rfl | rfl
    · exact .inr ⟨p, hp, rfl⟩
    · exact .inr ⟨q, hq, rfl⟩
    · exact .inr ⟨r, hr, rfl⟩
    · exact .inl rfl
  | case3 a =>
    obtain ⟨p, q, hp, hq, -, he, -⟩ := exists_two a
    simp only [he, List.mem_cons, List.not_mem_nil, or_false] at h
    rcases h with rfl | rfl | rfl | rfl
    · exact .inr ⟨p, hp, rfl⟩
    · exact .inr ⟨q, hq, rfl⟩
    · exact .inl rfl
    · exact .inl rfl
  | case4 => cases h

/-- What is written of some bytes, with the padding or without. -/
def Writes (bytes : List UInt8) (text : List Char) : Prop :=
  text = encode bytes ∨ text = unpad (encode bytes)

theorem Writes.nil {text : List Char} (h : Writes [] text) : text = [] := by
  simpa [Writes, encode, unpad, dropEndWhile] using h

theorem Writes.four {a b c : UInt8} {rest : List UInt8} {text : List Char}
    (h : Writes (a :: b :: c :: rest) text) :
    ∃ p q r s others, p < 64 ∧ q < 64 ∧ r < 64 ∧ s < 64 ∧
      text = digit p :: digit q :: digit r :: digit s :: others ∧ Writes rest others ∧
      UInt8.ofNat ((p * 262144 + q * 4096 + r * 64 + s) / 65536) = a ∧
      UInt8.ofNat ((p * 262144 + q * 4096 + r * 64 + s) / 256 % 256) = b ∧
      UInt8.ofNat ((p * 262144 + q * 4096 + r * 64 + s) % 256) = c := by
  obtain ⟨p, q, r, s, hp, hq, hr, hs, he, hbytes⟩ := exists_four a b c rest
  rw [Writes, he, unpad_cons (digit_ne_equals p hp), unpad_cons (digit_ne_equals q hq),
    unpad_cons (digit_ne_equals r hr), unpad_cons (digit_ne_equals s hs)] at h
  rcases h with rfl | rfl
  · exact ⟨p, q, r, s, _, hp, hq, hr, hs, rfl, .inl rfl, hbytes⟩
  · exact ⟨p, q, r, s, _, hp, hq, hr, hs, rfl, .inr rfl, hbytes⟩

theorem Writes.three {a b : UInt8} {text : List Char} (h : Writes [a, b] text) :
    ∃ p q r others, p < 64 ∧ q < 64 ∧ r < 64 ∧ r % 4 = 0 ∧
      text = digit p :: digit q :: digit r :: others ∧ (others = [] ∨ others = ['=']) ∧
      UInt8.ofNat ((p * 4096 + q * 64 + r) / 4 / 256) = a ∧
      UInt8.ofNat ((p * 4096 + q * 64 + r) / 4 % 256) = b := by
  obtain ⟨p, q, r, hp, hq, hr, hlow, he, hbytes⟩ := exists_three a b
  rw [Writes, he, unpad_cons (digit_ne_equals p hp), unpad_cons (digit_ne_equals q hq),
    unpad_cons (digit_ne_equals r hr)] at h
  rcases h with rfl | rfl
  · exact ⟨p, q, r, _, hp, hq, hr, hlow, rfl, .inr rfl, hbytes⟩
  · exact ⟨p, q, r, _, hp, hq, hr, hlow, rfl, .inl rfl, hbytes⟩

theorem Writes.two {a : UInt8} {text : List Char} (h : Writes [a] text) :
    ∃ p q others, p < 64 ∧ q < 64 ∧ q % 16 = 0 ∧ text = digit p :: digit q :: others ∧
      (others = [] ∨ others = ['=', '=']) ∧ UInt8.ofNat (p * 4 + q / 16) = a := by
  obtain ⟨p, q, hp, hq, hlow, he, hbyte⟩ := exists_two a
  rw [Writes, he, unpad_cons (digit_ne_equals p hp), unpad_cons (digit_ne_equals q hq)] at h
  rcases h with rfl | rfl
  · exact ⟨p, q, _, hp, hq, hlow, rfl, .inr rfl, hbyte⟩
  · exact ⟨p, q, _, hp, hq, hlow, rfl, .inl rfl, hbyte⟩

theorem Writes.ne_nil {bytes : List UInt8} (hne : bytes ≠ []) {text : List Char} (h : Writes bytes text) :
    text ≠ [] := by
  rcases bytes with _ | ⟨a, _ | ⟨b, _ | ⟨c, rest⟩⟩⟩
  · exact absurd rfl hne
  · obtain ⟨p, q, others, -, -, -, rfl, -⟩ := h.two
    simp
  · obtain ⟨p, q, r, others, -, -, -, -, rfl, -⟩ := h.three
    simp
  · obtain ⟨p, q, r, s, others, -, -, -, -, rfl, -⟩ := h.four
    simp

theorem Writes.decodeFrom {bytes : List UInt8} (hne : bytes ≠ []) (start : Nat) {text : List Char}
    (h : Writes bytes text) : decodeFrom start (text.map symbol) = .ok bytes := by
  induction bytes using encode.induct generalizing start text with
  | case1 a b c rest ih =>
    obtain ⟨p, q, r, s, others, hp, hq, hr, hs, rfl, hothers, ha, hb, hc⟩ := h.four
    simp only [List.map_cons]
    cases rest with
    | nil =>
      obtain rfl := hothers.nil
      change decodeLast start _ = _
      rw [List.map_nil, decodeLast_four start hp hq hr hs, ha, hb, hc]
    | cons d rest =>
      have hmap : others.map symbol ≠ [] := by simpa using hothers.ne_nil (by simp)
      rw [decodeFrom_digits start hp hq hr hs hmap, ih (by simp) _ hothers, ha, hb, hc]
      rfl
  | case2 a b =>
    obtain ⟨p, q, r, others, hp, hq, hr, hlow, rfl, hothers, ha, hb⟩ := h.three
    have hlast : others.map symbol = [] ∨ others.map symbol = [padding] :=
      hothers.imp (fun e => by rw [e]; rfl) (fun e => by rw [e]; rfl)
    have hdecode := decodeLast_three start hp hq hr hlow hlast
    rw [ha, hb] at hdecode
    rcases hothers with rfl | rfl <;> exact hdecode
  | case3 a =>
    obtain ⟨p, q, others, hp, hq, hlow, rfl, hothers, ha⟩ := h.two
    have hlast : others.map symbol = [] ∨ others.map symbol = [padding, padding] :=
      hothers.imp (fun e => by rw [e]; rfl) (fun e => by rw [e]; rfl)
    have hdecode := decodeLast_two start hp hq hlow hlast
    rw [ha] at hdecode
    rcases hothers with rfl | rfl <;> exact hdecode
  | case4 => exact absurd rfl hne

theorem Writes.mem {bytes : List UInt8} {text : List Char} (h : Writes bytes text) {c : Char}
    (hc : c ∈ text) : c = '=' ∨ ∃ n < 64, c = digit n := by
  rcases h with rfl | rfl
  · exact mem_encode hc
  · have hstart : unpad (encode bytes) <+: encode bytes :=
      List.rdropWhile_prefix (· == '=') (encode bytes)
    exact mem_encode (hstart.subset hc)

/-- What is written of some bytes is read as these bytes, with its padding or without. -/
theorem Writes.decode {bytes : List UInt8} {text : List Char} (h : Writes bytes text) :
    decode (text.map symbol) = .ok bytes := by
  by_cases hne : bytes = []
  · subst hne
    rw [h.nil]
    rfl
  · obtain ⟨c, hc⟩ := Option.isSome_iff_exists.1 (List.getLast?_isSome.2 (h.ne_nil hne))
    have hknown : symbol c = padding ∨ value? (symbol c) ≠ none := by
      rcases h.mem (List.mem_of_getLast? hc) with rfl | ⟨n, hn, rfl⟩
      · exact .inl rfl
      · exact .inr (by rw [value?_digit n hn]; simp)
    have hlast : (text.map symbol).getLast? = some (symbol c) := by
      rw [List.getLast?_map, hc, Option.map_some]
    rw [Base64.decode, hlast]
    rcases hknown with hk | hk
    · simp only [hk, ne_eq, not_true_eq_false, false_and, and_false, if_false, h.decodeFrom hne]
    · simp only [hk, and_false, if_false, h.decodeFrom hne]

end BoardMarkup.Base64
