import BoardMarkup.Proofs.Base64
import BoardMarkup.Proofs.Style.Catalog
import BoardMarkup.Proofs.Style.Normalization
import BoardMarkup.Proofs.Text.Bytes
import Mathlib.Data.Nat.Bitwise

/-! Bits are still set after a bitfield was stored as text and read again. -/
namespace BoardMarkup.Style

open Text

namespace Bitfield

/-- A byte of a bitfield. Those behind the last one are zero. -/
def byte (f : Bitfield) (i : Nat) : UInt8 := f.bytes.getD i 0

theorem get_eq (f : Bitfield) (n : Nat) : f.get n = (f.byte (n / 8)).toNat.testBit (7 - n % 8) := by
  rw [get, byte, List.getD_eq_getElem?_getD]
  cases f.bytes[n / 8]? with
  | some b => rfl
  | none => exact (Nat.zero_testBit _).symm

private theorem byte_set (f : Bitfield) (n i : Nat) : (f.set n).byte i =
    if i = n / 8 then UInt8.ofNat ((f.byte i).toNat ||| 1 <<< (7 - n % 8)) else f.byte i := by
  have hgrown : ∀ j, (f.bytes ++ List.replicate (n / 8 + 1 - f.bytes.length) 0).getD j 0 = f.byte j := by
    intro j
    rw [byte, List.getD_eq_getElem?_getD, List.getD_eq_getElem?_getD, List.getElem?_append]
    split
    · rfl
    · next hj =>
      have hnone : f.bytes[j]? = none := List.getElem?_eq_none (Nat.not_lt.1 hj)
      rw [hnone, List.getElem?_replicate]
      split <;> rfl
  have hlength : n / 8 < (f.bytes ++ List.replicate (n / 8 + 1 - f.bytes.length) 0).length := by
    rw [List.length_append, List.length_replicate]
    omega
  rw [← hgrown]
  simp only [set, byte]
  generalize f.bytes ++ List.replicate (n / 8 + 1 - f.bytes.length) 0 = bytes at hlength
  rw [List.getD_eq_getElem?_getD, List.getD_eq_getElem?_getD, List.getElem?_modify]
  by_cases hi : i = n / 8
  · subst hi
    rw [if_pos rfl, List.getElem?_eq_getElem hlength]
    simp
  · simp [hi, Ne.symm hi]

/-- Setting a bit leaves all others as they are. -/
theorem get_set (f : Bitfield) (n m : Nat) : (f.set n).get m = (f.get m || m == n) := by
  rw [get_eq, get_eq, byte_set]
  by_cases hm : m / 8 = n / 8
  · have hbyte := (f.byte (m / 8)).toNat_lt
    have hmask : 2 ^ (7 - n % 8) < 2 ^ 8 := Nat.pow_lt_pow_right (by omega) (by omega)
    have hor : (f.byte (m / 8)).toNat ||| 2 ^ (7 - n % 8) < 2 ^ 8 := Nat.or_lt_two_pow hbyte hmask
    have hbit : decide (7 - n % 8 = 7 - m % 8) = (m == n) := by
      rw [Bool.eq_iff_iff, decide_eq_true_eq, beq_iff_eq]
      omega
    rw [if_pos hm, Nat.one_shiftLeft, UInt8.toNat_ofNat_of_lt' hor, Nat.testBit_or, Nat.testBit_two_pow,
      hbit]
  · have hne : (m == n) = false := by
      rw [beq_eq_false_iff_ne]
      rintro rfl
      exact hm rfl
    rw [if_neg hm, hne, Bool.or_false]

theorem get_empty (n : Nat) : empty.get n = false := rfl

theorem get_foldl_set (ns : List Nat) (f : Bitfield) (m : Nat) :
    (ns.foldl set f).get m = (f.get m || ns.contains m) := by
  induction ns generalizing f with
  | nil => simp
  | cons n ns ih => rw [List.foldl_cons, ih, get_set, List.contains_cons, Bool.or_assoc]

theorem byte_congr {f g : Bitfield} (h : ∀ n, f.get n = g.get n) (i : Nat) : f.byte i = g.byte i := by
  apply UInt8.toNat_inj.1
  apply Nat.eq_of_testBit_eq
  intro j
  by_cases hj : j < 8
  · have hbit := h (8 * i + (7 - j))
    have hbyte : (8 * i + (7 - j)) / 8 = i := by omega
    have hplace : 7 - (8 * i + (7 - j)) % 8 = j := by omega
    rwa [get_eq, get_eq, hbyte, hplace] at hbit
  · have hhigh : ∀ b : UInt8, b.toNat.testBit j = false := fun b =>
      Nat.testBit_lt_two_pow (b.toNat_lt.trans_le (Nat.pow_le_pow_right (by omega) (by omega)))
    rw [hhigh, hhigh]

def trimmed (f : Bitfield) : Bitfield := ⟨f.bytes.rdropWhile (· == 0)⟩

theorem byte_trimmed (f : Bitfield) (i : Nat) : f.trimmed.byte i = f.byte i := by
  obtain ⟨bytes⟩ := f
  simp only [trimmed, byte]
  induction bytes using List.reverseRecOn with
  | nil => rfl
  | append_singleton bytes b ih =>
    by_cases hb : b = 0
    · rw [List.rdropWhile_concat_pos _ _ _ (by simpa using hb), ih, hb]
      simp only [List.getD_eq_getElem?_getD, List.getElem?_append, List.getElem?_singleton]
      split
      · rfl
      · next hi =>
        rw [List.getElem?_eq_none (by omega)]
        split <;> rfl
    · rw [List.rdropWhile_concat_neg _ _ _ (by simpa using hb)]

theorem get_trimmed (f : Bitfield) (n : Nat) : f.trimmed.get n = f.get n := by
  rw [get_eq, get_eq, byte_trimmed]

theorem length_trimmed_le {f g : Bitfield} (h : ∀ i, f.byte i = g.byte i) :
    f.trimmed.bytes.length ≤ g.trimmed.bytes.length := by
  by_contra hlt
  have hne : f.trimmed.bytes ≠ [] := by
    intro he
    rw [he] at hlt
    exact hlt (Nat.zero_le _)
  have hlast : f.trimmed.byte (f.trimmed.bytes.length - 1) = f.trimmed.bytes.getLast hne := by
    rw [byte, List.getD_eq_getElem _ _ (by omega), List.getLast_eq_getElem]
  have hzero : g.trimmed.byte (f.trimmed.bytes.length - 1) = 0 := List.getD_eq_default _ _ (by omega)
  have hdiffer : f.trimmed.bytes.getLast hne ≠ 0 := fun he =>
    List.rdropWhile_last_not (· == 0) f.bytes hne (beq_iff_eq.2 he)
  rw [byte_trimmed, h, ← byte_trimmed g, hzero] at hlast
  exact hdiffer hlast.symm

theorem trimmed_congr {f g : Bitfield} (h : ∀ n, f.get n = g.get n) : f.trimmed = g.trimmed := by
  have hbytes := byte_congr h
  have hlength := Nat.le_antisymm (length_trimmed_le hbytes) (length_trimmed_le fun i => (hbytes i).symm)
  have hlist : f.trimmed.bytes = g.trimmed.bytes := by
    apply List.ext_getElem hlength
    intro i hf hg
    have hi : f.trimmed.byte i = g.trimmed.byte i := by rw [byte_trimmed, byte_trimmed, hbytes]
    rwa [byte, byte, List.getD_eq_getElem _ _ hf, List.getD_eq_getElem _ _ hg] at hi
  exact congrArg Bitfield.mk hlist

theorem toBase64_eq (f : Bitfield) : f.toBase64 = String.ofList (Base64.encode f.trimmed.bytes) := rfl

private theorem utf8Size_digit : ∀ n < 64, (Base64.digit n).utf8Size = 1 := by decide

private theorem isBlank_digit : ∀ n < 64, isBlank (Base64.digit n) = false := by decide

/-- What is written of some bytes is read as a bitfield of these bytes. -/
theorem ofBase64?_of_writes {bytes : List UInt8} {text : List Char} (h : Base64.Writes bytes text) :
    ofBase64? (String.ofList text) = .ok ⟨bytes⟩ := by
  have hsize : ∀ c ∈ text, c.utf8Size = 1 := by
    intro c hc
    rcases h.mem hc with rfl | ⟨n, hn, rfl⟩
    · decide
    · exact utf8Size_digit n hn
  have hblank : ∀ c ∈ text, isBlank c = false := by
    intro c hc
    rcases h.mem hc with rfl | ⟨n, hn, rfl⟩
    · decide
    · exact isBlank_digit n hn
  have htrim : trim (String.ofList text) = String.ofList text := by
    rw [trim, String.toList_ofList, stripWhile_eq_self_of_forall hblank]
  have hdecode : Base64.decode (text.map fun c => UInt8.ofNat c.toNat) = .ok bytes := h.decode
  rw [ofBase64?, htrim, toList_toUTF8_ofList hsize, hdecode]

/-- A bitfield comes back without its final zero bytes, whether the padding of its text is kept or not. -/
theorem ofBase64?_toBase64 (f : Bitfield) : ofBase64? f.toBase64 = .ok f.trimmed ∧
    ofBase64? (String.ofList (Base64.unpad f.toBase64.toList)) = .ok f.trimmed := by
  constructor
  · exact ofBase64?_of_writes (.inl rfl)
  · rw [toBase64_eq, String.toList_ofList]
    exact ofBase64?_of_writes (.inr rfl)

/-- Bitfields are written the same just when they have the same bits. -/
theorem toBase64_eq_iff {f g : Bitfield} : f.toBase64 = g.toBase64 ↔ ∀ n, f.get n = g.get n := by
  constructor
  · intro h n
    have hf := (ofBase64?_toBase64 f).1
    rw [h, (ofBase64?_toBase64 g).1, Except.ok.injEq] at hf
    rw [← get_trimmed f, ← get_trimmed g, hf]
  · intro h
    rw [toBase64_eq, toBase64_eq, trimmed_congr h]

def bitOf? (name : String) : Option Nat := (Directive.find? name).bind (·.activation.bit?)

theorem bitOf?_eq_some_iff {name : String} {n : Nat} :
    bitOf? name = some n ↔ ∃ d ∈ catalog, d.name = name ∧ d.activation = .bit n := by
  simp only [bitOf?, Option.bind_eq_some_iff, find?_eq_some_iff, Activation.bit?_eq_some_iff, and_assoc]

private theorem ofNames_eq (names : List String) :
    ofNames names = (names.filterMap bitOf?).foldl set empty := by
  unfold ofNames
  generalize empty = f
  induction names generalizing f with
  | nil => rfl
  | cons name names ih =>
    rw [List.foldl_cons, ih, List.filterMap_cons, bitOf?]
    cases Directive.find? name with
    | none => rfl
    | some d =>
      obtain ⟨_, _, _, _, activation, _⟩ := d
      cases activation <;> rfl

theorem get_ofNames (names : List String) {d : Directive} (hd : d ∈ catalog) {n : Nat}
    (hn : d.activation = .bit n) : (ofNames names).get n = true ↔ d.name ∈ names := by
  have hget : (ofNames names).get n = (names.filterMap bitOf?).contains n := by
    rw [ofNames_eq, get_foldl_set, get_empty, Bool.false_or]
  rw [hget, List.contains_iff_mem, List.mem_filterMap]
  constructor
  · rintro ⟨name, hm, hname⟩
    obtain ⟨e, he, rfl, hen⟩ := bitOf?_eq_some_iff.1 hname
    have hed : e = d := List.inj_on_of_nodup_map nodup_catalog_activations he hd (hen.trans hn.symm)
    rwa [← hed]
  · intro hm
    exact ⟨d.name, hm, bitOf?_eq_some_iff.2 ⟨d, hd, rfl, hn⟩⟩

theorem isActive_of_mem (f : Bitfield) {d : Directive} (hd : d ∈ catalog) {n : Nat}
    (hn : d.activation = .bit n) : f.isActive d.name = f.get n := by
  rw [isActive, find?_eq_some_iff.2 ⟨hd, rfl⟩]
  simp only [hn, activates]

theorem isActive_trimmed (f : Bitfield) (name : String) : f.trimmed.isActive name = f.isActive name := by
  have hactivates : ∀ a, f.trimmed.activates a = f.activates a := by
    rintro (n | leader)
    · exact f.get_trimmed n
    · unfold activates
      split <;> simp [get_trimmed]
  unfold isActive
  cases Directive.find? name with
  | none => rfl
  | some d => exact hactivates d.activation

/-- Of the named directives those with a bit are active, and items just when lists are named. -/
theorem isActive_ofNames (names : List String) {d : Directive} (hd : d ∈ catalog) :
    (ofNames names).isActive d.name = true ↔
      d.name ∈ names ∧ (∃ n, d.activation = .bit n) ∨ d.name = "li" ∧ "list" ∈ names := by
  rcases activation_cases hd with ⟨⟨n, hn⟩, hne⟩ | ⟨hfollows, hli⟩
  · rw [isActive_of_mem _ hd hn, get_ofNames names hd hn]
    simp [hn, hne]
  · obtain ⟨list, hm, hlist, hbit⟩ : ∃ list ∈ catalog, list.name = "list" ∧ list.activation = .bit 9 :=
      bitOf?_eq_some_iff.1 rfl
    rw [hli, isActive_li, ← hlist, isActive_of_mem _ hm hbit, get_ofNames names hm hbit]
    simp [hfollows]

/-- Every active name is that of a directive. -/
theorem mem_activeNames_iff (f : Bitfield) (name : String) :
    name ∈ f.activeNames ↔ f.isActive name = true := by
  rw [activeNames, List.mem_map]
  constructor
  · rintro ⟨d, hd, rfl⟩
    exact (List.mem_filter.1 hd).2
  · intro h
    cases hf : Directive.find? name with
    | none =>
      rw [isActive, hf] at h
      cases h
    | some d =>
      obtain ⟨hd, rfl⟩ := find?_eq_some_iff.1 hf
      exact ⟨d, List.mem_filter.2 ⟨hd, h⟩, rfl⟩

end Bitfield

open Bitfield

/--
Stored bits survive. Of the bits that were set just these are set in what is read again; the text depends
on nothing but the bits, and its padding may be missing; whatever text a bitfield was read from, none of
its bits is lost. So of the named directives those with a bit of their own are active, items just when
lists are named, and nothing else.
-/
theorem bits_survive_storage :
    (∀ ns : List Nat, ∃ g, ofBase64? (ns.foldl set empty).toBase64 = .ok g ∧
      ∀ n, g.get n = true ↔ n ∈ ns) ∧
    (∀ f g : Bitfield, f.toBase64 = g.toBase64 ↔ ∀ n, f.get n = g.get n) ∧
    (∀ f : Bitfield, ∃ g, ofBase64? f.toBase64 = .ok g ∧
      ofBase64? (String.ofList (Base64.unpad f.toBase64.toList)) = .ok g) ∧
    (∀ text f, ofBase64? text = .ok f →
      ∃ g, ofBase64? f.toBase64 = .ok g ∧ ∀ n, g.get n = f.get n) ∧
    ∀ names : List String, ∃ g, ofBase64? (ofNames names).toBase64 = .ok g ∧
      (∀ d ∈ catalog, g.isActive d.name = true ↔
        d.name ∈ names ∧ (∃ n, d.activation = .bit n) ∨ d.name = "li" ∧ "list" ∈ names) ∧
      ∀ name, g.isActive name = true ↔ name ∈ g.activeNames := by
  refine ⟨fun ns => ?_, fun f g => toBase64_eq_iff, fun f => ?_, fun text f _ => ?_, fun names => ?_⟩
  · refine ⟨_, (ofBase64?_toBase64 _).1, fun n => ?_⟩
    rw [get_trimmed, get_foldl_set, get_empty, Bool.false_or, List.contains_iff_mem]
  · exact ⟨_, ofBase64?_toBase64 f⟩
  · exact ⟨_, (ofBase64?_toBase64 f).1, f.get_trimmed⟩
  · refine ⟨_, (ofBase64?_toBase64 _).1, fun d hd => ?_, fun name => ?_⟩
    · rw [isActive_trimmed, isActive_ofNames names hd]
    · rw [mem_activeNames_iff]

/-- A text with a blank, without padding and with zero bytes at its end. -/
theorem bits_survive_storage_example :
    ofBase64? " kNgAAA" = .ok ⟨[0x90, 0xD8, 0, 0]⟩ ∧ (⟨[0x90, 0xD8, 0, 0]⟩ : Bitfield).toBase64 = "kNg=" ∧
      ∃ g, ofBase64? "kNg=" = .ok g ∧ ∀ n, g.get n = (⟨[0x90, 0xD8, 0, 0]⟩ : Bitfield).get n := by
  have hread : ofBase64? " kNgAAA" = .ok ⟨[0x90, 0xD8, 0, 0]⟩ := by decide +kernel
  have hwritten : (⟨[0x90, 0xD8, 0, 0]⟩ : Bitfield).toBase64 = "kNg=" := by decide
  have hkept := bits_survive_storage.2.2.2.1 _ _ hread
  rw [hwritten] at hkept
  exact ⟨hread, hwritten, hkept⟩

end BoardMarkup.Style
