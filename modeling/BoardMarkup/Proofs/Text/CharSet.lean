import BoardMarkup.Text.Classes
import BoardMarkup.Text.Folding
import BoardMarkup.Text.Trim

/-! Characters of a set lie between its bounds, which tells blanks from letters. -/
namespace BoardMarkup.Text

def rangesOf : List Nat → List (Nat × Nat)
  | first :: behind :: bounds => (first, behind) :: rangesOf bounds
  | [first] => [(first, 0x110000)]
  | [] => []

theorem exists_range {bounds : List Nat} {n : Nat} (hn : n < 0x110000)
    (h : (bounds.takeWhile (· ≤ n)).length % 2 = 1) : ∃ r ∈ rangesOf bounds, r.1 ≤ n ∧ n < r.2 := by
  induction bounds using rangesOf.induct with
  | case1 first behind bounds ih =>
    by_cases hfirst : first ≤ n
    · by_cases hbehind : behind ≤ n
      · simp only [List.takeWhile_cons, hfirst, hbehind, decide_true, if_true, List.length_cons] at h
        obtain ⟨r, hr, hin⟩ := ih (by omega)
        exact ⟨r, .tail _ hr, hin⟩
      · exact ⟨(first, behind), by simp [rangesOf], hfirst, by simpa using hbehind⟩
    · simp [hfirst] at h
  | case2 first =>
    by_cases hfirst : first ≤ n
    · exact ⟨(first, 0x110000), by simp [rangesOf], hfirst, hn⟩
    · simp [hfirst] at h
  | case3 => simp at h

namespace CharSet

variable {s t : CharSet} {c : Char}

theorem exists_range (h : s.contains c = true) : ∃ r ∈ rangesOf s.bounds, r.1 ≤ c.toNat ∧ c.toNat < r.2 := by
  have hvalid : c.toNat < 0x110000 := by
    have := c.valid
    simp only [UInt32.isValidChar, Nat.isValidChar] at this
    have hval : c.toNat = c.val.toNat := rfl
    omega
  exact Text.exists_range hvalid (by simpa [contains] using h)

/-- Sets whose ranges lie apart have no character in common. -/
theorem contains_eq_false (h : ∀ r ∈ rangesOf s.bounds, ∀ q ∈ rangesOf t.bounds, r.2 ≤ q.1 ∨ q.2 ≤ r.1)
    (hs : s.contains c = true) : t.contains c = false := by
  rw [Bool.eq_false_iff]
  intro ht
  obtain ⟨r, hr, hfirst, hbehind⟩ := exists_range hs
  obtain ⟨q, hq, hfirst', hbehind'⟩ := exists_range ht
  rcases h r hr q hq with hd | hd <;> omega

end CharSet

theorem toNat_of_isUpper {c : Char} (h : c.isUpper = true) : 65 ≤ c.toNat ∧ c.toNat ≤ 90 := by
  obtain ⟨hfirst, hlast⟩ := of_decide_eq_true h
  exact ⟨UInt32.le_iff_toNat_le.1 hfirst, UInt32.le_iff_toNat_le.1 hlast⟩

theorem toNat_of_isLower {c : Char} (h : c.isLower = true) : 97 ≤ c.toNat ∧ c.toNat ≤ 122 := by
  obtain ⟨hfirst, hlast⟩ := (Bool.and_eq_true _ _).mp h
  exact ⟨UInt32.le_iff_toNat_le.1 (of_decide_eq_true hfirst),
    UInt32.le_iff_toNat_le.1 (of_decide_eq_true hlast)⟩

theorem toNat_of_isDigit {c : Char} (h : c.isDigit = true) : 48 ≤ c.toNat ∧ c.toNat ≤ 57 :=
  Char.isDigit_iff_toNat.1 h

theorem isWord_of_isBlank {c : Char} (h : isBlank c = true) : isWord c = false :=
  CharSet.contains_eq_false (s := blanks) (by decide +kernel) h

/-- No rule leads to blanks or away from them. -/
theorem foldRules_apart_blanks : ∀ r ∈ foldRules, ∀ b ∈ rangesOf blanks.bounds,
    (b.2 ≤ r.first ∨ r.last < b.1) ∧ (b.2 ≤ r.target ∨ r.target + (r.last - r.first) < b.1) := by
  decide +kernel

private theorem toNat_ofNat_eq (n : Nat) : (Char.ofNat n).toNat = n ∨ (Char.ofNat n).toNat = 0 := by
  by_cases h : n.isValidChar
  · exact .inl (by rw [Char.ofNat, dif_pos h]; rfl)
  · exact .inr (by rw [Char.ofNat, dif_neg h]; rfl)

theorem isBlank_fold (c : Char) : isBlank (fold c) = isBlank c := by
  unfold fold
  split
  · next r hr =>
    have happlies := List.find?_some hr
    simp only [FoldRule.applies, Bool.and_eq_true, decide_eq_true_eq] at happlies
    obtain ⟨⟨hfirst, hlast⟩, -⟩ := happlies
    have hapart := foldRules_apart_blanks r (List.mem_of_find?_eq_some hr)
    have hsource : isBlank c = false := by
      rw [Bool.eq_false_iff]
      intro hc
      obtain ⟨b, hb, hge, hlt⟩ := CharSet.exists_range hc
      rcases (hapart b hb).1 with hd | hd <;> omega
    have htarget : isBlank (Char.ofNat (r.target + (c.toNat - r.first))) = false := by
      rw [Bool.eq_false_iff]
      intro hc
      obtain ⟨b, hb, hge, hlt⟩ := CharSet.exists_range hc
      have hpos : ∀ b ∈ rangesOf blanks.bounds, 0 < b.1 := by decide
      have hfirst := hpos b hb
      rcases toNat_ofNat_eq (r.target + (c.toNat - r.first)) with hn | hn
      · rcases (hapart b hb).2 with hd | hd <;> omega
      · omega
    rw [hsource, htarget]
  · rfl

end BoardMarkup.Text
