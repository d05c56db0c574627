import BoardMarkup.Proofs.Text.Cut
import BoardMarkup.Proofs.Text.Find
import BoardMarkup.Proofs.Text.Strip
import BoardMarkup.Style.Normalizer

/-! What normalization leaves as it is. -/
namespace BoardMarkup.Style

open Text

def Trimmed (cs : List Char) : Prop :=
  (∀ c, cs.head? = some c → isBlank c = false) ∧ ∀ c, cs.getLast? = some c → isBlank c = false

theorem trimmed_congr {cs ds : List Char} (hhead : cs.head? = ds.head?) (hlast : cs.getLast? = ds.getLast?) :
    Trimmed cs ↔ Trimmed ds := by
  rw [Trimmed, Trimmed, hhead, hlast]

theorem stripWhile_of_trimmed {cs : List Char} (h : Trimmed cs) : stripWhile isBlank cs = cs :=
  stripWhile_eq_self h.1 h.2

theorem trimmed_stripWhile (cs : List Char) : Trimmed (stripWhile isBlank cs) :=
  ⟨fun _ => head?_stripWhile, fun _ => getLast?_stripWhile⟩

def commentMark : List Char := ['<', '!', '-', '-']

theorem apply_transposeComments_eq_self {cs : List Char} (h : ¬ commentMark <:+: cs) :
    Pass.transposeComments.apply cs = cs := by
  refine replaceAll_eq_self fun before rest hr => ?_
  have hmark : "<!--".toList = commentMark := String.toList_ofList
  have ha : after? commentMark rest = none := by
    rw [Option.eq_none_iff_forall_not_mem]
    intro tail ht
    refine h (List.IsInfix.trans ⟨[], tail, ?_⟩ hr.isInfix)
    rw [after?_eq_some_iff.1 ht, List.nil_append]
  unfold comment
  rw [hmark, ha]
  rfl

private theorem elementSpace_eq_none_of_notMem {before cs : List Char} (h : '\n' ∉ cs) :
    elementSpace before cs = none := by
  unfold elementSpace
  exact if_neg fun hc => h ((List.takeWhile_prefix _).subset hc.2.1)

theorem apply_removeInterElementWhitespace_eq_self {cs : List Char} (h : '\n' ∉ cs) :
    Pass.removeInterElementWhitespace.apply cs = cs :=
  replaceAll_eq_self fun _ _ hr => elementSpace_eq_none_of_notMem fun hm => h (hr.subset hm)

end BoardMarkup.Style
