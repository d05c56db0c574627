import BoardMarkup.Proofs.Table
import BoardMarkup.Proofs.Text.Mark
import BoardMarkup.Style.Fragment
import Mathlib.Tactic.MkIffOfInductiveProp

/-! Documents are read as they were written: what stands in a fragment is found under its name. -/
namespace BoardMarkup.Style

open Text

/-- A part of a document: text outside of fragments, and the fragment behind it. -/
structure Passage where
  filler : String
  name : String
  body : String
  label : String

namespace MarkerSyntax

variable {m : MarkerSyntax} {p : Passage}

def writePassage (m : MarkerSyntax) (p : Passage) : String :=
  p.filler ++ m.opening ++ p.name ++ m.suffix ++ p.body ++ m.closing ++ p.label ++ m.suffix

def write (m : MarkerSyntax) (ps : List Passage) (last : String) : String :=
  String.join (ps.map m.writePassage) ++ last

/-- Every text of a passage reaches up to the first mark of the kind that ends it. -/
@[mk_iff]
structure Separates (m : MarkerSyntax) (p : Passage) : Prop where
  filler : FirstAtEnd m.opening.toList p.filler.toList
  name : FirstAtEnd m.suffix.toList p.name.toList
  body : FirstAtEnd m.closing.toList p.body.toList
  label : FirstAtEnd m.suffix.toList p.label.toList

instance (m : MarkerSyntax) (p : Passage) : Decidable (m.Separates p) :=
  decidable_of_iff' _ (m.separates_iff p)

theorem Separates.next?_write (h : m.Separates p) (rest : List Char) :
    m.next? ((m.writePassage p).toList ++ rest) = some ((p.name.toList, p.body.toList), rest) := by
  have hlabel : cut? m.suffix.toList (p.label.toList ++ m.suffix.toList ++ rest) =
      some (p.label.toList, rest) := h.label.cut? rest
  have hbody := h.body.cut? (p.label.toList ++ m.suffix.toList ++ rest)
  have hname := h.name.cut? (p.body.toList ++ m.closing.toList ++ (p.label.toList ++ m.suffix.toList ++ rest))
  have hfiller := h.filler.cut? (p.name.toList ++ m.suffix.toList ++
    (p.body.toList ++ m.closing.toList ++ (p.label.toList ++ m.suffix.toList ++ rest)))
  unfold writePassage next?
  simp only [String.toList_append, List.append_assoc] at hlabel hbody hname hfiller ⊢
  simp only [hfiller, hname, hbody, hlabel, Option.bind_eq_bind, Option.bind_some]
  rfl

theorem next?_eq_none {cs : List Char} (h : ¬ m.opening.toList <:+: cs) : m.next? cs = none := by
  rw [next?, cut?_eq_none_iff.2 h]
  rfl

private theorem fragmentList_of_none {cs : List Char} (h : m.next? cs = none) : m.fragmentList cs = [] := by
  rw [fragmentList, h]

private theorem fragmentList_of_some {cs rest : List Char} {f : List Char × List Char}
    (h : m.next? cs = some (f, rest)) (hlt : rest.length < cs.length) :
    m.fragmentList cs = f :: m.fragmentList rest := by
  rw [fragmentList, h]
  exact if_pos hlt

/-- The fragments of a document that was written are those of its passages, in order. -/
theorem fragmentList_write {ps : List Passage} (h : ∀ p ∈ ps, m.Separates p) {last : String}
    (hlast : ¬ m.opening.toList <:+: last.toList) :
    m.fragmentList (m.write ps last).toList = ps.map fun p => (p.name.toList, p.body.toList) := by
  induction ps with
  | nil =>
    have hnone : m.next? (m.write [] last).toList = none := by
      refine next?_eq_none ?_
      rwa [write, List.map_nil, String.join_nil, String.empty_append]
    rw [fragmentList_of_none hnone, List.map_nil]
  | cons p ps ih =>
    have hopening : 0 < m.opening.toList.length := by
      refine List.length_pos_iff.2 fun he => hlast ?_
      rw [he]
      exact List.nil_infix
    have hwrite :
        (m.write (p :: ps) last).toList = (m.writePassage p).toList ++ (m.write ps last).toList := by
      rw [write, write, List.map_cons, String.join_cons, String.append_assoc, String.toList_append]
    have hnext := (h p List.mem_cons_self).next?_write (m.write ps last).toList
    have hlt : (m.write ps last).toList.length <
        ((m.writePassage p).toList ++ (m.write ps last).toList).length := by
      rw [writePassage]
      simp only [String.toList_append, List.length_append]
      omega
    rw [hwrite, fragmentList_of_some hnext hlt, ih fun q hq => h q (List.mem_cons_of_mem _ hq),
      List.map_cons]

/-- So its fragments are the normalized bodies, each under its name. -/
theorem fragments_write {ps : List Passage} (h : ∀ p ∈ ps, m.Separates p) {last : String}
    (hlast : ¬ m.opening.toList <:+: last.toList) :
    m.fragments (m.write ps last) = .ofList (ps.map fun p => (p.name, normalizeFragment p.body)) := by
  rw [fragments, fragmentList_write h hlast, List.map_map]
  simp only [Function.comp_def, String.ofList_toList]

/-- The usual markers end every text that does not hold them. -/
theorem separates_usual_iff : ({} : MarkerSyntax).Separates p ↔
    ¬ "<!-- BEGIN ".toList <:+: p.filler.toList ∧ ¬ " -->".toList <:+: p.name.toList ∧
      ¬ "<!-- END ".toList <:+: p.body.toList ∧ ¬ " -->".toList <:+: p.label.toList := by
  have hopening : "<!-- BEGIN ".toList = ['<', '!', '-', '-', ' ', 'B', 'E', 'G', 'I', 'N', ' '] :=
    String.toList_ofList
  have hclosing : "<!-- END ".toList = ['<', '!', '-', '-', ' ', 'E', 'N', 'D', ' '] :=
    String.toList_ofList
  have hsuffix : " -->".toList = [' ', '-', '-', '>'] := String.toList_ofList
  rw [separates_iff, hopening, hclosing, hsuffix, firstAtEnd_iff_notInfix (by decide),
    firstAtEnd_iff_notInfix (by decide), firstAtEnd_iff_notInfix (by decide),
    firstAtEnd_iff_notInfix (by decide)]

end MarkerSyntax

/--
A document is read as it was written, whatever its markers are and whatever stands behind the closing
ones: a name has the normalized body of its last fragment, and there are no other names. With the
usual markers it is enough that no text holds the mark which ends it.
-/
theorem fragments_of_written :
    (∀ (m : MarkerSyntax) (ps : List Passage) (last : String), (∀ p ∈ ps, m.Separates p) →
      ¬ m.opening.toList <:+: last.toList →
        (∀ earlier p later, ps = earlier ++ p :: later → (∀ q ∈ later, q.name ≠ p.name) →
          (m.fragments (m.write ps last)).get? p.name = some (normalizeFragment p.body)) ∧
        ∀ k, (∀ p ∈ ps, p.name ≠ k) → (m.fragments (m.write ps last)).get? k = none) ∧
    ∀ p : Passage, ({} : MarkerSyntax).Separates p ↔
      ¬ "<!-- BEGIN ".toList <:+: p.filler.toList ∧ ¬ " -->".toList <:+: p.name.toList ∧
        ¬ "<!-- END ".toList <:+: p.body.toList ∧ ¬ " -->".toList <:+: p.label.toList := by
  refine ⟨fun m ps last h hlast => ?_, fun p => MarkerSyntax.separates_usual_iff⟩
  rw [MarkerSyntax.fragments_write h hlast]
  constructor
  · rintro earlier p later rfl hlater
    rw [List.map_append, List.map_cons]
    exact Table.get?_ofList_append _ (List.forall_mem_map.2 hlater)
  · intro k hk
    exact Table.get?_ofList_eq_none (List.forall_mem_map.2 hk)

def doubledMarkers : MarkerSyntax := ⟨"((", "))", "|"⟩

def doubledPassages : List Passage :=
  [⟨"a", "n", "x)y", "q"⟩, ⟨"b", "n", "u", ""⟩, ⟨"", "k", "v", "("⟩]

theorem separates_doubledPassages : ∀ p ∈ doubledPassages, doubledMarkers.Separates p := by
  decide

/-- Of two fragments with one name the last one is found, in `a((n|x)y))q|b((n|u))|((k|v))(|c`. -/
theorem fragments_of_doubledMarkers : (∀ p ∈ doubledPassages, doubledMarkers.Separates p) ∧
    ¬ doubledMarkers.opening.toList <:+: "c".toList ∧
    (doubledMarkers.fragments (doubledMarkers.write doubledPassages "c")).get? "n" = some "u" ∧
    (doubledMarkers.fragments (doubledMarkers.write doubledPassages "c")).get? "q" = none := by
  have hlast : ¬ doubledMarkers.opening.toList <:+: "c".toList := by decide
  obtain ⟨hown, hother⟩ :=
    fragments_of_written.1 doubledMarkers doubledPassages "c" separates_doubledPassages hlast
  have hbody : normalizeFragment "u" = "u" := by decide +kernel
  refine ⟨separates_doubledPassages, hlast, ?_, hother "q" (by decide)⟩
  have hn := hown [⟨"a", "n", "x)y", "q"⟩] ⟨"b", "n", "u", ""⟩ [⟨"", "k", "v", "("⟩] rfl (by decide)
  rwa [hbody] at hn

end BoardMarkup.Style
