import BoardMarkup.Text.Pieces

/-! Simultaneous replacement of literal texts, the longest first. -/
namespace BoardMarkup.Text

/-- Pairs of a source and its target. Of several sources at one position the first pair decides. -/
structure Replacements where
  items : List (String × String) := []
  source_ne_empty : ∀ r ∈ items, r.1 ≠ "" := by simp
  descending : items.Pairwise (fun r s => s.1.utf8ByteSize ≤ r.1.utf8ByteSize) := by simp

namespace Replacements

def empty : Replacements := {}

instance : Inhabited Replacements := ⟨empty⟩

def insertItem (r : String × String) : List (String × String) → List (String × String)
  | [] => [r]
  | s :: rest =>
    if r.1.utf8ByteSize ≤ s.1.utf8ByteSize then s :: insertItem r rest else r :: s :: rest

theorem mem_insertItem {r s : String × String} {items : List (String × String)} :
    s ∈ insertItem r items ↔ s = r ∨ s ∈ items := by
  induction items with
  | nil => simp [insertItem]
  | cons t rest ih => grind [insertItem]

private theorem pairwise_insertItem {r : String × String} {items : List (String × String)}
    (h : items.Pairwise (fun r s => s.1.utf8ByteSize ≤ r.1.utf8ByteSize)) :
    (insertItem r items).Pairwise (fun r s => s.1.utf8ByteSize ≤ r.1.utf8ByteSize) := by
  induction items with
  | nil => simp [insertItem]
  | cons t rest ih =>
    obtain ⟨ht, hrest⟩ := List.pairwise_cons.1 h
    rw [insertItem]
    split
    · next hr =>
      refine List.pairwise_cons.2 ⟨fun s hs => ?_, ih hrest⟩
      rcases mem_insertItem.1 hs with rfl | hs
      · exact hr
      · exact ht s hs
    · next hr =>
      refine List.pairwise_cons.2 ⟨fun s hs => ?_, h⟩
      rcases List.mem_cons.1 hs with rfl | hs
      · omega
      · have := ht s hs
        omega

def add (rs : Replacements) (source target : String) : Replacements :=
  if h : source = "" then rs
  else {
    items := insertItem (source, target) rs.items
    source_ne_empty := fun r hr => by
      rcases mem_insertItem.1 hr with rfl | hr
      · exact h
      · exact rs.source_ne_empty r hr
    descending := pairwise_insertItem rs.descending }

def ofList (pairs : List (String × String)) : Replacements :=
  pairs.foldl (fun rs r => rs.add r.1 r.2) empty

def size (rs : Replacements) : Nat := rs.items.length

def isEmpty (rs : Replacements) : Bool := rs.items.isEmpty

def finder (rs : Replacements) : Finder String := fun _ cs =>
  (rs.items.find? fun r => (after? r.1.toList cs).isSome).map fun r => (r.2, r.1.length)

/-- Replaces from left to right. Targets are not searched again. -/
def apply (rs : Replacements) (s : String) : String :=
  String.ofList (replaceAll rs.finder String.toList s.toList)

end Replacements
end BoardMarkup.Text
