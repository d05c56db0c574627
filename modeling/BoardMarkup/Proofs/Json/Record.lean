import BoardMarkup.Json.Record
import BoardMarkup.Proofs.Json.Layout
import BoardMarkup.Proofs.Table

/-! Fields of records are read under the names by which they were written. -/
namespace BoardMarkup.Json

theorem mapM_eq_some {α β : Type} {f : α → Option β} {g : α → β} {as : List α}
    (h : ∀ a ∈ as, f a = some (g a)) : as.mapM f = some (as.map g) := by
  induction as with
  | nil => rfl
  | cons a as ih =>
    rw [List.mapM_cons, h a (by simp), ih fun b hb => h b (List.mem_cons_of_mem _ hb)]
    rfl

section Fields

variable {fs : List (String × Json)} {name : String}

def keyed (fs : List (String × Json)) : List (Option String × Json) := fs.map fun f => (some f.1, f.2)

private theorem filter_keyed (fs : List (String × Json)) (name : String) :
    (keyed fs).filter (·.1 == some name) = keyed (fs.filter (·.1 == name)) := by
  rw [keyed, keyed, List.filter_map]
  congr 1

private theorem filter_eq_singleton (hfs : fs.Pairwise (·.1 ≠ ·.1)) {v : Json} (h : (name, v) ∈ fs) :
    fs.filter (·.1 == name) = [(name, v)] := by
  induction fs with
  | nil => cases h
  | cons f fs ih =>
    obtain ⟨hf, hfs⟩ := List.pairwise_cons.1 hfs
    rcases List.mem_cons.1 h with rfl | h
    · rw [List.filter_cons_of_pos (by simp), List.filter_eq_nil_iff.2]
      exact fun g hg he => hf g hg (eq_of_beq he).symm
    · rw [List.filter_cons_of_neg (by simpa using hf _ h), ih hfs h]

private theorem field?_of_mem (hfs : fs.Pairwise (·.1 ≠ ·.1)) {v : Json} (h : (name, v) ∈ fs) :
    field? (keyed fs) name = some (.given v) := by
  rw [field?, filter_keyed, filter_eq_singleton hfs h]
  rfl

private theorem pairwise_of_names {names : List String} (hn : fs.map (·.1) = names) (hd : names.Nodup) :
    fs.Pairwise (·.1 ≠ ·.1) := by
  rw [← hn, List.Nodup, List.pairwise_map] at hd
  exact hd

theorem slots?_of_subset {es : List (String × Json)} (h : es ⊆ fs) {names wanted : List String}
    (hn : fs.map (·.1) = names) (hd : names.Nodup) (hw : es.map (·.1) = wanted) :
    slots? wanted (.record fs) = some (es.map fun e => .given e.2) := by
  have hkeys : (keyed fs).all (·.1.isSome) = true := by simp [keyed]
  rw [record, ← keyed, slots?, if_pos hkeys, ← hw, List.mapM_map]
  exact mapM_eq_some fun e he => field?_of_mem (pairwise_of_names hn hd) (h he)

theorem slots?_record {names : List String} (hn : fs.map (·.1) = names) (hd : names.Nodup) :
    slots? names (.record fs) = some (fs.map fun f => .given f.2) :=
  slots?_of_subset (List.Subset.refl fs) hn hd hn

end Fields

theorem asList?_map {α : Type} {f : Json → Option α} {g : α → Json} (h : ∀ a, f (g a) = some a)
    (as : List α) : asList? f (.list (as.map g)) = some as := by
  rw [asList?, List.mapM_map]
  exact (mapM_eq_some fun a _ => h a).trans (by rw [List.map_id'])

theorem optional?_ofOption {α : Type} {f : Json → Option α} {g : α → Json} (h : ∀ a, f (g a) = some a)
    (hnull : ∀ a, g a ≠ .null) (a : Option α) :
    (Slot.given (.ofOption g a)).optional? f = some a := by
  cases a with
  | none => rfl
  | some a =>
    rw [ofOption, Slot.optional?]
    · rw [h, Option.map_some]
    · exact hnull a

theorem asText?_text (s : String) : asText? (text s) = some s := rfl

theorem optional?_text (t : Option String) :
    (Slot.given (ofOption text t)).optional? asText? = some t :=
  optional?_ofOption asText?_text nofun t

theorem asFields?_record {α : Type} {f : Json → Option α} {g : α → Json} (h : ∀ a, f (g a) = some a)
    (es : List (String × α)) : asFields? f (.record (es.map fun e => (e.1, g e.2))) = some es := by
  rw [record, asFields?, List.map_map, List.mapM_map]
  refine (mapM_eq_some (g := id) fun e _ => ?_).trans (by rw [List.map_id])
  simp [h]

theorem asInt64?_int (n : Int64) : asInt64? (.int n.toInt) = some n := by
  rw [asInt64?, if_pos ⟨n.minValue_le_toInt, n.toInt_le⟩, Int64.ofInt_toInt]

end BoardMarkup.Json
