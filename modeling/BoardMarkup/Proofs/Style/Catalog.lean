import BoardMarkup.Style.Bitfield
import Mathlib.Data.List.Nodup

/-! Facts about the catalog of directives as a whole. -/
namespace BoardMarkup.Style

theorem catalog_names : catalog.map (·.name) =
    ["attachment", "b", "code", "color", "email", "flash", "i", "img", "list", "li", "quote", "size",
      "u", "url"] := rfl

theorem nodup_catalog_names : (catalog.map (·.name)).Nodup := by
  rw [catalog_names]
  decide

theorem pairwise_catalog_names : catalog.Pairwise (·.name ≠ ·.name) :=
  List.pairwise_map.1 nodup_catalog_names

theorem find?_eq_some_iff {name : String} {d : Directive} :
    Directive.find? name = some d ↔ d ∈ catalog ∧ d.name = name := by
  constructor
  · intro h
    exact ⟨List.mem_of_find?_eq_some h, by simpa using List.find?_some h⟩
  · rintro ⟨hd, rfl⟩
    obtain ⟨e, he⟩ := Option.isSome_iff_exists.1
      (List.find?_isSome (p := fun c : Directive => c.name == d.name).2 ⟨d, hd, beq_self_eq_true _⟩)
    have hname : e.name = d.name := by simpa using List.find?_some he
    have hed : e = d :=
      List.inj_on_of_nodup_map nodup_catalog_names (List.mem_of_find?_eq_some he) hd hname
    rw [Directive.find?, he, hed]

theorem catalog_activations : catalog.map (fun d => (d.name, d.activation)) =
    [("attachment", .bit 12), ("b", .bit 1), ("code", .bit 8), ("color", .bit 6), ("email", .bit 10),
      ("flash", .bit 11), ("i", .bit 2), ("img", .bit 4), ("list", .bit 9), ("li", .follows "list"),
      ("quote", .bit 0), ("size", .bit 5), ("u", .bit 7), ("url", .bit 3)] := rfl

theorem nodup_catalog_activations : (catalog.map (·.activation)).Nodup := by
  have h : catalog.map (·.activation) = (catalog.map fun d => (d.name, d.activation)).map (·.2) := by
    rw [List.map_map]
    rfl
  rw [h, catalog_activations]
  decide

def Activation.bit? : Activation → Option Nat
  | .bit n => some n
  | .follows _ => none

theorem Activation.bit?_eq_some_iff {a : Activation} {n : Nat} : a.bit? = some n ↔ a = .bit n := by
  cases a <;> simp [Activation.bit?]

theorem activation_cases {d : Directive} (h : d ∈ catalog) :
    (∃ n, d.activation = .bit n) ∧ d.name ≠ "li" ∨ d.activation = .follows "list" ∧ d.name = "li" := by
  have hm : (d.name, d.activation) ∈ catalog.map fun d => (d.name, d.activation) :=
    List.mem_map_of_mem h
  have hall : ∀ p ∈ catalog.map fun d => (d.name, d.activation),
      p.2.bit?.isSome ∧ p.1 ≠ "li" ∨ p.2 = .follows "list" ∧ p.1 = "li" := by
    rw [catalog_activations]
    decide
  refine (hall _ hm).imp_left fun ⟨hb, hne⟩ => ⟨?_, hne⟩
  obtain ⟨n, hn⟩ := Option.isSome_iff_exists.1 hb
  exact ⟨n, Activation.bit?_eq_some_iff.1 hn⟩

theorem isActive_li (f : Bitfield) : f.isActive "li" = f.isActive "list" := rfl

end BoardMarkup.Style
