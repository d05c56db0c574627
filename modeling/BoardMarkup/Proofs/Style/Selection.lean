import BoardMarkup.Proofs.Appearance
import BoardMarkup.Proofs.Style.Condition
import BoardMarkup.Proofs.Style.Catalog
import BoardMarkup.Proofs.Table
import BoardMarkup.Proofs.Text.Find
import BoardMarkup.Style.Resolve
import Mathlib.Data.List.Nodup

/-! The template that a style gets: its own override where that counts, otherwise the directive's. -/
namespace BoardMarkup.Style

open Text

namespace Switch

def templates (s : Switch) : List String := s.branches.map (·.2) ++ [s.otherwise]

section Variants

variable {templates : List (StyleId × String)}

theorem mem_variant_iff {b : List StyleId × String} (hb : b ∈ variants templates) {id : StyleId} :
    id ∈ b.1 ↔ (id, b.2) ∈ templates := by
  obtain ⟨t, -, rfl⟩ := List.mem_map.1 hb
  constructor
  · intro hid
    obtain ⟨⟨id, t⟩, hm, rfl⟩ := List.mem_map.1 hid
    obtain ⟨hm, ht⟩ := List.mem_filter.1 hm
    rwa [← eq_of_beq ht]
  · intro hm
    exact List.mem_map.2 ⟨(id, t), List.mem_filter.2 ⟨hm, beq_self_eq_true t⟩, rfl⟩

theorem exists_variant {id : StyleId} {t : String} (h : (id, t) ∈ templates) :
    ∃ ids, (ids, t) ∈ variants templates :=
  ⟨_, List.mem_map.2 ⟨t, List.mem_eraseDups.2 (List.mem_map.2 ⟨_, h, rfl⟩), rfl⟩⟩

theorem mem_ranked_iff {b : List StyleId × String} :
    b ∈ ranked templates ↔ b ∈ variants templates :=
  (List.mergeSort_perm _ _).mem_iff

theorem ofTemplates?_eq_some_iff {w : Switch} :
    ofTemplates? templates = some w ↔ ∃ ids, ranked templates = (ids, w.otherwise) :: w.branches := by
  obtain ⟨branches, otherwise⟩ := w
  unfold ofTemplates?
  cases ranked templates with
  | nil => simp
  | cons most rest =>
    constructor
    · intro h
      cases h
      exact ⟨most.1, rfl⟩
    · rintro ⟨ids, h⟩
      cases h
      rfl

theorem ofTemplates?_eq_none_iff : ofTemplates? templates = none ↔ templates = [] := by
  unfold ofTemplates?
  constructor
  · intro h
    cases hr : ranked templates with
    | nil =>
      rw [List.eq_nil_iff_forall_not_mem]
      rintro ⟨id, t⟩ hm
      obtain ⟨ids, hv⟩ := exists_variant hm
      rw [← mem_ranked_iff, hr] at hv
      cases hv
    | cons most rest => simp [hr] at h
  · rintro rfl
    simp [ranked, variants]

/-- Where no style occurs twice, each style gets its own template. -/
theorem select_ofTemplates? (hd : (templates.map (·.1)).Nodup) {w : Switch}
    (hw : ofTemplates? templates = some w) {id : StyleId} {t : String} (h : (id, t) ∈ templates) :
    w.select id = t := by
  obtain ⟨ids, hr⟩ := ofTemplates?_eq_some_iff.1 hw
  have hown : ∀ b ∈ ranked templates, id ∈ b.1 → b.2 = t := by
    intro b hb hid
    have hm := (mem_variant_iff (mem_ranked_iff.1 hb)).1 hid
    exact congrArg Prod.snd (List.inj_on_of_nodup_map hd hm h rfl)
  unfold select
  cases hf : w.branches.find? fun b => id ∈ b.1 with
  | some b =>
    refine hown b ?_ (by simpa using List.find?_some hf)
    rw [hr]
    exact .tail _ (List.mem_of_find?_eq_some hf)
  | none =>
    obtain ⟨own, hv⟩ := exists_variant h
    have hid : id ∈ own := (mem_variant_iff hv).2 h
    rw [← mem_ranked_iff, hr, List.mem_cons] at hv
    rcases hv with hv | hv
    · exact (congrArg Prod.snd hv).symm
    · exact absurd hid (by simpa using List.find?_eq_none.1 hf _ hv)

theorem exists_of_mem_templates {w : Switch} (hw : ofTemplates? templates = some w) {t : String}
    (ht : t ∈ w.templates) : ∃ id, (id, t) ∈ templates := by
  obtain ⟨ids, hr⟩ := ofTemplates?_eq_some_iff.1 hw
  have hv : ∃ b ∈ variants templates, b.2 = t := by
    simp only [← mem_ranked_iff, hr]
    rw [Switch.templates, List.mem_append, List.mem_map, List.mem_singleton] at ht
    rcases ht with ⟨b, hb, rfl⟩ | rfl
    · exact ⟨b, .tail _ hb, rfl⟩
    · exact ⟨_, List.mem_cons_self, rfl⟩
  obtain ⟨b, hb, rfl⟩ := hv
  obtain ⟨u, hu, rfl⟩ := List.mem_map.1 hb
  obtain ⟨⟨id, u⟩, hm, rfl⟩ := List.mem_map.1 (List.mem_eraseDups.1 hu)
  exact ⟨id, hm⟩

end Variants

/-- What the written switch shows to a style: the first template whose condition holds for it. -/
def evaluate (s : Switch) (id : StyleId) : String :=
  match s.branches.find? fun b => holdsFor id (condition b.1) with
  | some b => b.2
  | none => s.otherwise

theorem evaluate_mem_templates (s : Switch) (id : StyleId) : s.evaluate id ∈ s.templates := by
  rw [evaluate, templates]
  split
  · next b hb => exact List.mem_append_left _ (List.mem_map_of_mem (List.mem_of_find?_eq_some hb))
  · exact List.mem_append_right _ List.mem_cons_self

theorem evaluate_eq_select (s : Switch) (id : StyleId) : s.evaluate id = s.select id := by
  have hconditions : (fun b : List StyleId × String => holdsFor id (condition b.1)) =
      fun b => decide (id ∈ b.1) := by
    funext b
    rw [holdsFor_condition, List.contains_eq_mem]
  cases hb : s.branches.find? fun b => decide (id ∈ b.1) <;>
    simp only [evaluate, select, hconditions, hb]

end Switch

section Latest

theorem id_of_find?_reverse {sources : List Source} {id : StyleId} {s : Source}
    (h : sources.reverse.find? (·.id == id) = some s) : s.id = id :=
  by simpa using List.find?_some h

/-- Of the sources with one number the last is kept. -/
theorem mem_latest_iff {sources : List Source} {s : Source} :
    s ∈ latest sources ↔ sources.reverse.find? (·.id == s.id) = some s := by
  rw [latest, List.mem_filterMap]
  constructor
  · rintro ⟨id, -, h⟩
    rwa [id_of_find?_reverse h]
  · intro h
    refine ⟨s.id, List.mem_eraseDups.2 (List.mem_map.2 ⟨s, ?_, rfl⟩), h⟩
    exact List.mem_reverse.1 (List.mem_of_find?_eq_some h)

theorem latest_ids (sources : List Source) :
    (latest sources).map (·.id) = (sources.map (·.id)).eraseDups := by
  rw [latest, List.map_filterMap]
  have hid : ∀ id ∈ (sources.map (·.id)).eraseDups,
      (sources.reverse.find? (·.id == id)).map (·.id) = some id := by
    intro id hm
    obtain ⟨s, hs, hsid⟩ := List.mem_map.1 (List.mem_eraseDups.1 hm)
    cases hf : sources.reverse.find? (·.id == id) with
    | some t => rw [Option.map_some, id_of_find?_reverse hf]
    | none => exact absurd (by simpa using hsid) (List.find?_eq_none.1 hf s (List.mem_reverse.2 hs))
  rw [List.filterMap_congr hid, List.filterMap_some]

theorem nodup_latest_ids (sources : List Source) : ((latest sources).map (·.id)).Nodup := by
  rw [latest_ids]
  exact nodup_eraseDups _

theorem mem_latest_of_append {earlier later : List Source} {s : Source}
    (h : ∀ t ∈ later, t.id ≠ s.id) : s ∈ latest (earlier ++ s :: later) := by
  rw [mem_latest_iff, List.reverse_append, List.reverse_cons, List.append_assoc, List.find?_append,
    List.find?_eq_none.2 (by simpa using h)]
  simp

end Latest

/-- A style has its own templates under the names of directives, and no others. -/
theorem get?_recompose_eq_some_iff {fs : Fragments} {name t : String} : fs.recompose.get? name = some t ↔
    ∃ d ∈ catalog, d.name = name ∧ fs.template? d = some t := by
  have hkeys : (catalog.filterMap fun d => (fs.template? d).map fun t => (d.name, t)).Pairwise
      (·.1 ≠ ·.1) := by
    rw [List.pairwise_filterMap]
    refine pairwise_catalog_names.imp fun {c d} hne e he f hf => ?_
    obtain ⟨_, -, rfl⟩ := Option.map_eq_some_iff.1 he
    obtain ⟨_, -, rfl⟩ := Option.map_eq_some_iff.1 hf
    exact hne
  rw [Fragments.recompose, Table.get?_ofList_eq_some_iff hkeys, List.mem_filterMap]
  constructor
  · rintro ⟨d, hd, he⟩
    obtain ⟨u, hu, he⟩ := Option.map_eq_some_iff.1 he
    obtain ⟨hname, rfl⟩ := Prod.mk.inj he
    exact ⟨d, hd, hname, hu⟩
  · rintro ⟨d, hd, rfl, ht⟩
    exact ⟨d, hd, by rw [ht, Option.map_some]⟩

/-- What a style's fragments make of a directive is found under the directive's name. -/
theorem get?_recompose (fs : Fragments) {d : Directive} (h : d ∈ catalog) :
    fs.recompose.get? d.name = fs.template? d := by
  refine Option.ext fun t => ?_
  rw [get?_recompose_eq_some_iff]
  constructor
  · rintro ⟨c, hc, hname, ht⟩
    rwa [← List.inj_on_of_nodup_map nodup_catalog_names hc h hname]
  · intro ht
    exact ⟨d, h, rfl, ht⟩

/-- A fragment of a directive's own name is its template, where its tokens have no other names. -/
theorem get?_recompose_of_get? {fs : Fragments} {d : Directive} (h : d ∈ catalog)
    (ha : d.aliases = []) {t : String} (ht : fs.get? d.name = some t) :
    fs.recompose.get? d.name = some t := by
  have hself : (Replacements.ofList []).apply t = t := by
    have hr : replaceAll (Replacements.ofList []).finder String.toList t.toList = t.toList :=
      replaceAll_eq_self fun _ _ _ => rfl
    rw [Replacements.apply, hr, String.ofList_toList]
  rw [get?_recompose fs h, Fragments.template?, Fragments.layOut?, ht, ha, Option.some_or,
    Option.some_or, Option.map_some, hself]

variable {ε : Type}

/-- The switch between the templates that the styles use for a directive. -/
def switchFor (m : MarkerSyntax) (n : Normalizer) (check : Directive → String → Except ε Unit)
    (sources : List Source) (d : Directive) : Switch :=
  (Switch.ofTemplates? (((latest sources).map (·.extract m)).map fun s =>
    (s.id, s.choose n check d))).getD ⟨[], d.fallback n⟩

/--
What a style shows for a directive: the template its document makes of it, where its bitfield
activates the directive and the check accepts the template, otherwise the directive's own.
-/
def Source.shown (m : MarkerSyntax) (n : Normalizer) (check : Directive → String → Except ε Unit)
    (s : Source) (d : Directive) : String :=
  match (m.fragments s.document).recompose.get? d.name with
  | some t =>
    if s.bitfield.isActive d.name ∧ (check d (n.normalize t)).isOk then n.normalize t
    else n.normalize d.template
  | none => n.normalize d.template

theorem choose_extract (m : MarkerSyntax) (n : Normalizer)
    (check : Directive → String → Except ε Unit) (s : Source) {d : Directive} (h : d ∈ catalog) :
    (s.extract m).choose n check d = s.shown m n check d := by
  rw [Source.shown, get?_recompose _ h]
  simp only [Extracted.choose, Extracted.override?, Source.extract, Directive.fallback]
  by_cases hb : s.bitfield.isActive d.name <;>
    cases (m.fragments s.document).template? d <;> simp [hb]

theorem resolve_eq (m : MarkerSyntax) (n : Normalizer) (check : Directive → String → Except ε Unit)
    (sources : List Source) :
    (resolve m n check sources).1 =
      catalog.map fun d => ⟨d, (switchFor m n check sources d).render⟩ := by
  refine List.map_congr_left fun d _ => ?_
  rw [merge?, switchFor]
  cases Switch.ofTemplates? _ <;> rfl

private theorem mem_choices (m : MarkerSyntax) (n : Normalizer) (check : Directive → String → Except ε Unit)
    {sources : List Source} {s : Source} (h : s ∈ latest sources) (d : Directive) :
    (s.id, (s.extract m).choose n check d) ∈
      ((latest sources).map (·.extract m)).map fun s => (s.id, s.choose n check d) :=
  List.mem_map.2 ⟨s.extract m, List.mem_map.2 ⟨s, h, rfl⟩, rfl⟩

/-- The switch for a directive shows to each style its own template, that of its last source. -/
theorem evaluate_switchFor {m : MarkerSyntax} {n : Normalizer}
    {check : Directive → String → Except ε Unit} {sources : List Source} {d : Directive}
    (hd : d ∈ catalog) {s : Source} (hs : s ∈ latest sources) :
    (switchFor m n check sources d).evaluate s.id = s.shown m n check d := by
  have hm := mem_choices m n check hs d
  rw [Switch.evaluate_eq_select, ← choose_extract m n check s hd, switchFor]
  cases hw : Switch.ofTemplates? (((latest sources).map (·.extract m)).map fun s =>
      (s.id, s.choose n check d)) with
  | none =>
    rw [Switch.ofTemplates?_eq_none_iff.1 hw] at hm
    cases hm
  | some w =>
    refine Switch.select_ofTemplates? ?_ hw hm
    rw [List.map_map, List.map_map]
    exact nodup_latest_ids _

/--
A switch for a directive holds the templates that styles use for it; without styles the directive's own.
-/
theorem mem_templates_switchFor {m : MarkerSyntax} {n : Normalizer}
    {check : Directive → String → Except ε Unit} {sources : List Source} {d : Directive} {t : String}
    (ht : t ∈ (switchFor m n check sources d).templates) :
    t = d.fallback n ∨ ∃ s ∈ latest sources, t = (s.extract m).choose n check d := by
  unfold switchFor at ht
  cases hw : Switch.ofTemplates? (((latest sources).map (·.extract m)).map fun s =>
      (s.id, s.choose n check d)) with
  | none =>
    rw [hw] at ht
    simp only [Option.getD_none, Switch.templates, List.map_nil, List.nil_append,
      List.mem_singleton] at ht
    exact .inl ht
  | some w =>
    rw [hw] at ht
    obtain ⟨id, hm⟩ := Switch.exists_of_mem_templates hw ht
    obtain ⟨e, he, hpair⟩ := List.mem_map.1 hm
    obtain ⟨s, hs, rfl⟩ := List.mem_map.1 he
    exact .inr ⟨s, hs, (Prod.mk.inj hpair).2.symm⟩

theorem isOk_of_mem_templates {m : MarkerSyntax} {n : Normalizer}
    {check : Directive → String → Except ε Unit} {sources : List Source} {d : Directive}
    (hd : (check d (d.fallback n)).isOk) {t : String}
    (ht : t ∈ (switchFor m n check sources d).templates) : (check d t).isOk := by
  rcases mem_templates_switchFor ht with rfl | ⟨s, -, rfl⟩
  · exact hd
  · unfold Extracted.choose
    split
    · split
      · assumption
      · exact hd
    · exact hd

end BoardMarkup.Style
