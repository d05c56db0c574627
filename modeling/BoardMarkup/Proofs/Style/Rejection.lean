import BoardMarkup.Proofs.Style.Selection

/-! The overrides that a check refuses: which are reported, with which errors, and in which order. -/
namespace BoardMarkup.Style

section Latest

variable {sources : List Source} {s : Source}

theorem mem_latest_iff_append : s ∈ latest sources ↔
    ∃ earlier later, sources = earlier ++ s :: later ∧ ∀ t ∈ later, t.id ≠ s.id := by
  constructor
  · intro h
    rw [mem_latest_iff, List.find?_eq_some_iff_append] at h
    obtain ⟨-, later, earlier, hr, hlater⟩ := h
    rw [List.reverse_eq_iff, List.reverse_append, List.reverse_cons, List.append_assoc] at hr
    refine ⟨earlier.reverse, later.reverse, hr, fun t ht => ?_⟩
    simpa using hlater t (List.mem_reverse.1 ht)
  · rintro ⟨earlier, later, rfl, hlater⟩
    exact mem_latest_of_append hlater

theorem pairwise_latest (sources : List Source) : (latest sources).Pairwise fun s t =>
    (sources.map (·.id)).idxOf s.id < (sources.map (·.id)).idxOf t.id := by
  have hids := pairwise_eraseDups (sources.map (·.id))
  rw [← latest_ids, List.pairwise_map] at hids
  exact hids

end Latest

theorem pairwise_catalog : catalog.Pairwise fun c d => catalog.idxOf c < catalog.idxOf d :=
  pairwise_idxOf nodup_catalog_names.of_map

variable {ε : Type}

def Source.Refused (m : MarkerSyntax) (n : Normalizer) (check : Directive → String → Except ε Unit)
    (s : Source) (d : Directive) (e : ε) : Prop :=
  s.bitfield.isActive d.name = true ∧
    ∃ t, (m.fragments s.document).recompose.get? d.name = some t ∧ check d (n.normalize t) = .error e

/-- Where the style of a rejection first appears, and where the catalog has its directive. -/
def Rejection.place (sources : List Source) (r : Rejection ε) : Nat × Nat :=
  ((sources.map (·.id)).idxOf r.style, catalog.idxOf r.directive)

section Rejected

variable {m : MarkerSyntax} {n : Normalizer} {check : Directive → String → Except ε Unit}
  {sources : List Source} {s : Source} {d : Directive} {r : Rejection ε}

theorem rejection?_eq_some_iff (hd : d ∈ catalog) : (s.extract m).rejection? n check d = some r ↔
    r.style = s.id ∧ r.directive = d ∧ s.Refused m n check d r.error := by
  obtain ⟨style, directive, error⟩ := r
  rw [Source.Refused, get?_recompose _ hd]
  unfold Extracted.rejection? Extracted.override? Source.extract
  by_cases hactive : s.bitfield.isActive d.name = true
  · cases ht : (m.fragments s.document).template? d with
    | none => simp [hactive]
    | some t =>
      cases hc : check d (n.normalize t) with
      | ok _ => simp [hactive, hc]
      | error e =>
        simp only [hactive, if_true, Option.map_some, hc, Option.some.injEq, Rejection.mk.injEq, true_and,
          exists_eq_left', Except.error.injEq, eq_comm]
  · simp [hactive]

theorem mem_rejected_iff : r ∈ (resolve m n check sources).2 ↔ r.directive ∈ catalog ∧
    ∃ s ∈ latest sources, r.style = s.id ∧ s.Refused m n check r.directive r.error := by
  simp only [resolve, List.mem_flatMap, List.mem_map, List.mem_filterMap]
  constructor
  · rintro ⟨-, ⟨s, hs, rfl⟩, d, hd, hr⟩
    obtain ⟨hstyle, rfl, hrefused⟩ := (rejection?_eq_some_iff hd).1 hr
    exact ⟨hd, s, hs, hstyle, hrefused⟩
  · rintro ⟨hd, s, hs, hstyle, hrefused⟩
    exact ⟨s.extract m, ⟨s, hs, rfl⟩, r.directive, hd,
      (rejection?_eq_some_iff hd).2 ⟨hstyle, rfl, hrefused⟩⟩

private theorem pairwise_rejected (m : MarkerSyntax) (n : Normalizer)
    (check : Directive → String → Except ε Unit) (sources : List Source) :
    (resolve m n check sources).2.Pairwise fun r q =>
      Prod.Lex (· < ·) (· < ·) (r.place sources) (q.place sources) := by
  simp only [resolve]
  rw [List.flatMap_map, List.pairwise_flatMap]
  constructor
  · intro s hs
    -- the rejections of one style are in the order of the catalog
    rw [List.pairwise_filterMap]
    refine List.Pairwise.imp_of_mem ?_ pairwise_catalog
    intro c d hc hd hlt r hr q hq
    obtain ⟨hrs, hrd, -⟩ := (rejection?_eq_some_iff hc).1 hr
    obtain ⟨hqs, hqd, -⟩ := (rejection?_eq_some_iff hd).1 hq
    rw [Rejection.place, Rejection.place, hrs, hqs, hrd, hqd]
    exact Prod.Lex.right _ hlt
  · apply (pairwise_latest sources).imp
    intro s t hlt r hr q hq
    obtain ⟨c, hc, hr⟩ := List.mem_filterMap.1 hr
    obtain ⟨d, hd, hq⟩ := List.mem_filterMap.1 hq
    have hrs := ((rejection?_eq_some_iff hc).1 hr).1
    have hqs := ((rejection?_eq_some_iff hd).1 hq).1
    rw [Rejection.place, Rejection.place, hrs, hqs]
    exact Prod.Lex.left _ _ hlt

end Rejected

/--
An override is reported just when the check refuses it and it counts otherwise: its directive is in the
catalog, and it is that of the last source with its style's number. None is reported twice, and all are
reported in the order in which the styles first appear, those of one style in the order of the catalog.
-/
theorem resolve_reports_rejections (m : MarkerSyntax) (n : Normalizer)
    (check : Directive → String → Except ε Unit) (sources : List Source) :
    (∀ id d e, ⟨id, d, e⟩ ∈ (resolve m n check sources).2 ↔ d ∈ catalog ∧
      ∃ earlier s later, sources = earlier ++ s :: later ∧ s.id = id ∧ (∀ t ∈ later, t.id ≠ id) ∧
        s.Refused m n check d e) ∧
    ((resolve m n check sources).2.map fun r => (r.style, r.directive)).Nodup ∧
    (resolve m n check sources).2.Pairwise fun r q =>
      Prod.Lex (· < ·) (· < ·) (r.place sources) (q.place sources) := by
  have horder := pairwise_rejected m n check sources
  refine ⟨fun id d e => ?_, ?_, horder⟩
  · rw [mem_rejected_iff]
    refine and_congr_right fun _ => ⟨?_, ?_⟩
    · rintro ⟨s, hs, rfl, hrefused⟩
      obtain ⟨earlier, later, hsplit, hlater⟩ := mem_latest_iff_append.1 hs
      exact ⟨earlier, s, later, hsplit, rfl, hlater, hrefused⟩
    · rintro ⟨earlier, s, later, hsplit, rfl, hlater, hrefused⟩
      exact ⟨s, mem_latest_iff_append.2 ⟨earlier, later, hsplit, hlater⟩, rfl, hrefused⟩
  · rw [List.Nodup, List.pairwise_map]
    apply horder.imp
    intro r q hlt he
    have hplace : r.place sources = q.place sources := by
      obtain ⟨hstyle, hdirective⟩ := Prod.mk.inj he
      rw [Rejection.place, Rejection.place, hstyle, hdirective]
    rw [hplace, Prod.lex_def] at hlt
    omega

end BoardMarkup.Style
