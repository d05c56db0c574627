import BoardMarkup.Board.Assembly
import BoardMarkup.Proofs.Table

/-! Definitions registered one after the other, each of them kept or reported. -/
namespace BoardMarkup

open BBCode

namespace Formatter

def register (f : Formatter) (u : Usage) (t : Template) : Formatter :=
  { f with bbcodes := f.bbcodes.insert u.name u, tags := f.tags.insert u.tagName t.source }

/-- Another formatter differs in its BBCodes and tags only. -/
def SameSettings (f g : Formatter) : Prop := ∃ bbcodes tags, g = { f with bbcodes, tags }

variable {f g : Formatter} {usage : String} {t : Template} {u : Usage}

theorem SameSettings.refl (f : Formatter) : f.SameSettings f := ⟨_, _, rfl⟩

theorem SameSettings.trans {h : Formatter} (hg : f.SameSettings g) (hh : g.SameSettings h) :
    f.SameSettings h := by
  obtain ⟨bbcodes, tags, rfl⟩ := hg
  obtain ⟨bbcodes', tags', rfl⟩ := hh
  exact ⟨bbcodes', tags', rfl⟩

theorem readUsage_eq_ok_iff : readUsage usage = .ok u ↔ Usage.parse? usage = .ok u := by
  unfold readUsage
  cases Usage.parse? usage <;> simp [Except.mapError]

theorem define_eq_ok_iff : f.define usage t = .ok (u, g) ↔
    readUsage usage = .ok u ∧ f.bbcodes.contains u.name = false ∧
      f.tags.contains u.tagName = false ∧ f.checkUsage u t = .ok () ∧ g = f.register u t := by
  unfold define
  cases readUsage usage with
  | error e => simp [bind, Except.bind]
  | ok w =>
    simp only [bind, Except.bind, Except.ok.injEq]
    by_cases htaken : f.bbcodes.contains w.name || f.tags.contains w.tagName
    · rw [if_pos htaken]
      simp only [reduceCtorEq, false_iff]
      rintro ⟨rfl, hname, htag, -⟩
      simp [hname, htag] at htaken
    · rw [if_neg htaken]
      simp only [Bool.or_eq_true, not_or, Bool.not_eq_true] at htaken
      cases hc : f.checkUsage w t with
      | error e =>
        simp only [reduceCtorEq, false_iff]
        rintro ⟨rfl, -, -, h, -⟩
        rw [hc] at h
        cases h
      | ok _ =>
        simp only [pure, Except.pure, Except.ok.injEq, Prod.mk.injEq]
        constructor
        · rintro ⟨rfl, rfl⟩
          exact ⟨rfl, htaken.1, htaken.2, hc, rfl⟩
        · rintro ⟨rfl, -, -, -, rfl⟩
          exact ⟨rfl, rfl⟩

theorem missingFilter?_eq_none_iff : f.missingFilter? u = none ↔
    ∀ n ∈ Filter.required u, Filter.available f.filters n := by
  simp [missingFilter?, List.find?_eq_none]

theorem checkUsage_eq_ok_iff : f.checkUsage u t = .ok () ↔
    f.missingFilter? u = none ∧ t.validate u = .ok () := by
  unfold checkUsage
  cases f.missingFilter? u <;> simp

theorem define_eq_error {e : DefinitionError} (hu : readUsage usage = .ok u)
    (hname : f.bbcodes.contains u.name = false) (htag : f.tags.contains u.tagName = false)
    (h : f.checkUsage u t = .error e) : f.define usage t = .error e := by
  simp [define, hu, hname, htag, h, bind, Except.bind]

theorem define_error_cases {e : DefinitionError} (h : f.define usage t = .error e) :
    (∃ fault, Usage.parse? usage = .error fault ∧ e = .invalidUsage usage fault) ∨
    ∃ u, readUsage usage = .ok u ∧
      ((f.bbcodes.contains u.name = true ∨ f.tags.contains u.tagName = true) ∧ e = .duplicate u.name ∨
        f.checkUsage u t = .error e) := by
  unfold define at h
  cases hu : Usage.parse? usage with
  | error fault =>
    simp only [readUsage, hu, Except.mapError, bind, Except.bind] at h
    exact .inl ⟨fault, rfl, (Except.error.inj h).symm⟩
  | ok u =>
    have hr := readUsage_eq_ok_iff.2 hu
    simp only [hr, bind, Except.bind] at h
    refine .inr ⟨u, hr, ?_⟩
    split at h
    · next htaken =>
      rw [Bool.or_eq_true] at htaken
      exact .inl ⟨htaken, (Except.error.inj h).symm⟩
    · cases hc : f.checkUsage u t with
      | ok _ => simp [hc, pure, Except.pure] at h
      | error reason =>
        simp only [hc, Except.error.injEq] at h
        exact .inr (by rw [h])

theorem checkUsage_congr (h : f.filters = g.filters) (u : Usage) (t : Template) :
    f.checkUsage u t = g.checkUsage u t := by
  simp only [checkUsage, missingFilter?, h]

end Formatter

namespace Board

namespace Assembly

variable {a b c : Assembly} {usage : String} {t : Template} {u : Usage}

theorem define_of_ok {g : Formatter} (h : a.formatter.define usage t = .ok (u, g)) :
    a.define usage t = { a with formatter := g } := by
  simp only [define, h]

theorem define_of_error {e : DefinitionError} (h : a.formatter.define usage t = .error e) :
    a.define usage t = { a with skipped := a.skipped ++ [⟨usage, none, e⟩] } := by
  simp only [define, h]

theorem define_cases (a : Assembly) (usage : String) (t : Template) :
    (∃ u, Formatter.readUsage usage = .ok u ∧ a.formatter.bbcodes.contains u.name = false ∧
      a.formatter.tags.contains u.tagName = false ∧ a.formatter.checkUsage u t = .ok () ∧
      a.define usage t = { a with formatter := a.formatter.register u t }) ∨
    ∃ e, a.define usage t = { a with skipped := a.skipped ++ [⟨usage, none, e⟩] } := by
  cases h : a.formatter.define usage t with
  | error e => exact .inr ⟨e, define_of_error h⟩
  | ok found =>
    obtain ⟨u, g⟩ := found
    obtain ⟨hu, hname, htag, hc, rfl⟩ := Formatter.define_eq_ok_iff.1 h
    exact .inl ⟨u, hu, hname, htag, hc, define_of_ok h⟩

/-- Another assembly has all BBCodes and tags of this one and all that was reported, and no other settings. -/
structure Extends (a b : Assembly) : Prop where
  settings : a.formatter.SameSettings b.formatter
  bbcodes : ∀ k u, a.formatter.bbcodes.get? k = some u → b.formatter.bbcodes.get? k = some u
  tags : ∀ k t, a.formatter.tags.get? k = some t → b.formatter.tags.get? k = some t
  skipped : ∃ more, b.skipped = a.skipped ++ more

namespace Extends

theorem refl (a : Assembly) : a.Extends a :=
  ⟨.refl _, fun _ _ h => h, fun _ _ h => h, [], by simp⟩

theorem trans (h : a.Extends b) (h' : b.Extends c) : a.Extends c := by
  obtain ⟨hsettings, hbbcodes, htags, more, hmore⟩ := h
  obtain ⟨hsettings', hbbcodes', htags', more', hmore'⟩ := h'
  refine ⟨hsettings.trans hsettings', fun k u h => hbbcodes' k u (hbbcodes k u h),
    fun k t h => htags' k t (htags k t h), more ++ more', ?_⟩
  rw [hmore', hmore, List.append_assoc]

theorem filters (h : a.Extends b) : b.formatter.filters = a.formatter.filters := by
  obtain ⟨_, _, hb⟩ := h.settings
  rw [hb]

theorem emoticons (h : a.Extends b) : b.formatter.emoticons = a.formatter.emoticons := by
  obtain ⟨_, _, hb⟩ := h.settings
  rw [hb]

theorem mem_skipped (h : a.Extends b) {s : Skipped} (hs : s ∈ a.skipped) : s ∈ b.skipped := by
  obtain ⟨more, hmore⟩ := h.skipped
  rw [hmore]
  exact List.mem_append_left _ hs

end Extends

private theorem extends_define (a : Assembly) (usage : String) (t : Template) :
    a.Extends (a.define usage t) := by
  rcases define_cases a usage t with ⟨u, -, hname, htag, -, h⟩ | ⟨e, h⟩
  · rw [h]
    refine ⟨⟨_, _, rfl⟩, fun k v hv => ?_, fun k s hs => ?_, [], by simp⟩
    · have hk : k ≠ u.name := by
        rintro rfl
        simp [Table.contains_eq_isSome, hv] at hname
      simpa [Formatter.register, hk] using hv
    · have hk : k ≠ u.tagName := by
        rintro rfl
        simp [Table.contains_eq_isSome, hs] at htag
      simpa [Formatter.register, hk] using hs
  · rw [h]
    exact ⟨.refl _, fun _ _ h => h, fun _ _ h => h, _, rfl⟩

def defineAll (a : Assembly) (ds : List (String × Template)) : Assembly :=
  ds.foldl (fun a d => a.define d.1 d.2) a

theorem extends_defineAll (a : Assembly) (ds : List (String × Template)) :
    a.Extends (a.defineAll ds) := by
  induction ds generalizing a with
  | nil => exact .refl a
  | cons d ds ih => exact (a.extends_define d.1 d.2).trans (ih _)

theorem defineAll_append (a : Assembly) (ds es : List (String × Template)) :
    a.defineAll (ds ++ es) = (a.defineAll ds).defineAll es :=
  List.foldl_append

private theorem contains_name_define {k : String}
    (h : (a.define usage t).formatter.bbcodes.contains k = true) :
    a.formatter.bbcodes.contains k = true ∨ ∃ u, Formatter.readUsage usage = .ok u ∧ u.name = k := by
  rcases define_cases a usage t with ⟨u, hu, -, -, -, hd⟩ | ⟨e, hd⟩ <;> rw [hd] at h
  · simp only [Formatter.register, Table.contains_insert, Bool.or_eq_true, beq_iff_eq] at h
    exact h.symm.imp_right fun hk => ⟨u, hu, hk.symm⟩
  · exact .inl h

private theorem get?_tags_define {k source : String}
    (h : (a.define usage t).formatter.tags.get? k = some source) :
    a.formatter.tags.get? k = some source ∨
      (∃ u, Formatter.readUsage usage = .ok u ∧ u.tagName = k) ∧ t.source = source := by
  rcases define_cases a usage t with ⟨u, hu, -, -, -, hd⟩ | ⟨e, hd⟩ <;> rw [hd] at h
  · simp only [Formatter.register, Table.get?_insert] at h
    split at h
    · next hk => exact .inr ⟨⟨u, hu, hk.symm⟩, Option.some.inj h⟩
    · exact .inl h
  · exact .inl h

theorem contains_name_defineAll {ds : List (String × Template)} {k : String}
    (h : (a.defineAll ds).formatter.bbcodes.contains k = true) :
    a.formatter.bbcodes.contains k = true ∨
      ∃ d ∈ ds, ∃ u, Formatter.readUsage d.1 = .ok u ∧ u.name = k := by
  induction ds generalizing a with
  | nil => exact .inl h
  | cons d ds ih =>
    rcases ih h with h | ⟨e, he, hu⟩
    · exact (contains_name_define h).imp_right fun hu => ⟨d, by simp, hu⟩
    · exact .inr ⟨e, .tail _ he, hu⟩

theorem get?_tags_defineAll {ds : List (String × Template)} {k source : String}
    (h : (a.defineAll ds).formatter.tags.get? k = some source) :
    a.formatter.tags.get? k = some source ∨ ∃ d ∈ ds,
      (∃ u, Formatter.readUsage d.1 = .ok u ∧ u.tagName = k) ∧ d.2.source = source := by
  induction ds generalizing a with
  | nil => exact .inl h
  | cons d ds ih =>
    rcases ih h with h | ⟨e, he, hu⟩
    · exact (get?_tags_define h).imp_right fun hu => ⟨d, by simp, hu⟩
    · exact .inr ⟨e, .tail _ he, hu⟩

theorem contains_tag_defineAll {ds : List (String × Template)} {k : String}
    (h : (a.defineAll ds).formatter.tags.contains k = true) :
    a.formatter.tags.contains k = true ∨
      ∃ d ∈ ds, ∃ u, Formatter.readUsage d.1 = .ok u ∧ u.tagName = k := by
  rw [Table.contains_eq_isSome] at h ⊢
  obtain ⟨source, hs⟩ := Option.isSome_iff_exists.1 h
  refine (get?_tags_defineAll hs).imp (fun h => by rw [h]; rfl) ?_
  exact fun ⟨d, hd, hu, _⟩ => ⟨d, hd, hu⟩

/-- Every definition is registered as it was given, or reported. -/
theorem defineAll_registers_or_reports {ds : List (String × Template)} {d : String × Template}
    (hd : d ∈ ds) : (∃ u, Formatter.readUsage d.1 = .ok u ∧
        (a.defineAll ds).formatter.bbcodes.get? u.name = some u ∧
        (a.defineAll ds).formatter.tags.get? u.tagName = some d.2.source) ∨
      ∃ e, ⟨d.1, none, e⟩ ∈ (a.defineAll ds).skipped := by
  obtain ⟨before, after, rfl⟩ := List.append_of_mem hd
  rw [defineAll_append]
  change (∃ u, _ ∧ (((a.defineAll before).define d.1 d.2).defineAll after).formatter.bbcodes.get? _ = _ ∧
    (((a.defineAll before).define d.1 d.2).defineAll after).formatter.tags.get? _ = _) ∨
      ∃ e, _ ∈ (((a.defineAll before).define d.1 d.2).defineAll after).skipped
  have hx := extends_defineAll ((a.defineAll before).define d.1 d.2) after
  rcases define_cases (a.defineAll before) d.1 d.2 with ⟨u, hu, -, -, -, h⟩ | ⟨e, h⟩ <;> rw [h] at hx ⊢
  · exact .inl ⟨u, hu, hx.bbcodes _ _ (by simp [Formatter.register]),
      hx.tags _ _ (by simp [Formatter.register])⟩
  · exact .inr ⟨e, hx.mem_skipped (by simp)⟩

def FiltersPresent (a : Assembly) : Prop :=
  ∀ k u, a.formatter.bbcodes.get? k = some u → a.formatter.missingFilter? u = none

private theorem filtersPresent_define (h : a.FiltersPresent) : (a.define usage t).FiltersPresent := by
  intro k v hv
  rcases define_cases a usage t with ⟨u, -, -, -, hc, hd⟩ | ⟨e, hd⟩ <;> rw [hd] at hv ⊢
  · simp only [Formatter.register, Table.get?_insert] at hv
    change a.formatter.missingFilter? v = none
    split at hv
    · cases hv
      exact (Formatter.checkUsage_eq_ok_iff.1 hc).1
    · exact h k v hv
  · exact h k v hv

theorem filtersPresent_defineAll {ds : List (String × Template)} (h : a.FiltersPresent) :
    (a.defineAll ds).FiltersPresent := by
  induction ds generalizing a with
  | nil => exact h
  | cons d ds ih => exact ih (filtersPresent_define h)

end Assembly
end Board
end BoardMarkup
