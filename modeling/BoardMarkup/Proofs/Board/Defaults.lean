import BoardMarkup.Proofs.BBCode.Definition
import BoardMarkup.Proofs.BBCode.Usage
import BoardMarkup.Proofs.Board.Registration
import BoardMarkup.Proofs.Style.Catalog
import BoardMarkup.Proofs.Style.Normalization

/-! The catalog on a board: its usages and templates are all accepted there. -/
namespace BoardMarkup.Board

open BBCode Markup Style Text

def configured (o : Options) : Formatter := addFilters (configureEngine o .new)

/-- The passes that run over templates on a board. -/
def boardNormalizer : Normalizer := ⟨[.removeInterElementWhitespace, .transposeComments]⟩

/-- A board leaves templates that stand on one line, between tags and without comments, as they are. -/
theorem normalize_eq_self {t : String} (h : t.toList.all fun c => c != '\n' && c != '!')
    (hends : (t.toList.head?, t.toList.getLast?) = (some '<', some '>')) :
    boardNormalizer.normalize t = t := by
  have hlines : ∀ c ∈ t.toList, c ≠ '\n' ∧ c ≠ '!' := by simpa using List.all_eq_true.1 h
  obtain ⟨hfirst, hlast⟩ := Prod.mk.inj hends
  have hstrip : stripWhile isBlank t.toList = t.toList := by
    refine stripWhile_eq_self (fun c hc => ?_) fun c hc => ?_
    · cases hfirst.symm.trans hc
      decide
    · cases hlast.symm.trans hc
      decide
  rw [Normalizer.normalize, hstrip]
  simp only [boardNormalizer, List.foldl_cons, List.foldl_nil]
  rw [apply_removeInterElementWhitespace_eq_self fun hm => (hlines _ hm).1 rfl,
    apply_transposeComments_eq_self fun hi =>
      (hlines '!' (hi.subset (by decide))).2 rfl, String.ofList_toList]

/-- The names of the filters that a board has, and of those that are always there. -/
def knownFilters : List (List Char) := [
  ['#', 'c', 'o', 'l', 'o', 'r'], ['#', 'e', 'm', 'a', 'i', 'l'], ['#', 'h', 'a', 's', 'h', 'm', 'a', 'p'],
  ['#', 'n', 'u', 'm', 'b', 'e', 'r'], ['#', 's', 'i', 'm', 'p', 'l', 'e', 't', 'e', 'x', 't'],
  ['#', 'u', 'r', 'l'], ['#', 'f', 'l', 'a', 's', 'h', 'h', 'e', 'i', 'g', 'h', 't'],
  ['#', 'f', 'l', 'a', 's', 'h', 'w', 'i', 'd', 't', 'h'], ['#', 'f', 'o', 'n', 't', 's', 'i', 'z', 'e'],
  ['#', 'i', 'm', 'a', 'g', 'e', 'u', 'r', 'l']]

/--
The names in a usage of the catalog are those of its directive, but for the item of a list. A board has
the filters that it asks for, and it declares what stands in the template.
-/
theorem catalog_usages : ∀ d ∈ catalog,
    ((header? (bodyOf d.usage)).any fun name => name.map Char.toUpper ==
      if d.name.toList == ['l', 'i'] then ['*'] else d.name.toList.map Char.toUpper) ∧
    ((findAll givenTagName (bodyOf d.usage)).head? ==
      if d.name.toList == ['l', 'i'] then some ['L', 'I'] else none) ∧
    ((declarationsOf (bodyOf d.usage)).all fun c => (needsOf c).all knownFilters.contains) ∧
    (findAll placeholder d.template.toList).all fun id =>
      ['L', '_'].isPrefixOf id || (declarationsOf (bodyOf d.usage)).any (·.1 == id) := by
  simp only [catalog, List.forall_mem_cons, bodyOf, String.toList_append]
  repeat' rw [String.toList_ofList]
  decide +kernel

theorem catalog_lines : ∀ d ∈ catalog, d.template.toList.all (fun c => c != '\n' && c != '!') := by
  simp only [catalog, List.forall_mem_cons, String.toList_append]
  repeat' rw [String.toList_ofList]
  decide +kernel

theorem catalog_ends : ∀ d ∈ catalog,
    (d.template.toList.head?, d.template.toList.getLast?) = (some '<', some '>') := by
  simp only [catalog, List.forall_mem_cons, String.toList_append]
  repeat' rw [String.toList_ofList]
  decide +kernel

theorem catalog_selfContained : ∀ d ∈ catalog, SelfContained true d.template.toList := by
  simp only [catalog, List.forall_mem_cons, String.toList_append]
  repeat' rw [String.toList_ofList]
  decide +kernel

section Directive

variable {d : Directive} {u : Usage}

/-- The name of a directive's BBCode: an asterisk for the item of a list. -/
def nameOf (d : Directive) : String := if d.name = "li" then "*" else upper d.name

theorem toList_eq_li_iff (s : String) : s.toList = ['l', 'i'] ↔ s = "li" := by
  rw [← String.toList_inj]
  exact Iff.rfl

theorem exists_header (h : d ∈ catalog) : ∃ name, header? (bodyOf d.usage) = some name ∧
    String.ofList (name.map Char.toUpper) = nameOf d ∧
    String.ofList ((tagNameOf name (bodyOf d.usage)).map Char.toUpper) = upper d.name := by
  obtain ⟨hhead, htagName, -⟩ := catalog_usages d h
  have htag := eq_of_beq htagName
  cases hn : header? (bodyOf d.usage) with
  | none => simp [hn] at hhead
  | some name =>
    rw [hn, Option.any_some, beq_iff_eq] at hhead
    refine ⟨name, rfl, ?_⟩
    rw [tagNameOf, htag, hhead, nameOf, upper]
    simp only [beq_iff_eq, toList_eq_li_iff]
    by_cases hl : d.name = "li"
    · simp only [hl, if_true]
      exact ⟨trivial, rfl⟩
    · simp only [hl, if_false, Option.getD_none]
      exact ⟨trivial, congrArg _ (by simpa [toList_eq_li_iff, hl] using hhead)⟩

theorem usage_names (h : d ∈ catalog) (hu : Usage.parse? d.usage = .ok u) :
    u.name = nameOf d ∧ u.tagName = upper d.name := by
  obtain ⟨name, hname, hheadName, htagName⟩ := exists_header h
  obtain ⟨other, hother, hun, hut, -⟩ := parse?_spec hu
  rw [hname] at hother
  cases hother
  exact ⟨hun.trans hheadName, hut.trans htagName⟩

theorem upper_catalog_names : catalog.map (fun d => upper d.name) =
    ["ATTACHMENT", "B", "CODE", "COLOR", "EMAIL", "FLASH", "I", "IMG", "LIST", "LI", "QUOTE", "SIZE",
      "U", "URL"] := by
  have h : catalog.map (fun d => upper d.name) = (catalog.map (·.name)).map upper := by
    rw [List.map_map]
    rfl
  rw [h, catalog_names]
  decide

theorem exists_usage (h : d ∈ catalog) : ∃ u, Usage.parse? d.usage = .ok u := by
  obtain ⟨name, hname, -, htagName⟩ := exists_header h
  refine exists_parse?_eq_ok hname fun he => ?_
  rw [he] at htagName
  have hm : upper d.name ∈ catalog.map fun d => upper d.name := List.mem_map_of_mem h
  rw [upper_catalog_names, ← htagName] at hm
  revert hm
  decide

/-- The names of the catalog's BBCodes are different, as are those of its tags. -/
theorem pairwise_nameOf : catalog.Pairwise fun c d =>
    nameOf c ≠ nameOf d ∧ upper c.name ≠ upper d.name := by
  have h : (catalog.map fun d => (nameOf d, upper d.name)) =
      (catalog.map (·.name)).map fun n => (if n = "li" then "*" else upper n, upper n) := by
    rw [List.map_map]
    rfl
  have hp : ((catalog.map (·.name)).map fun n => (if n = "li" then "*" else upper n, upper n)).Pairwise
      fun c d => c.1 ≠ d.1 ∧ c.2 ≠ d.2 := by
    rw [catalog_names]
    decide
  rw [← h, List.pairwise_map] at hp
  exact hp

theorem contains_foldl_insert {α : Type} (es : List (String × α)) (t : Table α) (k : String) :
    (es.foldl (fun t e => t.insert e.1 e.2) t).contains k =
      ((es.map (·.1)).contains k || t.contains k) := by
  induction es generalizing t with
  | nil => simp
  | cons e es ih =>
    rw [List.foldl_cons, ih, Table.contains_insert, List.map_cons, List.contains_cons,
      ← Bool.or_assoc, Bool.or_comm (k == e.1)]

private theorem filter_names : filters.map (·.1) = ["#local_url", "#relative_url", "#inttext",
    "#flashheight", "#flashwidth", "#fontsize", "#imageurl"] := rfl

private theorem available_knownFilters : ∀ cs ∈ knownFilters,
    (Filter.builtins.contains (String.ofList cs) ||
      (filters.map (·.1)).contains (String.ofList cs)) = true := by
  rw [filter_names]
  decide

theorem missingFilter?_eq_none (o : Options) (h : d ∈ catalog) (hu : Usage.parse? d.usage = .ok u) :
    (configured o).missingFilter? u = none := by
  rw [Formatter.missingFilter?, List.find?_eq_none]
  intro n hn
  obtain ⟨c, hc, hneed⟩ := (mem_required_iff hu).1 hn
  have hknown : n.toList ∈ knownFilters := by
    have := List.all_eq_true.1 (List.all_eq_true.1 (catalog_usages d h).2.2.1 c hc) _ hneed
    exact List.contains_iff_mem.1 this
  have ha := available_knownFilters _ hknown
  rw [String.ofList_toList] at ha
  have hf : (configured o).filters.contains n =
      ((filters.map (·.1)).contains n || (Table.empty : Table Filter).contains n) :=
    contains_foldl_insert filters .empty n
  simp only [Filter.available, hf, Table.contains_empty, Bool.or_false, ha]
  decide

theorem fallback_eq (h : d ∈ catalog) : d.fallback boardNormalizer = d.template :=
  normalize_eq_self (catalog_lines d h) (catalog_ends d h)

private theorem provides_template (h : d ∈ catalog) (hu : Usage.parse? d.usage = .ok u) :
    Provides u d.template := by
  intro id hid
  rw [tokensOf, List.mem_map] at hid
  obtain ⟨cs, hcs, rfl⟩ := hid
  have ht := List.all_eq_true.1 (catalog_usages d h).2.2.2 cs hcs
  have hmark : "L_".toList = ['L', '_'] := String.toList_ofList
  rw [isLanguageToken, hmark, String.toList_ofList, defines_eq hu]
  simpa using ht

/-- The check of a directive's template on a board is that of the template against the usage. -/
theorem check_eq_validate (o : Options) (h : d ∈ catalog) (hu : Usage.parse? d.usage = .ok u)
    (t : Template) : (configured o).check d.usage t = t.validate u := by
  simp only [Formatter.check, Formatter.readUsage, hu, Except.mapError, bind, Except.bind,
    Formatter.checkUsage, missingFilter?_eq_none o h hu]

theorem check_fallback (o : Options) (h : d ∈ catalog) :
    (configured o).check d.usage ⟨d.fallback boardNormalizer, true⟩ = .ok () := by
  obtain ⟨u, hu⟩ := exists_usage h
  rw [check_eq_validate o h hu, fallback_eq h]
  exact validate_eq_ok_iff.2 ⟨provides_template h hu, (catalog_selfContained d h).check⟩

end Directive

end BoardMarkup.Board
