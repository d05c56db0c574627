import BoardMarkup.Proofs.Style.Selection
import BoardMarkup.Proofs.Text.Replacements

/-! The tokens that styles write: none of them is left in a template that is put together from fragments. -/
namespace BoardMarkup.Style

open Text Text.Replacements

def IsToken (cs : List Char) : Prop :=
  cs.head? = some '{' ∧ cs.getLast? = some '}' ∧ '{' ∉ cs.tail ∧ '}' ∉ cs.dropLast

instance (cs : List Char) : Decidable (IsToken cs) := inferInstanceAs (Decidable (_ ∧ _))

theorem isToken_iff {cs : List Char} :
    IsToken cs ↔ ∃ name, cs = '{' :: (name ++ ['}']) ∧ '{' ∉ name ∧ '}' ∉ name := by
  constructor
  · rintro ⟨hfirst, hlast, hopen, hclose⟩
    obtain ⟨rest, rfl⟩ := List.head?_eq_some_iff.1 hfirst
    obtain ⟨start, hstart⟩ := List.getLast?_eq_some_iff.1 hlast
    cases start with
    | nil => simp at hstart
    | cons c name =>
      obtain ⟨rfl, rfl⟩ := List.cons.inj hstart
      have hfront : ('{' :: (name ++ ['}'])).dropLast = '{' :: name := by
        rw [← List.cons_append, List.dropLast_concat]
      exact ⟨name, rfl, fun hm => hopen (List.mem_append_left _ hm), fun hm => hclose (hfront ▸ .tail _ hm)⟩
  · rintro ⟨name, rfl, hopen, hclose⟩
    refine ⟨rfl, by rw [← List.cons_append, List.getLast?_concat], by simpa using hopen, ?_⟩
    rw [← List.cons_append, List.dropLast_concat]
    simpa using hclose

/-- Tokens to be written for other tokens, of which none is again to be replaced. -/
structure Renaming (pairs : List (String × String)) : Prop where
  tokens : ∀ r ∈ pairs, IsToken r.1.toList ∧ IsToken r.2.toList
  apart : ∀ r ∈ pairs, ∀ s ∈ pairs, r.2 ≠ s.1

namespace Renaming

variable {pairs : List (String × String)} {cs result : List Char}

private theorem prefix_of_rewritten (h : Renaming pairs) (hr : Rewritten pairs cs result) {xs : List Char}
    (hx : '{' ∉ xs) (hp : xs <+: result) : xs <+: cs := by
  induction hr generalizing xs with
  | nil => exact hp
  | keep hnone hr ih =>
    cases xs with
    | nil => exact List.nil_prefix
    | cons x xs =>
      obtain ⟨rfl, hrest⟩ := List.cons_prefix_cons.1 hp
      exact List.cons_prefix_cons.2 ⟨rfl, ih (fun hm => hx (.tail _ hm)) hrest⟩
  | @replace r rest result hdecides hr ih =>
    obtain ⟨name, hname, -⟩ := isToken_iff.1 (h.tokens r hdecides.mem).2
    cases xs with
    | nil => exact List.nil_prefix
    | cons x xs =>
      rw [hname] at hp
      obtain ⟨rfl, -⟩ := List.cons_prefix_cons.1 hp
      exact absurd List.mem_cons_self hx

/-- No token is left: one that begins in what was kept would have been replaced, and none begins elsewhere. -/
theorem not_infix_of_rewritten (h : Renaming pairs) (hr : Rewritten pairs cs result) {r : String × String}
    (hm : r ∈ pairs) : ¬ r.1.toList <:+: result := by
  obtain ⟨name, hname, hopen, hclose⟩ := isToken_iff.1 (h.tokens r hm).1
  have hrest : '{' ∉ name ++ ['}'] := by simpa using hopen
  rw [hname]
  induction hr with
  | nil => simp
  | @keep c cs result hnone hr ih =>
    rw [List.infix_cons_iff]
    rintro (hp | hi)
    · obtain ⟨rfl, htail⟩ := List.cons_prefix_cons.1 hp
      have hbegins : r.1.toList <+: '{' :: cs := by
        rw [hname]
        exact List.cons_prefix_cons.2 ⟨rfl, h.prefix_of_rewritten hr hrest htail⟩
      have hne : r.1 ≠ "" := fun he => by simp [he] at hname
      exact hnone r hm ⟨hne, hbegins⟩
    · exact ih hi
  | @replace s rest result hdecides hr ih =>
    obtain ⟨other, hother, hopen', hclose'⟩ := isToken_iff.1 (h.tokens s hdecides.mem).2
    rw [hother, List.cons_append, List.infix_cons_iff]
    rintro (hp | hi)
    · -- two tokens that begin at one place are one
      obtain ⟨tail, htail⟩ := (List.cons_prefix_cons.1 hp).2
      have hsame : cut? ['}'] (name ++ ['}'] ++ tail) = some (name, tail) := cut?_append hclose tail
      rw [htail, cut?_append hclose' result] at hsame
      obtain ⟨rfl, -⟩ := Prod.mk.inj (Option.some.inj hsame)
      refine h.apart s hdecides.mem r hm ?_
      rw [← String.toList_inj, hother, hname]
    · exact ih (infix_of_infix_append hi (by simpa using hopen'))

theorem of_subset {part : List (String × String)} (h : Renaming pairs) (hs : part ⊆ pairs) :
    Renaming part :=
  ⟨fun r hr => h.tokens r (hs hr), fun r hr s hm => h.apart r (hs hr) s (hs hm)⟩

end Renaming

private theorem catalog_aliases : catalog.flatMap (·.aliases) =
    [("\x7bDESCRIPTION\x7d", "\x7bTEXT\x7d"), ("\x7bWIDTH\x7d", "\x7bNUMBER1\x7d"),
      ("\x7bHEIGHT\x7d", "\x7bNUMBER2\x7d"), ("\x7bURL\x7d", "\x7bIMAGEURL\x7d"),
      ("\x7bLIST_TYPE\x7d", "\x7bHASHMAP\x7d"), ("\x7bUSERNAME\x7d", "\x7bTEXT1\x7d"),
      ("\x7bSIZE\x7d", "\x7bFONTSIZE\x7d"), ("\x7bDESCRIPTION\x7d", "\x7bTEXT\x7d")] := rfl

private theorem renaming_catalog_aliases : Renaming (catalog.flatMap (·.aliases)) := by
  rw [catalog_aliases]
  exact ⟨by decide +kernel, by decide +kernel⟩

private theorem renaming_aliases {d : Directive} (h : d ∈ catalog) : Renaming d.aliases :=
  renaming_catalog_aliases.of_subset fun _ hr => List.mem_flatMap.2 ⟨d, h, hr⟩

/--
A style's own template of a directive is what its fragments are laid out to, with the tokens of the
usage in place of those that styles write. However the fragments meet, no token that styles write is
left anywhere in it.
-/
theorem recompose_leaves_no_alias (fs : Fragments) (name t : String) : fs.recompose.get? name = some t ↔
    ∃ d ∈ catalog, d.name = name ∧ ∃ laid, fs.layOut? d = some laid ∧
      Rewritten d.aliases laid.toList t.toList ∧ ∀ a ∈ d.aliases, ¬ a.1.toList <:+: t.toList := by
  rw [get?_recompose_eq_some_iff]
  constructor
  · rintro ⟨d, hd, hname, ht⟩
    obtain ⟨laid, hlaid, hresult⟩ := Option.map_eq_some_iff.1 ht
    have hrewritten := apply_eq_iff.1 hresult
    exact ⟨d, hd, hname, laid, hlaid, hrewritten, fun a ha =>
      (renaming_aliases hd).not_infix_of_rewritten hrewritten ha⟩
  · rintro ⟨d, hd, hname, laid, hlaid, hrewritten, -⟩
    exact ⟨d, hd, hname, by rw [Fragments.template?, hlaid, Option.map_some, apply_eq_iff.2 hrewritten]⟩

end BoardMarkup.Style
