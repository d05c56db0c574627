import BoardMarkup.Proofs.Settings.Config
import BoardMarkup.Proofs.Text.Strip

/-! What is left of the scheme of a board's address without the slashes at its end. -/
namespace BoardMarkup.Settings.Config

open Board Text

/-- Whether a scheme is followed by anything but slashes. -/
def NamesHost (address : String) : Prop :=
  ∃ scheme ∈ schemes, ∃ rest, address.toList = scheme ++ rest ∧ ∃ ch ∈ rest, ch ≠ '/'

theorem eq_of_mem_schemes {scheme : List Char} (h : scheme ∈ schemes) :
    ∃ start, scheme = start ++ [':', '/', '/'] ∧ '/' ∉ start := by
  have hhttp : "http://".toList = ['h', 't', 't', 'p', ':', '/', '/'] := String.toList_ofList
  have hhttps : "https://".toList = ['h', 't', 't', 'p', 's', ':', '/', '/'] := String.toList_ofList
  rw [schemes, hhttp, hhttps, List.mem_cons, List.mem_singleton] at h
  rcases h with rfl | rfl
  · exact ⟨['h', 't', 't', 'p'], rfl, by decide⟩
  · exact ⟨['h', 't', 't', 'p', 's'], rfl, by decide⟩

theorem hasScheme_of_validate {c : Config} (h : c.validate = .ok ()) : HasScheme c.url :=
  (validate_eq_ok_iff.1 h).2.2.2.2.2

theorem toList_boardUrl (c : Config) : c.boardUrl.toList = dropEndWhile (· == '/') c.url.toList :=
  String.toList_ofList

theorem not_slash_suffix_boardUrl (c : Config) : ¬ ['/'] <:+ c.boardUrl.toList := by
  rintro ⟨start, hstart⟩
  obtain ⟨-, -, -, hlast⟩ := dropEndWhile_eq_iff.1 (toList_boardUrl c).symm
  have hslash : ('/' == '/') = false := hlast '/' (by rw [← hstart, List.getLast?_concat])
  cases hslash

/-- Behind a scheme and a name only slashes go. -/
theorem boardUrl_of_namesHost {c : Config} (h : NamesHost c.url) : ∃ scheme ∈ schemes, ∃ host, host ≠ [] ∧
    ¬ ['/'] <:+ host ∧ c.boardUrl.toList = scheme ++ host := by
  obtain ⟨scheme, hscheme, rest, hurl, ch, hch, hne⟩ := h
  obtain ⟨before, behind, rfl⟩ := List.append_of_mem hch
  have hkept : (fun x => x == '/') ch = false := beq_eq_false_iff_ne.2 hne
  have hboard : c.boardUrl.toList = scheme ++ (before ++ ch :: dropEndWhile (· == '/') behind) := by
    rw [toList_boardUrl, hurl, ← List.append_assoc, dropEndWhile_append_cons (p := (· == '/')) hkept,
      List.append_assoc]
  refine ⟨scheme, hscheme, before ++ ch :: dropEndWhile (· == '/') behind, by simp, fun hslash => ?_, hboard⟩
  apply not_slash_suffix_boardUrl c
  rw [hboard]
  exact hslash.trans (List.suffix_append _ _)

theorem not_hasScheme_of_slashes {c : Config} {scheme rest : List Char} (hscheme : scheme ∈ schemes)
    (hurl : c.url.toList = scheme ++ rest) (hrest : ∀ ch ∈ rest, ch = '/') : ¬ HasScheme c.boardUrl := by
  obtain ⟨start, rfl, hstart⟩ := eq_of_mem_schemes hscheme
  have hslashes : dropEndWhile (· == '/') ('/' :: '/' :: rest) = [] := by
    rw [dropEndWhile_eq_iff]
    exact ⟨'/' :: '/' :: rest, rfl, by simpa using hrest, by simp⟩
  have hboard : c.boardUrl.toList = start ++ [':'] := by
    have hsplit : c.url.toList = start ++ ':' :: ('/' :: '/' :: rest) := by simp [hurl]
    rw [toList_boardUrl, hsplit, dropEndWhile_append_cons (by decide), hslashes]
  rintro ⟨other, hother, hprefix⟩
  obtain ⟨start', rfl, -⟩ := eq_of_mem_schemes hother
  rw [hboard] at hprefix
  have hslash : '/' ∈ start ++ [':'] := hprefix.subset (by simp)
  simp [hstart] at hslash

private theorem hasScheme_boardUrl_iff {c : Config} (h : HasScheme c.url) :
    HasScheme c.boardUrl ↔ NamesHost c.url := by
  constructor
  · intro hkept
    obtain ⟨scheme, hscheme, rest, hurl⟩ := h
    by_contra hnone
    refine not_hasScheme_of_slashes hscheme hurl.symm (fun ch hch => ?_) hkept
    by_contra hne
    exact hnone ⟨scheme, hscheme, rest, hurl.symm, ch, hch, hne⟩
  · intro hhost
    obtain ⟨scheme, hscheme, host, -, -, hboard⟩ := boardUrl_of_namesHost hhost
    exact ⟨scheme, hscheme, host, hboard.symm⟩

/--
The address that a board is assembled with never ends in a slash. It has a scheme just when something
other than slashes follows the scheme in the settings. Then the addresses of smilies and of local links
begin with the scheme, what follows it, and a single slash.
-/
theorem boardUrl_keeps_scheme_iff {c : Config} (h : c.validate = .ok ()) :
    ¬ ['/'] <:+ c.options.boardUrl.toList ∧
    (HasScheme c.options.boardUrl ↔ NamesHost c.url) ∧
    (NamesHost c.url → ∃ scheme ∈ schemes, ∃ host, host ≠ [] ∧ ¬ ['/'] <:+ host ∧
      c.options.boardUrl.toList = scheme ++ host ∧
      c.options.smiliesUrl.toList = scheme ++ host ++ '/' :: stripWhile (· == '/') c.smiliesPath.toList ∧
      ∀ template, prefixLocalUrls c.options.boardUrl template =
        String.ofList
          (replaceAll localUrl (fun token => scheme ++ host ++ '/' :: token) template.toList)) := by
  refine ⟨not_slash_suffix_boardUrl c, hasScheme_boardUrl_iff (hasScheme_of_validate h), fun hhost => ?_⟩
  obtain ⟨scheme, hscheme, host, hne, hslash, hboard⟩ := boardUrl_of_namesHost hhost
  have hoptions : c.options.boardUrl.toList = scheme ++ host := hboard
  refine ⟨scheme, hscheme, host, hne, hslash, hoptions, ?_, fun template => ?_⟩
  · rw [Options.smiliesUrl, String.toList_append, String.toList_append, String.toList_ofList,
      String.toList_ofList,
      hoptions]
    change scheme ++ host ++ ['/'] ++ stripWhile (· == '/') c.smiliesPath.toList = _
    rw [List.append_assoc (scheme ++ host), List.singleton_append]
  · rw [prefixLocalUrls, hoptions]

def withUrl (url : String) : Config := { Config.default "/" with url }

/-- Several slashes at the end. -/
theorem boardUrl_keeps_scheme_example : (withUrl "https://a.example/b//").validate = .ok () ∧
    NamesHost "https://a.example/b//" ∧ HasScheme (withUrl "https://a.example/b//").options.boardUrl ∧
    ¬ ['/'] <:+ (withUrl "https://a.example/b//").options.boardUrl.toList := by
  have hvalid : (withUrl "https://a.example/b//").validate = .ok () := by decide +kernel
  have hhost : NamesHost "https://a.example/b//" :=
    ⟨"https://".toList, by decide +kernel, "a.example/b//".toList, by decide +kernel, 'a',
      by decide +kernel, by decide⟩
  obtain ⟨hslash, hscheme, -⟩ := boardUrl_keeps_scheme_iff hvalid
  exact ⟨hvalid, hhost, hscheme.2 hhost, hslash⟩

/-- A scheme alone is accepted, and loses its slashes. -/
theorem bareScheme_is_lost : (withUrl "http://").validate = .ok () ∧
    (withUrl "http://").options.boardUrl = "http:" ∧ ¬ HasScheme (withUrl "http://").options.boardUrl ∧
    (withUrl "http://").options.smiliesUrl = "http:/images/smilies" := by
  have hboard : (withUrl "http://").options.boardUrl = "http:" := by decide +kernel
  have hurl : (withUrl "http://").url.toList = "http://".toList ++ [] := by decide +kernel
  have hnone : ¬ HasScheme (withUrl "http://").boardUrl :=
    not_hasScheme_of_slashes (by decide +kernel) hurl (by simp)
  exact ⟨by decide +kernel, hboard, hnone, by decide +kernel⟩

end BoardMarkup.Settings.Config
