import Mathlib.Algebra.GroupWithZero.Nat
import BoardMarkup.Formatter.Compile
import BoardMarkup.Proofs.Disk.Replacement

/-! Directories in which renderers are written, and what writing one changes. -/
namespace BoardMarkup

theorem utf8ByteSize_ofList (cs : List Char) :
    (String.ofList cs).utf8ByteSize = (cs.map Char.utf8Size).sum := by
  induction cs with
  | nil => rfl
  | cons c cs ih =>
    have h : String.ofList (c :: cs) = String.singleton c ++ String.ofList cs := by
      rw [← String.toList_inj]
      simp
    rw [h, String.utf8ByteSize_append, String.utf8ByteSize_singleton, ih, List.map_cons, List.sum_cons]

/-- Whether characters could be the digits by which a renderer is identified. -/
structure IsDigest (digits : List Char) : Prop where
  length : digits.length = 40
  alphanumeric : ∀ c ∈ digits, c.isAlphanum = true

theorem isAlphanum_digitChar : ∀ n < 16, (Nat.digitChar n).isAlphanum = true := by decide

theorem length_hash (message : List UInt8) : (Sha256.hash message).length = 32 := rfl

private theorem length_hex (bytes : List UInt8) : (Sha256.hex bytes).length = 2 * bytes.length := by
  induction bytes with
  | nil => rfl
  | cons b bytes ih =>
    rw [Sha256.hex, List.flatMap_cons, ← Sha256.hex, List.length_append, ih]
    simp only [List.length_cons, List.length_nil]
    omega

private theorem isAlphanum_of_mem_hex {bytes : List UInt8} {c : Char} (h : c ∈ Sha256.hex bytes) :
    c.isAlphanum = true := by
  obtain ⟨b, -, hc⟩ := List.mem_flatMap.1 h
  have hb : b.toNat < 256 := b.toNat_lt
  simp only [List.mem_cons, List.not_mem_nil, or_false] at hc
  rcases hc with rfl | rfl <;> exact isAlphanum_digitChar _ (by omega)

theorem Snapshot.exists_digest (s : Snapshot) : ∃ digits, IsDigest digits ∧ s.digest = String.ofList digits :=
  ⟨_, ⟨by rw [List.length_take, length_hex, length_hash]; rfl, fun _ hc =>
    isAlphanum_of_mem_hex (List.mem_of_mem_take hc)⟩, rfl⟩

theorem utf8Size_of_isAlphanum {c : Char} (h : c.isAlphanum = true) : c.utf8Size = 1 := by
  rw [Char.utf8Size_eq_one_iff]
  delta Char.isAlphanum Char.isAlpha Char.isUpper Char.isLower Char.isDigit at h
  simp [UInt32.le_iff_toNat_le] at h ⊢
  omega

namespace Renderer

def name (classPrefix : String) (digits extension : List Char) : List Char :=
  classPrefix.toList ++ digits ++ '.' :: extension

def json : List Char := ['j', 's', 'o', 'n']

def unfinished : List Char := ['j', 's', 'o', 'n', '.', 't', 'm', 'p']

variable {classPrefix : String} {digits extension : List Char}

theorem rendererFileName_eq (classPrefix : String) (digits : List Char) :
    rendererFileName (classPrefix ++ String.ofList digits) =
      String.ofList (name classPrefix digits json) := by
  have hend : ".json".toList = '.' :: json := String.toList_ofList
  rw [← String.toList_inj]
  simp [rendererFileName, name, hend]

theorem isName_name (hp : '/' ∉ classPrefix.toList) (hd : ∀ c ∈ digits, c.isAlphanum = true)
    (he : extension = json ∨ extension = unfinished) : Path.IsName (name classPrefix digits extension) := by
  have hdigits : '/' ∉ digits := fun h => absurd (hd _ h) (by decide)
  refine Path.isName_append ?_ (by simp [hp, hdigits]) ?_ <;> rcases he with rfl | rfl <;>
    simp [json, unfinished]

theorem withExtension_name {base : String} (hp : '/' ∉ classPrefix.toList) (hd : IsDigest digits) :
    Path.withExtension (Path.join base (String.ofList (name classPrefix digits json))) "json.tmp" =
      Path.join base (String.ofList (name classPrefix digits unfinished)) := by
  have hslash : '/' ∉ digits := fun hc => absurd (hd.alphanumeric _ hc) (by decide)
  have hend : "json.tmp".toList = unfinished := String.toList_ofList
  have hlength : 2 ≤ (classPrefix.toList ++ digits).length := by
    rw [List.length_append, hd.length]
    omega
  rw [name, Path.withExtension_join (Path.isStem_of_length hlength (by simp [hp, hslash])) (by decide)
    (by decide) (by rw [hend]; decide), hend, name]

theorem extension?_name (hp : '/' ∉ classPrefix.toList) (hd : IsDigest digits) :
    Path.extension? (String.ofList (name classPrefix digits json)) = some json := by
  have hname := isName_name hp hd.alphanumeric (.inl rfl)
  have hstem : classPrefix.toList ++ digits ≠ [] := fun he => by
    have hl := hd.length
    rw [(List.append_eq_nil_iff.1 he).2] at hl
    cases hl
  rw [Path.extension?, Path.fileName?_eq hname (String.toList_ofList.trans (List.nil_append _).symm)
    (.inl rfl)]
  exact congrArg Prod.snd (Path.splitExtension_append hstem (by decide))

private theorem sum_utf8Size {cs : List Char} (h : ∀ c ∈ cs, c.utf8Size = 1) :
    (cs.map Char.utf8Size).sum = cs.length := by
  induction cs with
  | nil => rfl
  | cons c cs ih =>
    rw [List.map_cons, List.sum_cons, h c (by simp), ih fun x hx => h x (List.mem_cons_of_mem _ hx),
      List.length_cons, Nat.add_comm]

/-- The digits and the second extension are all that is added to the name without digits. -/
theorem size_name_le (classPrefix : String) (before : List Char) (hd : IsDigest digits)
    (he : extension = json ∨ extension = unfinished) :
    (String.ofList (before ++ name classPrefix digits extension)).utf8ByteSize ≤
      (String.ofList (before ++ name classPrefix [] json)).utf8ByteSize + 44 := by
  have hdigits : (digits.map Char.utf8Size).sum = 40 := by
    rw [sum_utf8Size fun c hc => utf8Size_of_isAlphanum (hd.alphanumeric c hc), hd.length]
  have hext : (extension.map Char.utf8Size).sum ≤ (json.map Char.utf8Size).sum + 4 := by
    rcases he with rfl | rfl <;> decide
  simp only [utf8ByteSize_ofList, name, List.map_append, List.sum_append, List.map_cons,
    List.sum_cons, hdigits]
  omega

end Renderer

open Renderer

namespace Disk

def prepared (d : Disk) (base : String) : Disk := (d.makeDirectory (Path.holder base)).1

/--
Renderers can be written below a path: their names are not too long, the directory can be made, and
nothing there that has the name of a renderer is a directory.
-/
structure Hosts (d : Disk) (base classPrefix : String) : Prop where
  noSlash : '/' ∉ classPrefix.toList
  nameFits : (rendererFileName classPrefix).utf8ByteSize + 44 ≤ 255
  pathFits : (Path.join base (rendererFileName classPrefix)).utf8ByteSize + 44 < 4096
  made : (d.makeDirectory (Path.holder base)).2 = true
  leads : ((d.prepared base).resolve? (Path.join base (rendererFileName classPrefix))).isSome
  free : ∀ digits extension l, IsDigest digits → extension = json ∨ extension = unfinished →
    (d.prepared base).resolve? (Path.join base (String.ofList (name classPrefix digits extension))) =
      some l → (d.prepared base).isDirectory l = false

/-- No name of a renderer is that of a directory where none is. -/
theorem free_of_leads {d : Disk} {base classPrefix : String} {l : Location}
    (hp : '/' ∉ classPrefix.toList)
    (hl : (Path.directoryNames base).foldlM d.follow (d.start base) = some l)
    (hnone : ∀ n, d.isDirectory (l ++ [n]) = false) (digits extension : List Char) (m : Location)
    (hd : IsDigest digits) (hx : extension = json ∨ extension = unfinished)
    (hr : d.resolve? (Path.join base (String.ofList (name classPrefix digits extension))) = some m) :
    d.isDirectory m = false := by
  obtain ⟨-, -, k, hk, -, rfl⟩ := (resolve?_join (isName_name hp hd.alphanumeric hx)).1 hr
  rw [hl] at hk
  cases hk
  exact hnone _

/-- Renderers can be written in a directory that holds no directories. -/
theorem hosts_of_makeDirectory {d e : Disk} {base classPrefix : String} {l : Location}
    (hp : '/' ∉ classPrefix.toList) (hname : (rendererFileName classPrefix).utf8ByteSize + 44 ≤ 255)
    (hpath : (Path.join base (rendererFileName classPrefix)).utf8ByteSize + 44 < 4096)
    (hm : d.makeDirectory (Path.holder base) = (e, true))
    (hr : (e.resolve? (Path.join base (rendererFileName classPrefix))).isSome)
    (hl : (Path.directoryNames base).foldlM e.follow (e.start base) = some l)
    (hnone : ∀ n, e.isDirectory (l ++ [n]) = false) : d.Hosts base classPrefix := by
  have hprepared : d.prepared base = e := by rw [prepared, hm]
  refine ⟨hp, hname, hpath, by rw [hm], ?_, ?_⟩
  · rw [hprepared]
    exact hr
  · rw [hprepared]
    exact free_of_leads hp hl hnone

namespace Hosts

variable {d e : Disk} {base classPrefix : String} {digits extension : List Char}

theorem makeDirectory_eq (h : d.Hosts base classPrefix) :
    d.makeDirectory (Path.holder base) = (d.prepared base, true) := by
  rw [prepared, ← h.made]

theorem makeDirectory_of_sameShape (h : d.Hosts base classPrefix) (hs : (d.prepared base).SameShape e) :
    e.makeDirectory (Path.holder base) = (e, true) :=
  makeDirectory_of_keeps h.makeDirectory_eq hs.keeps

theorem prepared_of_sameShape (h : d.Hosts base classPrefix) (hs : (d.prepared base).SameShape e) :
    e.prepared base = e := by
  rw [prepared, h.makeDirectory_of_sameShape hs]

theorem of_sameShape (h : d.Hosts base classPrefix) (hs : (d.prepared base).SameShape e) :
    e.Hosts base classPrefix := by
  have he := h.prepared_of_sameShape hs
  refine ⟨h.noSlash, h.nameFits, h.pathFits, by rw [h.makeDirectory_of_sameShape hs], ?_,
    fun digits extension l hd hx hl => ?_⟩
  · rw [he, hs.resolve?]
    exact h.leads
  · rw [he, hs.resolve?] at hl
    rw [he, hs.directories]
    exact h.free digits extension l hd hx hl

theorem rendererFileName_eq_name (classPrefix : String) :
    rendererFileName classPrefix = String.ofList (name classPrefix [] json) := by
  rw [← rendererFileName_eq, show String.ofList [] = "" from rfl, String.append_empty]

private theorem zero_notMem_name (hp : '\x00' ∉ classPrefix.toList) (hd : ∀ c ∈ digits, c.isAlphanum = true)
    (hx : extension = json ∨ extension = unfinished) : '\x00' ∉ name classPrefix digits extension := by
  have hdigits : '\x00' ∉ digits := fun hc => absurd (hd _ hc) (by decide)
  rcases hx with rfl | rfl <;> simp [name, hp, hdigits, json, unfinished]

private theorem valid_name (h : d.Hosts base classPrefix) (hd : IsDigest digits)
    (hx : extension = json ∨ extension = unfinished) :
    validName (String.ofList (name classPrefix digits extension)) = true ∧
      validPath (Path.join base (String.ofList (name classPrefix digits extension))) = true := by
  have hbare : Path.IsName (name classPrefix [] json) := isName_name h.noSlash (by simp) (.inl rfl)
  have hname : Path.IsName (name classPrefix digits extension) :=
    isName_name h.noSlash hd.alphanumeric hx
  have hn := h.nameFits
  have hp := h.pathFits
  have hvalid : validPath (Path.join base (rendererFileName classPrefix)) = true := by
    obtain ⟨l, hl⟩ := Option.isSome_iff_exists.1 h.leads
    unfold resolve? at hl
    split at hl
    · next hpath => exact hpath.2
    · cases hl
  rw [rendererFileName_eq_name] at hn hp hvalid
  rw [← String.ofList_toList (s := Path.join base _), Path.toList_join hbare] at hp
  constructor
  · have hsize := size_name_le classPrefix [] hd hx
    simp only [List.nil_append] at hsize
    simp only [validName, decide_eq_true_eq]
    omega
  · have hsize := size_name_le classPrefix (Path.directoryText base) hd hx
    simp only [validPath, Path.toList_join hbare, Bool.and_eq_true, Bool.not_eq_true',
      List.contains_eq_mem, decide_eq_false_iff_not, List.mem_append, not_or] at hvalid
    have hprefix : '\x00' ∉ classPrefix.toList := fun hc => hvalid.2.2 (by simp [name, hc])
    have hsmall :
        (Path.join base (String.ofList (name classPrefix digits extension))).utf8ByteSize < 4096 := by
      rw [← String.ofList_toList (s := Path.join base _), Path.toList_join hname]
      omega
    simp only [validPath, hsmall, Path.toList_join hname, decide_true, Bool.true_and,
      Bool.not_eq_true', List.contains_eq_mem, decide_eq_false_iff_not, List.mem_append, not_or]
    exact ⟨hvalid.2.1, zero_notMem_name hprefix hd.alphanumeric hx⟩

/-- The names of renderers lead to one directory, where none of them is itself one. -/
theorem exists_directory (h : d.Hosts base classPrefix) : ∃ k, ∀ digits extension, IsDigest digits →
    extension = json ∨ extension = unfinished →
      (d.prepared base).resolve? (Path.join base (String.ofList (name classPrefix digits extension))) =
          some (k ++ [String.ofList (name classPrefix digits extension)]) ∧
        (d.prepared base).isDirectory (k ++ [String.ofList (name classPrefix digits extension)]) =
          false := by
  obtain ⟨l, hl⟩ := Option.isSome_iff_exists.1 h.leads
  rw [rendererFileName_eq_name] at hl
  have hbare : Path.IsName (name classPrefix [] json) := isName_name h.noSlash (by simp) (.inl rfl)
  have hplace : ∀ digits extension, IsDigest digits → extension = json ∨ extension = unfinished →
      ∃ k, l = k ++ [String.ofList (name classPrefix [] json)] ∧
        (d.prepared base).resolve? (Path.join base (String.ofList (name classPrefix digits extension))) =
          some (k ++ [String.ofList (name classPrefix digits extension)]) := by
    intro digits extension hd hx
    obtain ⟨hv, hpath⟩ := h.valid_name hd hx
    obtain ⟨-, -, k, hk, hkd, hlk⟩ := (resolve?_join hbare).1 hl
    exact ⟨k, hlk, (resolve?_join (isName_name h.noSlash hd.alphanumeric hx)).2
      ⟨hpath, hv, k, hk, hkd, rfl⟩⟩
  refine ⟨l.dropLast, fun digits extension hd hx => ?_⟩
  obtain ⟨k, rfl, hr⟩ := hplace digits extension hd hx
  rw [List.dropLast_concat]
  exact ⟨hr, h.free digits extension _ hd hx hr⟩

/-- Writing a renderer leaves its text in its file, and all directories where they were. -/
theorem save_eq_ok_of_file (h : d.Hosts base classPrefix) {r : Renderer} (hd : IsDigest digits)
    (hfile : r.file = Path.join base (String.ofList (name classPrefix digits json))) :
    ∃ e, r.save d = (.ok (), e) ∧ (d.prepared base).SameShape e ∧
      e.read? r.file = some (r.snapshot.fileText r.className).toUTF8 := by
  obtain ⟨k, hk⟩ := h.exists_directory
  obtain ⟨hpath, hfree⟩ := hk digits json hd (.inl rfl)
  obtain ⟨hthrough, hfree'⟩ := hk digits unfinished hd (.inr rfl)
  have htemporary : Path.withExtension r.file "json.tmp" =
      Path.join base (String.ofList (name classPrefix digits unfinished)) := by
    rw [hfile, withExtension_name h.noSlash hd]
  obtain ⟨e, he, hs, hn⟩ := replace_eq hpath hthrough hfree hfree'
    (r.snapshot.fileText r.className).toUTF8
  refine ⟨e, ?_, hs, ?_⟩
  · rw [Renderer.save, htemporary, hfile,
      Path.parent?_join (isName_name h.noSlash hd.alphanumeric (.inl rfl))]
    simp only [h.makeDirectory_eq, if_true, he]
  · rw [read?, find?, hfile, hs.resolve?, hpath]
    simp [hn]

theorem save_eq_ok (h : d.Hosts base classPrefix) {r : Renderer} (hd : IsDigest digits)
    (hclass : r.className = classPrefix ++ String.ofList digits)
    (hfile : r.file = Path.join base (rendererFileName r.className)) :
    ∃ e, r.save d = (.ok (), e) ∧ (d.prepared base).SameShape e ∧
      e.read? r.file = some (r.snapshot.fileText r.className).toUTF8 :=
  h.save_eq_ok_of_file hd (by rw [hfile, hclass, rendererFileName_eq])

end Hosts
end Disk

/-- A renderer that was written replaced a file. -/
theorem Renderer.replaces_of_save {r : Renderer} {d e : Disk} (h : r.save d = (.ok (), e)) :
    d.Replaces e r.file (Path.withExtension r.file "json.tmp")
      (r.snapshot.fileText r.className).toUTF8 := by
  obtain ⟨directory, hreplace⟩ : ∃ directory, (d.makeDirectory directory).1.replace r.file
      (Path.withExtension r.file "json.tmp") (r.snapshot.fileText r.className).toUTF8 = (e, true) := by
    unfold save at h
    cases hp : Path.parent? r.file with
    | none =>
      refine ⟨"", ?_⟩
      rw [hp] at h
      simp only [if_true] at h
      split at h
      · next hreplace =>
        cases h
        exact hreplace
      · cases h
    | some parent =>
      refine ⟨parent, ?_⟩
      rw [hp] at h
      simp only at h
      split at h
      · split at h
        · next hreplace =>
          cases h
          exact hreplace
        · cases h
      · cases h
  exact Disk.replaces_of_replace hreplace

end BoardMarkup
