import BoardMarkup.Proofs.Store.Files

/-! Directories of files that are opened again, for the same version or for another one. -/
namespace BoardMarkup.Store

def removeTreeSucceeds (d : Disk) (path : String) : Bool :=
  (d.resolve? path).any d.isDirectory && !(d.removeTree path).contains path

def recordSucceeds (d : Disk) (root version : String) : Bool :=
  match d.makeDirectory root with
  | (d, true) => (d.write? (Path.join root versionName) version.toUTF8).isSome
  | (_, false) => false

/-- Whether all file operations succeed by which a directory is opened. -/
def openSucceeds (d : Disk) (root version : String) : Bool :=
  match version? d root with
  | some v =>
    v == version || (removeTreeSucceeds d root && recordSucceeds (d.removeTree root) root version)
  | none => recordSucceeds d root version

def putAll (s : Store) (puts : List (String × ByteArray)) : Store :=
  puts.foldl (fun s p => s.put p.1 p.2) s

variable {d : Disk} {l : Location} {root key version : String} {content : ByteArray}

section Version

theorem fromUTF8?_toUTF8 (text : String) : String.fromUTF8? text.toUTF8 = some text :=
  dif_pos text.isValidUTF8

/-- The file that holds the version is in the directory whose version it is. -/
theorem opens_of_version? (h : version? d root = some version) : ∃ l, d.Opens root l := by
  unfold version? at h
  obtain ⟨content, hread, -⟩ := Option.bind_eq_some_iff.1 h
  rw [Disk.read?_eq] at hread
  obtain ⟨m, hm, -⟩ := Option.bind_eq_some_iff.1 hread
  have hpath : d.resolve? (Path.join root (String.ofList versionName.toList)) = some m := by
    rwa [String.ofList_toList]
  obtain ⟨-, -, l, hleads, hdirectory, -⟩ := (Disk.resolve?_join isName_version).1 hpath
  exact ⟨l, hleads, hdirectory⟩

theorem read?_recordVersion (h : recordSucceeds d root version = true) :
    (recordVersion d root version).read? (Path.join root versionName) = some version.toUTF8 := by
  unfold recordSucceeds at h
  unfold recordVersion
  generalize d.makeDirectory root = made at h
  obtain ⟨f, _ | _⟩ := made
  · cases h
  · obtain ⟨e, he⟩ := Option.isSome_iff_exists.1 h
    simp only [he, Option.getD_some]
    exact Disk.read?_write? he

/-- A directory that was opened is one of the version for which it was. -/
theorem version?_openFiles {s : Store} (h : openSucceeds s.disk root version = true) :
    version? (openFiles s root version).disk root = some version := by
  have hrecorded : ∀ e, recordSucceeds e root version = true →
      version? (recordVersion e root version) root = some version := by
    intro e he
    rw [version?, read?_recordVersion he]
    exact fromUTF8?_toUTF8 version
  unfold openSucceeds at h
  unfold openFiles
  cases hv : version? s.disk root with
  | none =>
    rw [hv] at h
    exact hrecorded _ h
  | some v =>
    rw [hv] at h
    simp only
    by_cases hsame : v = version
    · rw [if_pos hsame, ← hsame]
      exact hv
    · rw [if_neg hsame]
      have hcleared : (removeTreeSucceeds s.disk root &&
          recordSucceeds (s.disk.removeTree root) root version) = true := by
        simpa [hsame] using h
      exact hrecorded _ (Bool.and_eq_true_iff.1 hcleared).2

end Version

section Puts

private theorem temporary_ne_version (hk : Path.IsName key.toList) : temporary key ≠ versionName := by
  intro he
  have hdot := (Path.withExtension_spec hk no_slash_in_tmp).2.1
  rw [← temporary, he] at hdot
  exact absurd hdot (by decide)

private theorem version?_putFile (hk : IsKey key) (h : version? d root = some version) (content : ByteArray) :
    version? (putFile d root key content) root = some version := by
  obtain ⟨l, ho⟩ := opens_of_version? h
  have hfile := file?_putFile ho hk.toIsName isName_version (Ne.symm hk.ne_version)
    (Ne.symm (temporary_ne_version hk.toIsName)) content
  rw [← String.ofList_toList (s := versionName)] at hfile
  have hread := ho.read?_congr (putFile_keeps d root key content) isName_version hfile
  rw [String.ofList_toList] at hread
  rw [version?, hread]
  exact h

/-- Whatever is put in a directory of files, it stays one of its version. -/
theorem version?_putAll {s : Store} {puts : List (String × ByteArray)} (hc : s.cache = .files root)
    (h : version? s.disk root = some version) (hkeys : ∀ p ∈ puts, IsKey p.1) :
    (s.putAll puts).cache = .files root ∧ version? (s.putAll puts).disk root = some version := by
  induction puts generalizing s with
  | nil => exact ⟨hc, h⟩
  | cons p puts ih =>
    have hput : s.put p.1 p.2 = { s with disk := putFile s.disk root p.1 p.2 } := by
      rw [put, hc]
    have hversion := version?_putFile (hkeys p List.mem_cons_self) h p.2
    rw [putAll, List.foldl_cons, hput]
    exact ih hc hversion fun q hq => hkeys q (List.mem_cons_of_mem p hq)

end Puts

section Opening

variable {s : Store} {v : String}

/-- Where no file holds a version, opening takes no file away. -/
theorem read?_openFiles_of_unversioned (ho : s.disk.Opens root l)
    (hnone : s.disk.file? (l ++ [versionName]) = none) {path : String}
    (hread : s.disk.read? path = some content) :
    (openFiles s root version).disk.read? path = some content := by
  rw [Disk.read?_eq] at hread
  obtain ⟨m, hm, hfile⟩ := Option.bind_eq_some_iff.1 hread
  have hne : m ≠ l ++ [versionName] := by
    rintro rfl
    rw [hnone] at hfile
    cases hfile
  rw [(openFiles_unversioned ho hnone version).2, Disk.read?_eq,
    (recordVersion_keeps s.disk root version).resolve? hm, Option.bind_some,
    file?_recordVersion ho rfl hne, hfile]

theorem recordSucceeds_of_unversioned (ho : d.Opens root l) (hnode : d.node? (l ++ [versionName]) = none)
    (hv : Disk.validPath (Path.join root versionName) = true) (version : String) :
    recordSucceeds d root version = true := by
  have hvalid : Disk.validPath root = true := by
    apply Disk.validPath_of_prefix ?_ hv
    rw [← String.ofList_toList (s := versionName), Path.toList_join isName_version]
    exact (Path.prefix_directoryText root).trans (List.prefix_append _ _)
  have hpath : d.resolve? (Path.join root versionName) = some (l ++ [versionName]) := by
    rw [← String.ofList_toList (s := versionName)] at hv ⊢
    exact (ho.resolve?_join isName_version).2 ⟨hv, by decide, rfl⟩
  have hdirectory : d.isDirectory (l ++ [versionName]) = false := by
    rw [Disk.isDirectory, hnode]
    rfl
  obtain ⟨e, he, -⟩ := Disk.write?_eq_some hpath hdirectory version.toUTF8
  simp only [recordSucceeds, ho.makeDirectory hvalid, he, Option.isSome_some]

/-- A directory that is opened for its own version is left as it is. -/
theorem openFiles_same (hc : s.cache = .files root) (hv : version? s.disk root = some v) :
    openFiles s root v = s := by
  rw [openFiles, hv]
  simp only [if_true]
  rw [← hc]

/-- A directory that is opened for another version loses its files, and is one of that version. -/
theorem openFiles_other (hv : version? s.disk root = some v) (hne : version ≠ v)
    (h : openSucceeds s.disk root version = true) :
    (∀ key, IsKey key → (openFiles s root version).get? key = none) ∧
      (openFiles s root version).get? versionName = some version.toUTF8 := by
  have hopen : openFiles s root version =
      ⟨recordVersion (s.disk.removeTree root) root version, .files root⟩ := by
    rw [openFiles, hv]
    simp only [if_neg (Ne.symm hne)]
  obtain ⟨hremoved, hrecorded⟩ : removeTreeSucceeds s.disk root = true ∧
      recordSucceeds (s.disk.removeTree root) root version = true := by
    unfold openSucceeds at h
    rw [hv] at h
    simpa [Ne.symm hne] using h
  obtain ⟨l, hl, hdirectory⟩ := (Option.any_eq_true _ _).1 (Bool.and_eq_true_iff.1 hremoved).1
  have ho : s.disk.Opens root l := Disk.opens_of_resolve? hl hdirectory
  have hw := Disk.workingDirectory_removeTree s.disk root
  rw [hopen]
  constructor
  · intro key hk
    simp only [get?, Disk.read?_eq, Option.bind_eq_none_iff]
    intro m hm
    have hkeeps := recordVersion_keeps (s.disk.removeTree root) root version
    -- the name leads where it did before, although all directories on the way may be new
    have hlocation : m = l ++ [key] :=
      ho.location (hkeeps.workingDirectory.trans hw) hk.toIsName hm
    rw [hlocation, file?_recordVersion ho hw (hk.location_ne l)]
    exact Disk.file?_removeTree hl hdirectory (List.prefix_append _ _) (by simp)
  · exact read?_recordVersion hrecorded

end Opening

/--
A directory that holds no version keeps all its files when it is opened. One that was opened without an
error stays as it is when it is opened for the same version again, whatever was put in it, and loses all
its values when it is opened for another one, which is the one that it then holds.
-/
theorem openFiles_reopens (s : Store) (root v : String) :
    (∀ l, s.disk.Opens root l → s.disk.file? (l ++ [versionName]) = none →
      (∀ path content, s.disk.read? path = some content →
        (openFiles s root v).disk.read? path = some content) ∧
      (s.disk.node? (l ++ [versionName]) = none → Disk.validPath (Path.join root versionName) = true →
        (openFiles s root v).get? versionName = some v.toUTF8)) ∧
    (openSucceeds s.disk root v = true → ∀ puts : List (String × ByteArray), (∀ p ∈ puts, IsKey p.1) →
      openFiles ((openFiles s root v).putAll puts) root v = (openFiles s root v).putAll puts ∧
      ∀ w, w ≠ v → openSucceeds ((openFiles s root v).putAll puts).disk root w = true →
        (∀ key, IsKey key → (openFiles ((openFiles s root v).putAll puts) root w).get? key = none) ∧
        (openFiles ((openFiles s root v).putAll puts) root w).get? versionName = some w.toUTF8) := by
  constructor
  · intro l ho hnone
    constructor
    · intro path content hread
      exact read?_openFiles_of_unversioned ho hnone hread
    · intro hnode hpath
      rw [(openFiles_unversioned ho hnone v).2]
      exact read?_recordVersion (recordSucceeds_of_unversioned ho hnode hpath v)
  · intro hopened puts hkeys
    obtain ⟨hc, hv⟩ := version?_putAll rfl (version?_openFiles hopened) hkeys
    constructor
    · exact openFiles_same hc hv
    · intro w hne hw
      exact openFiles_other hv hne hw

def foreignDirectory : Disk := ⟨[(["c"], .directory), (["c", "other"], .file "0".toUTF8)], []⟩

/-- A file that nobody put there stays until the directory is opened for a second version. -/
theorem openFiles_reopens_foreign :
    (openFiles ⟨foreignDirectory, .none⟩ "/c" "1").disk.read? "/c/other" = some "0".toUTF8 ∧
    (openFiles ⟨foreignDirectory, .none⟩ "/c" "1").get? versionName = some "1".toUTF8 ∧
    openFiles ((openFiles ⟨foreignDirectory, .none⟩ "/c" "1").putAll [("parser", "2".toUTF8)]) "/c" "1" =
      (openFiles ⟨foreignDirectory, .none⟩ "/c" "1").putAll [("parser", "2".toUTF8)] ∧
    (openFiles ((openFiles ⟨foreignDirectory, .none⟩ "/c" "1").putAll [("parser", "2".toUTF8)]) "/c"
      "2").get? "other" = none := by
  obtain ⟨hfresh, hagain⟩ := openFiles_reopens ⟨foreignDirectory, .none⟩ "/c" "1"
  have hopens : foreignDirectory.Opens "/c" ["c"] := by
    constructor <;> decide
  obtain ⟨hkept, hrecorded⟩ := hfresh ["c"] hopens (by decide)
  obtain ⟨hsame, hother⟩ := hagain (by decide) [("parser", "2".toUTF8)] (by decide)
  obtain ⟨hgone, -⟩ := hother "2" (by decide) (by decide)
  exact ⟨hkept "/c/other" "0".toUTF8 (by decide), hrecorded (by decide) (by decide), hsame,
    hgone "other" (by decide)⟩

end BoardMarkup.Store
