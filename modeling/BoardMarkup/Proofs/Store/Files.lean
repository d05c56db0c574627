import BoardMarkup.Proofs.Disk.Renewal
import BoardMarkup.Proofs.Disk.Temporary
import BoardMarkup.Proofs.Store

/-! A directory of files as a map from keys to values. -/
namespace BoardMarkup.Store

/-- Keys that are names of files, but not of the one that holds the version. -/
structure IsKey (key : String) : Prop extends Path.IsName key.toList where
  ne_version : key ≠ versionName

instance (key : String) : Decidable (IsKey key) :=
  decidable_of_iff (Path.IsName key.toList ∧ key ≠ versionName)
    ⟨fun ⟨hn, hv⟩ => ⟨hn, hv⟩, fun h => ⟨h.toIsName, h.ne_version⟩⟩

def temporary (key : String) : String := Path.withExtension key "tmp"

def putFileSucceeds (d : Disk) (root key : String) (content : ByteArray) : Bool :=
  let path := Path.join root key
  match Path.parent? path with
  | none => false
  | some parent =>
    match d.makeDirectory parent with
    | (d, true) => (d.replace path (Path.withExtension path "tmp") content).2
    | (_, false) => false

def putSucceeds (s : Store) (key : String) (content : ByteArray) : Bool :=
  match s.cache with
  | .files root => putFileSucceeds s.disk root key content
  | _ => true

inductive Request where
  | put (key : String) (content : ByteArray)
  | get (key : String)

def Request.key : Request → String
  | .put key _ => key
  | .get key => key

def answers (s : Store) : List Request → List (Option ByteArray)
  | [] => []
  | .put key content :: rest => answers (s.put key content) rest
  | .get key :: rest => s.get? key :: answers s rest

def succeeds (s : Store) : List Request → Bool
  | [] => true
  | .put key content :: rest => s.putSucceeds key content && succeeds (s.put key content) rest
  | .get _ :: rest => succeeds s rest

/-- The last value that was put under exactly this key, where the last one comes first. -/
def latest? (puts : List (String × ByteArray)) (key : String) : Option ByteArray :=
  (puts.find? (·.1 == key)).map (·.2)

def expected (puts : List (String × ByteArray)) : List Request → List (Option ByteArray)
  | [] => []
  | .put key content :: rest => expected ((key, content) :: puts) rest
  | .get key :: rest => latest? puts key :: expected puts rest

theorem latest?_cons (puts : List (String × ByteArray)) (key k : String) (content : ByteArray) :
    latest? ((key, content) :: puts) k = if k = key then some content else latest? puts k := by
  unfold latest?
  rw [List.find?_cons]
  by_cases hk : k = key
  · rw [if_pos hk, hk, beq_self_eq_true]
    rfl
  · have hne : (key == k) = false := beq_eq_false_iff_ne.2 (Ne.symm hk)
    rw [if_neg hk]
    simp only [hne]

section Put

variable {d : Disk} {l : Location} {root key k : String} {content : ByteArray}

theorem read?_eq_none (ho : d.Opens root l) (hk : Path.IsName k.toList)
    (hfile : d.file? (l ++ [k]) = none) : d.read? (Path.join root k) = none := by
  rw [Disk.read?_eq]
  cases hr : d.resolve? (Path.join root k) with
  | none => rfl
  | some m =>
    have hm := ho.entry_of_resolve? (.inl hk) hr
    rw [Disk.entry_of_isName hk] at hm
    rw [Option.bind_some, hm, hfile]

theorem no_slash_in_tmp : '/' ∉ "tmp".toList := by decide

theorem withExtension_join_tmp (hk : Path.IsName key.toList) :
    Path.withExtension (Path.join root key) "tmp" = Path.join root (temporary key) :=
  (Path.withExtension_name hk no_slash_in_tmp).2 root

theorem parent?_join_key (hk : Path.IsName key.toList) (root : String) :
    Path.parent? (Path.join root key) = some (Path.holder root) := by
  have hp : Path.parent? (Path.join root (String.ofList key.toList)) = some (Path.holder root) :=
    Path.parent?_join hk
  rwa [String.ofList_toList] at hp

/-- A write replaces one file, where the directory for it can be made. -/
theorem putFile_eq_replace {f : Disk} (hk : Path.IsName key.toList)
    (h : d.makeDirectory (Path.holder root) = (f, true)) (content : ByteArray) :
    putFile d root key content =
      (f.replace (Path.join root key) (Path.join root (temporary key)) content).1 := by
  unfold putFile
  simp only [parent?_join_key hk, withExtension_join_tmp hk, h]

/-- The file operations of a write, one by one. -/
theorem of_putFileSucceeds (hk : Path.IsName key.toList)
    (h : putFileSucceeds d root key content = true) : ∃ f,
    d.makeDirectory (Path.holder root) = (f, true) ∧
      f.replace (Path.join root key) (Path.join root (temporary key)) content =
        (putFile d root key content, true) := by
  unfold putFileSucceeds at h
  simp only [parent?_join_key hk, withExtension_join_tmp hk] at h
  cases hm : d.makeDirectory (Path.holder root) with
  | mk f made =>
    rw [hm] at h
    cases made with
    | false => cases h
    | true => exact ⟨f, rfl, Prod.ext (putFile_eq_replace hk hm content).symm h⟩

theorem putFile_keeps (d : Disk) (root key : String) (content : ByteArray) :
    d.Keeps (putFile d root key content) := by
  unfold putFile
  simp only
  split
  · exact .refl d
  · next parent _ =>
    have hkeeps := Disk.makeDirectory_keeps d parent
    generalize d.makeDirectory parent = made at hkeeps
    obtain ⟨f, _ | _⟩ := made
    · exact hkeeps
    · exact hkeeps.trans (Disk.frame_replace f _ _ content).1.keeps

/-- A write, whether it succeeds or not, changes its key and the temporary name, and no other file there. -/
theorem file?_putFile {name : String} (ho : d.Opens root l) (hk : Path.IsName key.toList)
    (hn : Path.IsName name.toList) (hkey : name ≠ key) (htmp : name ≠ temporary key)
    (content : ByteArray) : (putFile d root key content).file? (l ++ [name]) = d.file? (l ++ [name]) := by
  cases hmade : d.makeDirectory (Path.holder root) with
  | mk f made =>
    have hkeeps := Disk.makeDirectory_keeps d (Path.holder root)
    have hfile := Disk.file?_makeDirectory d (Path.holder root) (l ++ [name])
    rw [hmade] at hkeeps hfile
    cases made with
    | false =>
      unfold putFile
      simp only [parent?_join_key hk, hmade]
      exact hfile
    | true =>
      have hof := ho.mono hkeeps
      have hpath : f.resolve? (Path.join root key) ≠ some (l ++ [name]) := by
        intro hr
        have he := hof.entry_of_resolve? (.inl hk) hr
        rw [← Disk.entry_of_isName hn] at he
        exact hkey (Disk.entry_inj.1 he)
      have hthrough : f.resolve? (Path.join root (temporary key)) ≠ some (l ++ [name]) := by
        intro hr
        have he := hof.entry_of_resolve? (Path.withExtension_name hk no_slash_in_tmp).1 hr
        rw [← Disk.entry_of_isName hn] at he
        exact htmp (Disk.entry_inj.1 he)
      rw [putFile_eq_replace hk hmade]
      exact (Disk.file?_congr ((Disk.frame_replace f _ _ content).2 _ hpath hthrough)).trans hfile

/-- A write that succeeds sets its key, and takes what another key had if that is its temporary name. -/
theorem read?_putFile (ho : d.Opens root l) (hk : Path.IsName key.toList)
    (h : putFileSucceeds d root key content = true) :
    (putFile d root key content).Opens root l ∧
      (putFile d root key content).read? (Path.join root key) = some content ∧
      ∀ k, Path.IsName k.toList → k ≠ key →
        (putFile d root key content).read? (Path.join root k) =
          if k = temporary key then none else d.read? (Path.join root k) := by
  obtain ⟨f, hmade, hreplace⟩ := of_putFileSucceeds hk h
  obtain ⟨through, path, ht, hp, -, -, hs, hn⟩ := Disk.of_replace hreplace
  have hdf : d.Keeps f := by
    have hkeeps := Disk.makeDirectory_keeps d (Path.holder root)
    rwa [hmade] at hkeeps
  have hof : f.Opens root l := ho.mono hdf
  have hpath : path = l ++ [key] := by
    rw [hof.entry_of_resolve? (.inl hk) hp, Disk.entry_of_isName hk]
  have hthrough : through = Disk.entry l (temporary key) :=
    hof.entry_of_resolve? (Path.withExtension_name hk no_slash_in_tmp).1 ht
  refine ⟨hof.mono hs.keeps, ?_, fun k hk' hne => ?_⟩
  · rw [Disk.read?_eq, hs.resolve?, hp, Option.bind_some, Disk.file?_eq_some_iff, hn, if_pos rfl]
  · by_cases htmp : k = temporary key
    · have hother : l ++ [k] ≠ path := by
        rw [hpath]
        intro he
        exact hne (by simpa using he)
      have hgone : (putFile d root key content).file? (l ++ [k]) = none := by
        have hnode := hn (l ++ [k])
        rw [if_neg hother, if_pos (by rw [hthrough, ← htmp, Disk.entry_of_isName hk'])] at hnode
        rw [Disk.file?, hnode]
      rw [if_pos htmp]
      exact read?_eq_none (hof.mono hs.keeps) hk' hgone
    · have hkept := file?_putFile ho hk hk' hne htmp content
      rw [if_neg htmp]
      rw [← String.ofList_toList (s := k)] at hkept ⊢
      exact ho.read?_congr (putFile_keeps d root key content) hk' hkept

theorem isName_version : Path.IsName versionName.toList := by decide

theorem recordVersion_keeps (d : Disk) (root version : String) : d.Keeps (recordVersion d root version) := by
  unfold recordVersion
  have hkeeps := Disk.makeDirectory_keeps d root
  generalize d.makeDirectory root = made at hkeeps
  obtain ⟨f, _ | _⟩ := made
  · exact hkeeps
  · simp only
    cases hw : f.write? (Path.join root versionName) version.toUTF8 with
    | none => exact hkeeps
    | some g =>
      obtain ⟨-, -, -, hs, -⟩ := Disk.of_write? hw
      exact hkeeps.trans hs.keeps

/-- Recording a version makes no file but the one that holds it, also in a directory that was renewed. -/
theorem file?_recordVersion {e : Disk} {m : Location} (ho : d.Opens root l)
    (hw : e.workingDirectory = d.workingDirectory) (hm : m ≠ l ++ [versionName]) (version : String) :
    (recordVersion e root version).file? m = e.file? m := by
  unfold recordVersion
  have hkeeps := Disk.makeDirectory_keeps e root
  have hfile := Disk.file?_makeDirectory e root
  generalize e.makeDirectory root = made at hkeeps hfile
  obtain ⟨f, _ | _⟩ := made
  · exact hfile m
  · simp only
    cases hwrite : f.write? (Path.join root versionName) version.toUTF8 with
    | none => exact hfile m
    | some g =>
      obtain ⟨k, hk, -, -, hn⟩ := Disk.of_write? hwrite
      have hne : m ≠ k := by
        rw [ho.location (hkeeps.workingDirectory.trans hw) isName_version hk]
        exact hm
      have hnode := hn m
      rw [if_neg hne] at hnode
      exact (Disk.file?_congr hnode).trans (hfile m)

theorem IsKey.location_ne (hk : IsKey k) (l : Location) : l ++ [k] ≠ l ++ [versionName] :=
  fun he => hk.ne_version (by simpa using he)

/-- A directory without the file for it has no version, and opening it only records one. -/
theorem openFiles_unversioned {s : Store} (ho : s.disk.Opens root l)
    (hnone : s.disk.file? (l ++ [versionName]) = none) (version : String) :
    version? s.disk root = none ∧
      openFiles s root version = ⟨recordVersion s.disk root version, .files root⟩ := by
  have hfresh : version? s.disk root = none := by
    rw [version?, read?_eq_none ho isName_version hnone]
    rfl
  refine ⟨hfresh, ?_⟩
  rw [openFiles, hfresh]

theorem openFiles_empty {s : Store} (ho : s.disk.Opens root l)
    (hempty : ∀ name, s.disk.node? (l ++ [name]) = none) (version : String) :
    (openFiles s root version).cache = .files root ∧ (openFiles s root version).disk.Opens root l ∧
      ∀ k, IsKey k → (openFiles s root version).disk.read? (Path.join root k) = none := by
  have hnone : ∀ k, s.disk.file? (l ++ [k]) = none := fun k => by rw [Disk.file?, hempty]
  have hopen := (openFiles_unversioned ho (hnone versionName) version).2
  have hopens := ho.mono (recordVersion_keeps s.disk root version)
  rw [hopen]
  refine ⟨rfl, hopens, fun k hk => read?_eq_none hopens hk.toIsName ?_⟩
  rw [file?_recordVersion ho rfl (hk.location_ne l), hnone]

end Put

/-- A directory of files holds what was last put under each of these keys. -/
structure HoldsLatest (s : Store) (root : String) (l : Location) (keys : String → Prop)
    (puts : List (String × ByteArray)) : Prop where
  cache : s.cache = .files root
  opens : s.disk.Opens root l
  reads : ∀ k, keys k → s.disk.read? (Path.join root k) = latest? puts k

section Answers

variable {s : Store} {root : String} {l : Location} {keys : String → Prop}
  {puts : List (String × ByteArray)} {key : String} {content : ByteArray}

/-- A write keeps that up, if its temporary file is not the file of another key. -/
theorem HoldsLatest.put (h : HoldsLatest s root l keys puts) (hk : Path.IsName key.toList)
    (hkeys : ∀ k, keys k → Path.IsName k.toList) (hw : s.putSucceeds key content = true)
    (hfree : ∀ k, keys k → k ≠ key → k ≠ temporary key) :
    HoldsLatest (s.put key content) root l keys ((key, content) :: puts) := by
  obtain ⟨d, cache⟩ := s
  obtain ⟨hc, ho, hreads⟩ := h
  cases hc
  obtain ⟨hopens, hself, hothers⟩ := read?_putFile ho hk hw
  refine ⟨rfl, hopens, fun k hkey => ?_⟩
  rw [latest?_cons]
  by_cases he : k = key
  · rw [if_pos he, he]
    exact hself
  · rw [if_neg he, ← hreads k hkey]
    have hother := hothers k (hkeys k hkey) he
    rwa [if_neg (hfree k hkey he)] at hother

private theorem answers_eq_expected {requests : List Request} (h : HoldsLatest s root l keys puts)
    (hkeys : ∀ k, keys k → Path.IsName k.toList) (hr : ∀ r ∈ requests, keys r.key)
    (hw : s.succeeds requests = true)
    (hfree : ∀ key content, .put key content ∈ requests → ∀ k, keys k → k ≠ key → k ≠ temporary key) :
    s.answers requests = expected puts requests := by
  induction requests generalizing s puts with
  | nil => rfl
  | cons r rest ih =>
    have hrest : ∀ r ∈ rest, keys r.key := fun r hm => hr r (List.mem_cons_of_mem _ hm)
    have hfree' : ∀ key content, .put key content ∈ rest → ∀ k, keys k → k ≠ key → k ≠ temporary key :=
      fun key content hm => hfree key content (List.mem_cons_of_mem _ hm)
    have hkey := hr r List.mem_cons_self
    cases r with
    | put key content =>
      obtain ⟨hput, hwrest⟩ := Bool.and_eq_true_iff.1 hw
      exact ih (h.put (hkeys key hkey) hkeys hput (hfree key content List.mem_cons_self)) hrest hwrest
        hfree'
    | get key =>
      have hget : s.get? key = latest? puts key := by
        rw [← h.reads key hkey, get?, h.cache]
      rw [answers, expected, hget, ih h hrest hw hfree']

private theorem answers_memory {entries : Table ByteArray} (hm : s.cache = .memory entries)
    (hreads : ∀ k, entries.get? k = latest? puts k) (requests : List Request) :
    s.answers requests = expected puts requests := by
  induction requests generalizing s entries puts with
  | nil => rfl
  | cons r rest ih =>
    cases r with
    | put key content =>
      have hput : (s.put key content).cache = .memory (entries.insert key content) := by
        rw [Store.put, hm]
      refine ih hput fun k => ?_
      rw [Table.get?_insert, latest?_cons, hreads]
    | get key =>
      have hget : s.get? key = latest? puts key := by
        rw [← hreads, get?, hm]
      rw [answers, expected, hget, ih hm hreads]

end Answers

/--
While all writes succeed, a directory that was empty when it was opened returns what was last put under
exactly the key, as a cache in memory does. No key is the temporary name of another one that is put.
-/
theorem files_answer_as_map (s : Store) (root version : String) (l : Location)
    (ho : s.disk.Opens root l) (hempty : ∀ name, s.disk.node? (l ++ [name]) = none)
    (requests : List Request) (hkeys : ∀ r ∈ requests, IsKey r.key)
    (hw : (openFiles s root version).succeeds requests = true)
    (hfree : ∀ key content, .put key content ∈ requests → ∀ r ∈ requests, r.key ≠ key →
      r.key ≠ temporary key) :
    (openFiles s root version).answers requests = expected [] requests ∧
      (Store.mk {} (.memory .empty)).answers requests = expected [] requests := by
  obtain ⟨hc, hopens, hreads⟩ := openFiles_empty ho hempty version
  let keys : String → Prop := fun k => ∃ r ∈ requests, r.key = k
  have hnames : ∀ k, keys k → IsKey k := by
    rintro k ⟨r, hr, rfl⟩
    exact hkeys r hr
  have hstart : HoldsLatest (openFiles s root version) root l keys [] :=
    ⟨hc, hopens, fun k hk => hreads k (hnames k hk)⟩
  constructor
  · apply answers_eq_expected hstart (fun k hk => (hnames k hk).toIsName) (fun r hr => ⟨r, hr, rfl⟩) hw
    rintro key content hm k ⟨r, hr, rfl⟩
    exact hfree key content hm r hr
  · have hm : (Store.mk {} (.memory .empty)).cache = .memory .empty := rfl
    exact answers_memory hm (fun k => rfl) requests

def emptyDirectory : Disk := ⟨[(["c"], .directory)], []⟩

theorem opens_emptyDirectory : emptyDirectory.Opens "/c" ["c"] := by
  constructor <;> decide

private theorem nothing_in_emptyDirectory (name : String) :
    emptyDirectory.node? (["c"] ++ [name]) = none := by
  simp [emptyDirectory, Disk.node?]

def exampleRequests : List Request :=
  [.put "parser" "1".toUTF8, .put "renderer" "2".toUTF8, .put "parser" "3".toUTF8, .get "parser",
    .get "renderer", .get "other"]

theorem files_answer_as_map_example :
    (openFiles ⟨emptyDirectory, .none⟩ "/c" "1").succeeds exampleRequests = true ∧
      (openFiles ⟨emptyDirectory, .none⟩ "/c" "1").answers exampleRequests =
        [some "3".toUTF8, some "2".toUTF8, none] := by
  have hw : (openFiles ⟨emptyDirectory, .none⟩ "/c" "1").succeeds exampleRequests = true := by
    decide
  have hkeys : ∀ r ∈ exampleRequests, IsKey r.key := by decide
  have hfree : ∀ key content, .put key content ∈ exampleRequests → ∀ r ∈ exampleRequests,
      r.key ≠ key → r.key ≠ temporary key := by
    have htmp : ∀ q ∈ exampleRequests, ∀ r ∈ exampleRequests, r.key ≠ temporary q.key := by
      decide
    exact fun key content hm r hr _ => htmp _ hm r hr
  obtain ⟨hfiles, -⟩ := files_answer_as_map ⟨emptyDirectory, .none⟩ "/c" "1" ["c"]
    opens_emptyDirectory nothing_in_emptyDirectory exampleRequests hkeys hw hfree
  refine ⟨hw, hfiles.trans ?_⟩
  decide

/-- A key that is also the temporary name of the key that is put after it. -/
def hiddenRequests : List Request :=
  [.put "a.tmp" "1".toUTF8, .put "a" "2".toUTF8, .get "a.tmp"]

/-- The second write succeeds, and takes the first value away. -/
theorem hiddenKey_is_lost : (∀ r ∈ hiddenRequests, IsKey r.key) ∧
    (openFiles ⟨emptyDirectory, .none⟩ "/c" "1").succeeds hiddenRequests = true ∧
    (openFiles ⟨emptyDirectory, .none⟩ "/c" "1").answers hiddenRequests = [none] ∧
    expected [] hiddenRequests = [some "1".toUTF8] := by
  decide

end BoardMarkup.Store
