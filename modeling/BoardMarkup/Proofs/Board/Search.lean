import BoardMarkup.Board.Publish
import BoardMarkup.Proofs.Disk.Frame
import BoardMarkup.Proofs.Disk.Removal
import BoardMarkup.Proofs.Formatter.Renderer

/-! What a search for files finds in a directory, and under which paths. -/
namespace BoardMarkup

/--
Whether a path has an empty name only behind another one, or behind the slash that starts it. Names
`.` at the start do not count, as a search that is still where it began leaves them out.
-/
def Path.Searchable (path : String) : Prop :=
  ((Path.names path).dropWhile (· == ".")).head? = some "" → path.toList.head? = some '/'

namespace Board

open Disk

variable {d : Disk} {l m : Location} {name path directory start : String}

section Search

theorem pathIn_dot (name : String) : pathIn "." name = name := if_pos rfl

theorem pathIn_of_ne (h : directory ≠ ".") (name : String) :
    pathIn directory name = Path.join directory name := if_neg h

theorem head?_ne_slash (h : '/' ∉ name.toList) : name.toList.head? ≠ some '/' :=
  fun he => h (List.mem_of_mem_head? he)

theorem toList_pathIn (hdot : path ≠ ".") (h : '/' ∉ name.toList) :
    (pathIn path name).toList = Path.directoryText path ++ name.toList := by
  rw [pathIn_of_ne hdot, Path.join, if_neg (head?_ne_slash h), Path.directoryText]
  split <;> simp

theorem slash_mem_directoryText (h : path ≠ "") : '/' ∈ Path.directoryText path := by
  rcases Path.directoryText_cases path with he | ⟨before, he⟩
  · have := (Path.prefix_directoryText path).length_le
    rw [he] at this
    exact absurd (String.toList_inj.1 (List.length_eq_zero_iff.1 (by simpa using this))) h
  · simp [he]

private theorem names_dot : Path.names "." = ["."] := by decide

theorem origin_of_noSlash (h : '/' ∉ name.toList) : d.origin name = d.workingDirectory :=
  if_neg (head?_ne_slash h)

theorem resolve?_dot : d.resolve? "." = some l ↔
    l = d.workingDirectory ∧ d.isDirectory d.workingDirectory = true := by
  rw [resolve?, if_pos (by decide), names_dot, origin_of_noSlash (by decide)]
  cases hd : d.isDirectory d.workingDirectory
  · simp [follow, hd]
  · have hf : d.follow d.workingDirectory "." = some d.workingDirectory := by simp [follow, hd]
    rw [List.foldlM_cons, hf]
    exact ⟨fun h => ⟨(Option.some.inj h).symm, rfl⟩, fun h => congrArg some h.1.symm⟩

theorem resolve?_pathIn (hp : d.resolve? path = some l) (hn : '/' ∉ name.toList)
    (hdot : path = "." → name ≠ "") : d.resolve? (pathIn path name) = some m ↔
      validPath (pathIn path name) = true ∧ d.follow l name = some m := by
  by_cases hpd : path = "."
  · subst hpd
    obtain ⟨rfl, -⟩ := resolve?_dot.1 hp
    have hnames : Path.names name = [name] := by
      rw [Path.names, Text.split_of_notMem hn, List.map_singleton, String.ofList_toList]
    rw [pathIn_dot, resolve?, hnames, origin_of_noSlash hn]
    cases hv : validPath name <;> simp [hdot rfl]
  · have hne : path ≠ "" := by
      rintro rfl
      cases hp
    have htext := toList_pathIn hpd hn
    have hslash := slash_mem_directoryText hne
    have hne' : pathIn path name ≠ "" := fun he => by
      rw [he] at htext
      rw [(List.append_eq_nil_iff.1 htext.symm).1] at hslash
      cases hslash
    have ho : d.origin (pathIn path name) = d.start path := by
      rw [origin, start, htext]
      cases hc : Path.directoryText path with
      | nil => rw [hc] at hslash; cases hslash
      | cons c cs => rfl
    have hnames : Path.names (pathIn path name) = Path.directoryNames path ++ [name] := by
      rw [Path.names, htext, Path.directoryNames]
      obtain he | ⟨before, he⟩ := Path.directoryText_cases path
      · rw [he] at hslash
        cases hslash
      · rw [he, List.append_assoc, List.singleton_append, Text.split_append_cons,
          Text.split_append_cons, Text.split_of_notMem hn, List.map_append]
        simp [Text.split]
    rw [resolve?, hnames, ho]
    cases hv : validPath (pathIn path name) with
    | false => simp
    | true =>
      rw [if_pos ⟨hne', rfl⟩, foldlM_concat, leads_of_resolve? hp]
      simp

theorem descend_eq (hp : d.resolve? path = some l) (hn : '/' ∉ name.toList)
    (hdot : path = "." → name ≠ "") (hf : d.follow l name = some m) (hm : (d.node? m).isSome)
    (hv : validPath (pathIn path name) = true) :
    descend d path name = some (pathIn path name) ∧ d.resolve? (pathIn path name) = some m := by
  have hr := (resolve?_pathIn hp hn hdot).2 ⟨hv, hf⟩
  refine ⟨?_, hr⟩
  unfold descend
  split
  · have hd := (follow_eq_some hf).1
    rw [isDirectory, beq_iff_eq] at hd
    have hfind : d.find? path = some .directory := by simp [find?, hp, hd]
    rw [hfind]
  · have hc : d.contains (pathIn path name) = true := by simpa [contains, find?, hr] using hm
    simp only [hc, if_true]

private theorem ne_dot_of_slash_mem (h : '/' ∈ path.toList) : path ≠ "." := by
  rintro rfl
  simp at h

theorem pathIn_ne_dot (hne : path ≠ "") (hdot : path ≠ ".") (hn : '/' ∉ name.toList) :
    pathIn path name ≠ "." := by
  refine ne_dot_of_slash_mem ?_
  rw [toList_pathIn hdot hn]
  exact List.mem_append_left _ (slash_mem_directoryText hne)

theorem pathIn_ne_empty (hne : path ≠ "") (hdot : path ≠ ".") (hn : '/' ∉ name.toList) :
    pathIn path name ≠ "" := by
  intro he
  have h := toList_pathIn hdot hn
  rw [he] at h
  exact absurd (slash_mem_directoryText hne) (by rw [(List.append_eq_nil_iff.1 h.symm).1]; simp)

private theorem prefix_pathIn (hdot : path ≠ ".") (hn : '/' ∉ name.toList) :
    path.toList <+: (pathIn path name).toList := by
  rw [toList_pathIn hdot hn]
  exact (Path.prefix_directoryText path).trans (List.prefix_append _ _)

/-- A search only adds to a path, once it has left the directory where it began. -/
theorem prefix_foldl_pathIn {names : List String} (hne : path ≠ "") (hdot : path ≠ ".")
    (hns : ∀ n ∈ names, '/' ∉ n.toList) : path.toList <+: (names.foldl pathIn path).toList := by
  induction names generalizing path with
  | nil => exact List.prefix_refl _
  | cons name names ih =>
    have hn := hns name (by simp)
    exact (prefix_pathIn hdot hn).trans (ih (pathIn_ne_empty hne hdot hn) (pathIn_ne_dot hne hdot hn)
      fun n hm => hns n (List.mem_cons_of_mem _ hm))

private theorem isSome_node?_of_foldlM {names : List String} (hf : names.foldlM d.follow l = some m)
    (hm : d.isDirectory m = true) : (d.node? l).isSome := by
  have hd := isDirectory_of_foldlM hf hm
  rw [isDirectory, beq_iff_eq] at hd
  simp [hd]

/-- A search from directory to directory arrives where the names lead. -/
theorem foldlM_descend {names : List String} (hp : d.resolve? path = some l)
    (hns : ∀ n ∈ names, '/' ∉ n.toList)
    (hstart : path = "." → (names.dropWhile (· == ".")).head? ≠ some "")
    (hf : names.foldlM d.follow l = some m) (hm : d.isDirectory m = true)
    (hv : validPath (names.foldl pathIn path) = true) :
    names.foldlM (descend d) path = some (names.foldl pathIn path) ∧
      d.resolve? (names.foldl pathIn path) = some m := by
  induction names generalizing path l with
  | nil =>
    cases hf
    exact ⟨rfl, hp⟩
  | cons name names ih =>
    obtain ⟨k, hk, hf⟩ := Option.bind_eq_some_iff.1 hf
    have hn := hns name (by simp)
    have hns' : ∀ n ∈ names, '/' ∉ n.toList := fun n h => hns n (List.mem_cons_of_mem _ h)
    have hne : path ≠ "" := by
      rintro rfl
      cases hp
    have hfirst : path = "." → name ≠ "" := by
      rintro rfl rfl
      exact hstart rfl rfl
    -- a step stays in the working directory, or leads to a path that all later ones continue
    have hnext : pathIn path name = "." ∨ pathIn path name ≠ "" ∧ pathIn path name ≠ "." := by
      by_cases hdot : path = "."
      · by_cases hnd : name = "."
        · exact .inl (by rw [hdot, hnd, pathIn_dot])
        · exact .inr (by rw [hdot, pathIn_dot]; exact ⟨hfirst hdot, hnd⟩)
      · exact .inr ⟨pathIn_ne_empty hne hdot hn, pathIn_ne_dot hne hdot hn⟩
    have hvalid : validPath (pathIn path name) = true := by
      rcases hnext with he | ⟨he, hd⟩
      · rw [he]
        decide
      · exact validPath_of_prefix (prefix_foldl_pathIn he hd hns') hv
    obtain ⟨hdescend, hr⟩ := descend_eq hp hn hfirst hk (isSome_node?_of_foldlM hf hm) hvalid
    rw [List.foldlM_cons, hdescend, List.foldl_cons]
    refine ih hr hns' (fun he => ?_) hf hv
    by_cases hdot : path = "."
    · have hnd : name = "." := by rwa [hdot, pathIn_dot] at he
      have := hstart hdot
      rwa [hnd, List.dropWhile_cons_of_pos (by rfl)] at this
    · exact absurd he (pathIn_ne_dot hne hdot hn)

theorem names_append_slash (directory : String) {classPrefix : String}
    (h : '/' ∉ classPrefix.toList) :
    Path.names (directory ++ "/" ++ classPrefix) = Path.names directory ++ [classPrefix] := by
  have htext : (directory ++ "/" ++ classPrefix).toList =
      directory.toList ++ '/' :: classPrefix.toList := by simp
  rw [Path.names, htext, Text.split_append_cons, Text.split_of_notMem h, List.map_append, Path.names]
  simp

/-- The path under which a search sees what it finds in a directory. -/
def searched (directory : String) : String :=
  if (Path.names directory).head? = some "" then (Path.names directory).tail.foldl pathIn "/"
  else (Path.names directory).foldl pathIn "."

theorem resolve?_slash (d : Disk) : d.resolve? "/" = some [] := by
  have hnames : Path.names "/" = ["", ""] := by decide
  have ho : d.origin "/" = [] := if_pos (by decide)
  have hf : d.follow [] "" = some [] := by simp [follow, isDirectory, node?]
  rw [resolve?, if_pos (by decide), hnames, ho]
  simp [hf]

def behind (names : List String) : List Char := names.flatMap fun n => '/' :: n.toList

theorem behind_cons (name : String) (names : List String) :
    behind (name :: names) = '/' :: name.toList ++ behind names := rfl

theorem toList_eq_of_names {first : String} {rest : List String}
    (h : Path.names path = first :: rest) : path.toList = first.toList ++ behind rest := by
  obtain ⟨part, parts, hs, hfirst, hrest⟩ := List.map_eq_cons_iff.1 h
  rw [Text.eq_of_split hs, ← hfirst, ← hrest, String.toList_ofList, behind, List.flatMap_map]
  simp

private theorem toList_pathIn_sublist (hdot : path ≠ ".") (hn : '/' ∉ name.toList) :
    List.Sublist (pathIn path name).toList (path.toList ++ '/' :: name.toList) := by
  rw [toList_pathIn hdot hn, Path.directoryText]
  split
  · exact (List.Sublist.refl _).append (List.sublist_cons_self _ _)
  · simp

theorem foldl_pathIn_sublist {names : List String} (hne : path ≠ "") (hdot : path ≠ ".")
    (hns : ∀ n ∈ names, '/' ∉ n.toList) :
    List.Sublist (names.foldl pathIn path).toList (path.toList ++ behind names) := by
  induction names generalizing path with
  | nil => simp [behind]
  | cons name names ih =>
    have hn := hns name (by simp)
    have h := ih (pathIn_ne_empty hne hdot hn) (pathIn_ne_dot hne hdot hn) fun n hm =>
      hns n (List.mem_cons_of_mem _ hm)
    rw [List.foldl_cons, behind_cons, ← List.append_assoc]
    exact h.trans ((toList_pathIn_sublist hdot hn).append_right _)

private theorem foldl_pathIn_dot_sublist {first : String} {rest : List String}
    (hns : ∀ n ∈ first :: rest, '/' ∉ n.toList)
    (hstart : ((first :: rest).dropWhile (· == ".")).head? ≠ some "") :
    List.Sublist ((first :: rest).foldl pathIn ".").toList (first.toList ++ behind rest) := by
  induction rest generalizing first with
  | nil => simp [pathIn_dot, behind]
  | cons second rest ih =>
    have hns' : ∀ n ∈ second :: rest, '/' ∉ n.toList := fun n h => hns n (List.mem_cons_of_mem _ h)
    rw [List.foldl_cons, pathIn_dot]
    by_cases hfirst : first = "."
    · subst hfirst
      rw [List.dropWhile_cons_of_pos (by rfl)] at hstart
      refine (ih hns' hstart).trans ?_
      rw [behind_cons]
      exact ((List.sublist_cons_self _ _).append_right _).trans (List.sublist_append_right _ _)
    · rw [List.dropWhile_cons_of_neg (by simpa using hfirst), List.head?_cons, Ne,
        Option.some_inj] at hstart
      exact foldl_pathIn_sublist hstart hfirst hns'

/-- A search leaves characters of a path out, and adds none. -/
theorem searched_sublist (hs : Path.Searchable path) :
    List.Sublist (searched path).toList path.toList := by
  have hns : ∀ n ∈ Path.names path, '/' ∉ n.toList := fun n h => Path.noSlash_of_mem_names h
  unfold Path.Searchable at hs
  unfold searched
  cases hnames : Path.names path with
  | nil => exact absurd (List.map_eq_nil_iff.1 hnames) (Text.split_ne_nil _ _)
  | cons first rest =>
    rw [hnames] at hns hs
    rw [toList_eq_of_names hnames] at hs ⊢
    by_cases hfirst : first = ""
    · subst hfirst
      rw [List.head?_cons, if_pos rfl, List.tail_cons, String.toList_empty, List.nil_append]
      cases rest with
      | nil => exact absurd (hs rfl) (by simp [behind])
      | cons second rest =>
        have hn := hns second (by simp)
        have hne : "/" ≠ "" := by decide
        have hdot : "/" ≠ "." := by decide
        have htext : (pathIn "/" second).toList = '/' :: second.toList := by
          rw [toList_pathIn hdot hn, Path.directoryText, if_pos (.inr (by decide))]
          rfl
        have h := foldl_pathIn_sublist (pathIn_ne_empty hne hdot hn) (pathIn_ne_dot hne hdot hn)
          fun n (hm : n ∈ rest) => hns n (by simp [hm])
        rwa [htext] at h
    · rw [List.head?_cons, if_neg (by simpa using hfirst)]
      refine foldl_pathIn_dot_sublist hns fun he => ?_
      have hhead := hs he
      cases hc : first.toList with
      | nil => exact hfirst (String.toList_inj.1 (hc.trans String.toList_empty.symm))
      | cons c cs =>
        rw [hc] at hhead
        cases hhead
        exact hns first (by simp) (by simp [hc])

private theorem sum_utf8Size_le {cs ds : List Char} (h : List.Sublist cs ds) :
    (cs.map Char.utf8Size).sum ≤ (ds.map Char.utf8Size).sum := by
  induction h with
  | slnil => exact Nat.le_refl _
  | cons c h ih =>
    rw [List.map_cons, List.sum_cons]
    omega
  | cons_cons c h ih =>
    simp only [List.map_cons, List.sum_cons]
    omega

theorem validPath_of_sublist {long : String} (h : List.Sublist path.toList long.toList)
    (hv : validPath long = true) : validPath path = true := by
  have hsize : path.utf8ByteSize ≤ long.utf8ByteSize := by
    rw [← String.ofList_toList (s := path), ← String.ofList_toList (s := long), utf8ByteSize_ofList,
      utf8ByteSize_ofList]
    exact sum_utf8Size_le h
  simp only [validPath, Bool.and_eq_true, decide_eq_true_eq, Bool.not_eq_true',
    List.contains_eq_mem, decide_eq_false_iff_not] at hv ⊢
  exact ⟨by omega, fun hm => hv.2 (h.subset hm)⟩

/-- A search for a class prefix that is one name looks into the directory itself. -/
theorem candidates_eq {classPrefix : String} (hs : Path.Searchable directory)
    (hc : '/' ∉ classPrefix.toList) (hr : d.resolve? directory = some l)
    (hd : d.isDirectory l = true) (hv : validPath (searched directory) = true) :
    candidates d directory classPrefix = listing d (searched directory) classPrefix ∧
      d.resolve? (searched directory) = some l := by
  have hns : ∀ n ∈ Path.names directory, '/' ∉ n.toList := fun n h => Path.noSlash_of_mem_names h
  have hleads : (Path.names directory).foldlM d.follow (d.origin directory) = some l := by
    unfold resolve? at hr
    split at hr
    · exact hr
    · cases hr
  rw [candidates, names_append_slash directory hc]
  unfold searched at hv ⊢
  cases hnames : Path.names directory with
  | nil => exact absurd (List.map_eq_nil_iff.1 hnames) (Text.split_ne_nil _ _)
  | cons first names =>
    rw [hnames] at hns hv hleads
    have hns' : ∀ n ∈ names, '/' ∉ n.toList := fun n h => hns n (List.mem_cons_of_mem _ h)
    by_cases hfirst : first = ""
    · subst hfirst
      have hhead : directory.toList.head? = some '/' := hs (by rw [hnames]; rfl)
      rw [origin, if_pos hhead, List.foldlM_cons] at hleads
      obtain ⟨k, hk, hleads⟩ := Option.bind_eq_some_iff.1 hleads
      obtain rfl : [] = k := by simpa [follow, isDirectory, node?] using hk
      simp only [List.head?_cons, if_true, List.tail_cons] at hv ⊢
      obtain ⟨hsearch, hresolve⟩ := foldlM_descend (resolve?_slash d) hns' (fun he => by
        exact absurd he (by decide)) hleads hd hv
      simp only [List.cons_append, List.head?_cons, if_true, List.drop_succ_cons, List.drop_zero,
        List.dropLast_concat, List.getLast?_concat, hsearch]
      exact ⟨trivial, hresolve⟩
    · have hhead : directory.toList.head? ≠ some '/' := fun he => by
        cases hcs : directory.toList with
        | nil => rw [hcs] at he; cases he
        | cons c cs =>
          rw [hcs] at he
          cases he
          rw [Path.names, hcs, Text.split, if_pos rfl] at hnames
          exact hfirst (List.cons.inj hnames).1.symm
      have hstart : ((first :: names).dropWhile (· == ".")).head? ≠ some "" := fun he =>
        hhead (hs (by rw [hnames]; exact he))
      have hfirst' : (first :: names).head? ≠ some "" := by simpa using hfirst
      rw [origin, if_neg hhead] at hleads
      have hcwd : d.isDirectory d.workingDirectory = true := by
        obtain ⟨k, hk, -⟩ := Option.bind_eq_some_iff.1 hleads
        exact (follow_eq_some hk).1
      rw [if_neg hfirst'] at hv ⊢
      obtain ⟨hsearch, hresolve⟩ := foldlM_descend (resolve?_dot.2 ⟨rfl, hcwd⟩) hns (fun _ => hstart)
        hleads hd hv
      have hhead' : (first :: names ++ [classPrefix]).head? ≠ some "" := by simpa using hfirst
      simp only [if_neg hhead', List.dropLast_concat, List.getLast?_concat, hsearch]
      exact ⟨trivial, hresolve⟩

end Search

section Listing

def namesIn (d : Disk) (l : Location) (start : String) : List String :=
  ((d.below l).filterMap fun e =>
    match e.1.drop l.length with
    | [name] => if start.toList.isPrefixOf name.toList then some name else none
    | _ => none).mergeSort (· ≤ ·)

theorem listing_eq (hr : d.resolve? directory = some l) :
    listing d directory start = (namesIn d l start).map (pathIn directory) := by
  rw [listing, hr]
  rfl

theorem entry_eq_some_iff {e : Location × Node} :
    e ∈ d.below l ∧ (match e.1.drop l.length with
      | [name] => if start.toList.isPrefixOf name.toList then some name else none
      | _ => none) = some name ↔
    e ∈ d.nodes ∧ e.1 = l ++ [name] ∧ start.toList <+: name.toList := by
  rw [below, List.mem_filter, Bool.and_eq_true, List.isPrefixOf_iff_prefix]
  constructor
  · rintro ⟨⟨hm, ⟨tail, ht⟩, -⟩, hname⟩
    rw [← ht, List.drop_left] at hname
    split at hname
    · next only =>
      split at hname
      · next hstart =>
        cases hname
        exact ⟨hm, ht.symm, List.isPrefixOf_iff_prefix.1 hstart⟩
      · cases hname
    · cases hname
  · rintro ⟨hm, hl, hstart⟩
    refine ⟨⟨hm, hl ▸ List.prefix_append _ _, by simp [hl]⟩, ?_⟩
    rw [hl, List.drop_left]
    exact if_pos (List.isPrefixOf_iff_prefix.2 hstart)

theorem mem_namesIn_iff : name ∈ namesIn d l start ↔
    (d.node? (l ++ [name])).isSome ∧ start.toList <+: name.toList := by
  rw [namesIn, List.mem_mergeSort, List.mem_filterMap, isSome_node?_iff (by simp)]
  simp only [entry_eq_some_iff]
  constructor
  · rintro ⟨⟨k, n⟩, hm, rfl, hstart⟩
    exact ⟨⟨n, hm⟩, hstart⟩
  · rintro ⟨⟨n, hm⟩, hstart⟩
    exact ⟨_, hm, rfl, hstart⟩

theorem pairwise_namesIn (h : d.Proper) : (namesIn d l start).Pairwise (· < ·) := by
  have hnodup : (namesIn d l start).Nodup := by
    refine (List.mergeSort_perm _ _).nodup_iff.2 (List.pairwise_filterMap.2 ?_)
    have hdistinct : (d.below l).Pairwise (·.1 ≠ ·.1) :=
      (List.pairwise_map.1 h.distinct).sublist List.filter_sublist
    refine hdistinct.imp_of_mem fun {e f} he hf hne a ha b hb hab => hne ?_
    obtain ⟨-, hea, -⟩ := entry_eq_some_iff.1 ⟨he, ha⟩
    obtain ⟨-, hfb, -⟩ := entry_eq_some_iff.1 ⟨hf, hb⟩
    rw [hea, hfb, hab]
  have hsorted : (namesIn d l start).Pairwise (· ≤ ·) := by
    refine (List.pairwise_mergeSort ?_ ?_ _).imp (by simp)
    · intro a b c hab hbc
      simp only [decide_eq_true_eq] at hab hbc ⊢
      exact String.le_trans hab hbc
    · intro a b
      simpa using String.le_total a b
  exact (hsorted.and hnodup).imp fun ⟨hle, hne⟩ =>
    String.not_le.1 fun hge => hne (String.le_antisymm hle hge)

end Listing
end Board
end BoardMarkup
