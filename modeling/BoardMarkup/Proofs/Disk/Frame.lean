import BoardMarkup.Proofs.Disk.Directory

/-! Directories below which names are put, and what making further directories leaves alone. -/
namespace BoardMarkup.Disk

variable {d e : Disk} {l m : Location} {name path base : String}

theorem Keeps.follow (h : d.Keeps e) (hf : d.follow l name = some m) : e.follow l name = some m := by
  have hd := (follow_eq_some hf).1
  rw [← hf, Disk.follow, Disk.follow, hd, h.directories l hd]

theorem Keeps.foldlM {names : List String} (h : d.Keeps e) (hf : names.foldlM d.follow l = some m) :
    names.foldlM e.follow l = some m := by
  induction names generalizing l with
  | nil => exact hf
  | cons name names ih =>
    obtain ⟨k, hk, hf⟩ := Option.bind_eq_some_iff.1 hf
    exact Option.bind_eq_some_iff.2 ⟨k, h.follow hk, ih hf⟩

theorem Keeps.resolve? (h : d.Keeps e) (hr : d.resolve? path = some l) : e.resolve? path = some l := by
  have ho : e.origin path = d.origin path := by rw [origin, origin, h.workingDirectory]
  unfold Disk.resolve? at hr ⊢
  split at hr
  · next hv => rw [if_pos hv, ho, h.foldlM hr]
  · cases hr

def file? (d : Disk) (l : Location) : Option ByteArray :=
  match d.node? l with
  | some (.file content) => some content
  | _ => none

theorem file?_eq_some_iff {content : ByteArray} :
    d.file? l = some content ↔ d.node? l = some (.file content) := by
  unfold file?
  split <;> simp_all

theorem file?_congr (h : e.node? l = d.node? l) : e.file? l = d.file? l := by rw [file?, file?, h]

theorem file?_set (hl : l ≠ []) (content : ByteArray) (k : Location) :
    (d.set l (.file content)).file? k = if k = l then some content else d.file? k := by
  unfold file?
  rw [node?_set hl]
  split_ifs <;> rfl

theorem not_isDirectory_of_file? {content : ByteArray} (h : d.file? l = some content) :
    d.isDirectory l = false := by
  rw [isDirectory, file?_eq_some_iff.1 h]
  rfl

theorem isSome_file? (hn : (d.node? l).isSome) (hd : d.isDirectory l = false) : (d.file? l).isSome := by
  unfold file?
  cases h : d.node? l with
  | none =>
    rw [h] at hn
    cases hn
  | some n =>
    cases n with
    | file content => rfl
    | directory => simp [isDirectory, h] at hd

theorem read?_eq (d : Disk) (path : String) : d.read? path = (d.resolve? path).bind d.file? := by
  rw [read?, find?]
  cases d.resolve? path <;> rfl

private theorem file?_enter {name : String} (h : d.enter l name = some (e, m)) (k : Location) :
    e.file? k = d.file? k := by
  unfold enter at h
  obtain ⟨n, hn, h⟩ := Option.bind_eq_some_iff.1 h
  split at h
  · cases h
    rfl
  · cases h
  · next hnone =>
    cases h
    have hne : m ≠ [] := by
      rintro rfl
      cases hnone
    by_cases hk : k = m
    · subst hk
      simp [file?, node?_set hne, hnone]
    · simp [file?, node?_set hne, hk]

private theorem file?_enterAll {names : List String} (k : Location) :
    (d.enterAll l names).1.file? k = d.file? k := by
  induction names generalizing d l with
  | nil => rfl
  | cons name names ih =>
    unfold enterAll
    split
    · next h =>
      split
      · rfl
      · rw [ih, file?_enter h]
    · rfl

theorem file?_makeDirectory (d : Disk) (path : String) (k : Location) :
    (d.makeDirectory path).1.file? k = d.file? k := by
  unfold makeDirectory
  split_ifs
  · rfl
  · exact file?_enterAll k
  · rfl

theorem read?_makeDirectory {content : ByteArray} (h : d.read? path = some content) (directory : String) :
    (d.makeDirectory directory).1.read? path = some content := by
  rw [read?_eq] at h ⊢
  obtain ⟨l, hl, hfile⟩ := Option.bind_eq_some_iff.1 h
  rw [(makeDirectory_keeps d directory).resolve? hl, Option.bind_some, file?_makeDirectory, hfile]

/-- A path leads to a directory, below which names are put. -/
structure Opens (d : Disk) (base : String) (l : Location) : Prop where
  leads : (Path.directoryNames base).foldlM d.follow (d.start base) = some l
  isDirectory : d.isDirectory l = true

theorem Opens.mono (h : d.Opens base l) (hk : d.Keeps e) : e.Opens base l := by
  refine ⟨?_, hk.directories l h.isDirectory⟩
  have hs : e.start base = d.start base := by rw [start, start, hk.workingDirectory]
  rw [hs]
  exact hk.foldlM h.leads

theorem start_eq_origin (hne : base ≠ "") : d.start base = d.origin base := by
  have hcons : base.toList ≠ [] := fun he => hne (by rw [← String.toList_inj, he]; rfl)
  rw [start, origin, Path.directoryText]
  split
  · rfl
  · cases hb : base.toList with
    | nil => exact absurd hb hcons
    | cons c cs => rfl

private theorem foldlM_empty {names : List String} (hl : names.foldlM d.follow l = some m)
    (hm : d.isDirectory m = true) : (names ++ [""]).foldlM d.follow l = some m := by
  refine (foldlM_concat names).2 ⟨m, hl, ?_⟩
  rw [follow, hm]
  rfl

theorem leads_of_resolve? (hr : d.resolve? base = some l) :
    (Path.directoryNames base).foldlM d.follow (d.start base) = some l := by
  unfold resolve? at hr
  split at hr
  · next hv =>
    rw [start_eq_origin hv.1]
    rcases Path.names_eq_or base hv.1 with hn | hn
    · rwa [hn] at hr
    · rw [hn] at hr
      obtain ⟨k, hk, hlast⟩ := (foldlM_concat _).1 hr
      rw [Disk.follow, (follow_eq_some hlast).1] at hlast
      rw [hk]
      simpa using hlast
  · cases hr

/-- A directory below which names are put is what its path leads to. -/
theorem Opens.foldlM_names (h : d.Opens base l) (hne : base ≠ "") :
    (Path.names base).foldlM d.follow (d.origin base) = some l := by
  rw [← start_eq_origin hne]
  rcases Path.names_eq_or base hne with hn | hn
  · rw [hn]
    exact h.leads
  · rw [hn]
    exact foldlM_empty h.leads h.isDirectory

theorem opens_of_resolve? (hr : d.resolve? base = some l) (hd : d.isDirectory l = true) :
    d.Opens base l :=
  ⟨leads_of_resolve? hr, hd⟩

theorem Opens.resolve?_join (h : d.Opens base l) {n : List Char} (hn : Path.IsName n) :
    d.resolve? (Path.join base (String.ofList n)) = some m ↔
      validPath (Path.join base (String.ofList n)) = true ∧ validName (String.ofList n) = true ∧
        m = l ++ [String.ofList n] := by
  rw [Disk.resolve?_join hn]
  refine and_congr_right fun _ => and_congr_right fun _ => ⟨?_, ?_⟩
  · rintro ⟨k, hk, -, rfl⟩
    rw [h.leads] at hk
    cases hk
    rfl
  · rintro rfl
    exact ⟨l, h.leads, h.isDirectory, rfl⟩

/-- What a name below a directory reads as is all that is known of a disk there. -/
theorem Opens.read?_congr (h : d.Opens base l) (hk : d.Keeps e) {n : List Char} (hn : Path.IsName n)
    (hf : e.file? (l ++ [String.ofList n]) = d.file? (l ++ [String.ofList n])) :
    e.read? (Path.join base (String.ofList n)) = d.read? (Path.join base (String.ofList n)) := by
  rw [read?_eq, read?_eq]
  cases hr : d.resolve? (Path.join base (String.ofList n)) with
  | none =>
    cases hr' : e.resolve? (Path.join base (String.ofList n)) with
    | none => rfl
    | some m =>
      rw [((h.resolve?_join hn).2 (((h.mono hk).resolve?_join hn).1 hr'))] at hr
      cases hr
  | some m =>
    obtain ⟨-, -, rfl⟩ := (h.resolve?_join hn).1 hr
    rw [hk.resolve? hr, Option.bind_some, Option.bind_some, hf]

end BoardMarkup.Disk
