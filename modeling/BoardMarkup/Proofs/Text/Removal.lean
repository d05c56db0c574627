import BoardMarkup.Proofs.Text.Find

/-! What is left of a text from which runs of characters are removed. -/
namespace BoardMarkup.Text

/-- Which characters form a run, by the text before them and the text behind them. -/
abbrev RunKind := List Char → List Char → List Char → Prop

def InRun (kind : RunKind) (cs : List Char) (i : Nat) : Prop :=
  ∃ before run rest, cs = before ++ (run ++ rest) ∧ kind before run rest ∧
    before.length ≤ i ∧ i < before.length + run.length

section Positions

variable {kind : RunKind} {cs : List Char}

private theorem inRun_iff_exists_bounds {i : Nat} :
    InRun kind cs i ↔ ∃ start ≤ i, ∃ stop ≤ cs.length, i < stop ∧
    kind (cs.take start) ((cs.take stop).drop start) (cs.drop stop) := by
  constructor
  · rintro ⟨before, run, rest, rfl, hkind, hstart, hstop⟩
    have hlength : before.length + run.length ≤ (before ++ (run ++ rest)).length := by
      simp only [List.length_append]
      omega
    refine ⟨before.length, hstart, before.length + run.length, hlength, hstop, ?_⟩
    rwa [List.take_left, ← List.append_assoc, ← List.length_append, List.take_left, List.drop_left,
      List.drop_left]
  · rintro ⟨start, hstart, stop, hlength, hstop, hkind⟩
    have htake : (cs.take stop).take start = cs.take start := by
      rw [List.take_take, Nat.min_eq_left (by omega)]
    refine ⟨_, _, _, ?_, hkind, ?_, ?_⟩
    · rw [← List.append_assoc, ← htake, List.take_append_drop, List.take_append_drop]
    · rw [List.length_take]
      omega
    · rw [List.length_drop, List.length_take, List.length_take]
      omega

instance [∀ before run rest, Decidable (kind before run rest)] (i : Nat) : Decidable (InRun kind cs i) :=
  decidable_of_iff' _ inRun_iff_exists_bounds

/-- The characters that belong to no run, in their order. -/
def outsideRuns (kind : RunKind) [∀ before run rest, Decidable (kind before run rest)]
    (cs : List Char) : List Char :=
  (cs.zipIdx.filter fun p => ¬ InRun kind cs p.2).map Prod.fst

theorem outsideRuns_eq_self [∀ before run rest, Decidable (kind before run rest)]
    (h : ∀ before run rest, cs = before ++ (run ++ rest) → ¬ kind before run rest) :
    outsideRuns kind cs = cs := by
  have hall : ∀ p ∈ cs.zipIdx, ¬ InRun kind cs p.2 := by
    rintro p - ⟨before, run, rest, he, hkind, -⟩
    exact h before run rest he hkind
  rw [outsideRuns, List.filter_eq_self.2 fun p hp => by simpa using hall p hp, List.zipIdx_map_fst]

/-- A run that reaches over a position begins before it and ends behind it. -/
theorem exists_split_of_inRun {before cs : List Char} (h : InRun kind (before ++ cs) before.length) :
    ∃ start left right rest, before = start ++ left ∧ cs = right ++ rest ∧ right ≠ [] ∧
      kind start (left ++ right) rest := by
  obtain ⟨start, run, rest, he, hkind, hstart, hstop⟩ := h
  obtain ⟨left, rfl⟩ : start <+: before :=
    List.prefix_of_prefix_length_le ⟨run ++ rest, he.symm⟩ (List.prefix_append before cs) hstart
  rw [List.append_assoc, List.append_cancel_left_eq] at he
  rw [List.length_append] at hstop
  obtain ⟨right, rfl⟩ : left <+: run :=
    List.prefix_of_prefix_length_le ⟨cs, rfl⟩ ⟨rest, he.symm⟩ (by omega)
  rw [List.append_assoc, List.append_cancel_left_eq] at he
  refine ⟨start, left, right, rest, rfl, he, ?_, hkind⟩
  rintro rfl
  simp at hstop

end Positions

def withoutFinds (f : Finder Unit) (before cs : List Char) : List Char :=
  (piecesFrom f before 0 cs).flatMap fun
    | .plain c => [c]
    | .found _ => []

theorem replaceAll_eq_withoutFinds (f : Finder Unit) (cs : List Char) :
    replaceAll f (fun _ => []) cs = withoutFinds f [] cs := by
  rw [replaceAll, pieces, withoutFinds]
  congr 1
  funext piece
  cases piece <;> rfl

/--
A finder of runs. A run is filled by characters of one class, and ends before a character of another
class.
-/
structure Finder.FindsRuns (f : Finder Unit) (kind : RunKind) (fills : Char → Bool) : Prop where
  found : ∀ before run rest, kind before run rest → f before.reverse (run ++ rest) = some ((), run.length)
  is_run : ∀ before cs n, f before cs = some ((), n) →
    ∃ run rest, cs = run ++ rest ∧ n = run.length ∧ kind before.reverse run rest
  ne_nil : ∀ before run rest, kind before run rest → run ≠ []
  filled : ∀ before run rest, kind before run rest → ∀ c ∈ run, fills c = true
  ends : ∀ before run rest, kind before run rest → ∃ c tail, rest = c :: tail ∧ fills c = false

section Runs

variable {f : Finder Unit} {kind : RunKind} {fills : Char → Bool}

theorem withoutFinds_cons_of_none {before cs : List Char} {c : Char} (h : f before (c :: cs) = none) :
    withoutFinds f before (c :: cs) = c :: withoutFinds f (c :: before) cs := by
  rw [withoutFinds, piecesFrom, h]
  rfl

private theorem withoutFinds_append_of_some {before run rest : List Char} (hne : run ≠ [])
    (h : f before (run ++ rest) = some ((), run.length)) :
    withoutFinds f before (run ++ rest) = withoutFinds f (run.reverse ++ before) rest := by
  obtain ⟨c, run, rfl⟩ := List.exists_cons_of_ne_nil hne
  rw [List.cons_append] at h ⊢
  rw [withoutFinds, piecesFrom, h]
  simp only [List.length_cons, Nat.add_sub_cancel, List.flatMap_cons, List.nil_append]
  rw [piecesFrom_skip, List.take_left, List.drop_left, List.reverse_cons, List.append_assoc,
    List.singleton_append, withoutFinds]

/-- From left to right one character stays, or a run goes. -/
@[elab_as_elim]
theorem withoutFinds_induction (h : f.FindsRuns kind fills) {motive : List Char → List Char → Prop}
    (nil : ∀ before, motive before [])
    (keep : ∀ before c cs, f before (c :: cs) = none →
      withoutFinds f before (c :: cs) = c :: withoutFinds f (c :: before) cs → motive (c :: before) cs →
      motive before (c :: cs))
    (skip : ∀ before run rest, kind before.reverse run rest →
      withoutFinds f before (run ++ rest) = withoutFinds f (run.reverse ++ before) rest →
      motive (run.reverse ++ before) rest → motive before (run ++ rest))
    (before cs : List Char) : motive before cs := by
  -- a run is passed over whole, so the induction is on the length
  induction hn : cs.length using Nat.strongRecOn generalizing before cs with
  | ind n ih =>
    cases cs with
    | nil => exact nil before
    | cons c cs =>
      cases hf : f before (c :: cs) with
      | none =>
        exact keep before c cs hf (withoutFinds_cons_of_none hf) (ih cs.length (by simp [← hn]) _ cs rfl)
      | some result =>
        obtain ⟨run, rest, he, hlength, hkind⟩ := h.is_run before (c :: cs) result.2 hf
        have hne : run ≠ [] := h.ne_nil _ _ _ hkind
        have hpos : 0 < run.length := List.length_pos_iff.2 hne
        have hshort : rest.length < n := by
          rw [← hn, he, List.length_append]
          omega
        have hfound : f before (run ++ rest) = some ((), run.length) := by
          rw [← he, hf, ← hlength]
        rw [he]
        exact skip before run rest hkind (withoutFinds_append_of_some hne hfound) (ih _ hshort _ rest rfl)

/-- No run reaches over the border between two parts of a text. -/
def Apart (kind : RunKind) (before cs : List Char) : Prop :=
  ∀ start left right rest, before = start ++ left → cs = right ++ rest → right ≠ [] →
    kind start (left ++ right) rest → left = []

/-- Where no run reaches over the border, one is found there just when the next character belongs to one. -/
theorem Apart.inRun_iff (h : f.FindsRuns kind fills) {before cs : List Char}
    (ha : Apart kind before.reverse cs) :
    InRun kind (before.reverse ++ cs) before.length ↔ (f before cs).isSome := by
  constructor
  · intro hin
    rw [← List.length_reverse] at hin
    obtain ⟨start, left, right, rest, hbefore, rfl, hne, hkind⟩ := exists_split_of_inRun hin
    obtain rfl := ha start left right rest hbefore rfl hne hkind
    rw [List.append_nil] at hbefore
    rw [List.nil_append, ← hbefore] at hkind
    have hfound := h.found _ _ _ hkind
    rw [List.reverse_reverse] at hfound
    rw [hfound]
    rfl
  · intro hsome
    obtain ⟨result, hf⟩ := Option.isSome_iff_exists.1 hsome
    obtain ⟨run, rest, rfl, -, hkind⟩ := h.is_run before cs result.2 hf
    have hpos : 0 < run.length := List.length_pos_iff.2 (h.ne_nil _ _ _ hkind)
    exact ⟨before.reverse, run, rest, rfl, hkind, by simp, by simp [hpos]⟩

theorem Apart.keep (h : f.FindsRuns kind fills) {before cs : List Char} {c : Char}
    (ha : Apart kind before.reverse (c :: cs)) (hf : f before (c :: cs) = none) :
    Apart kind (c :: before).reverse cs := by
  intro start left right rest hbefore hcs hne hkind
  rcases List.eq_nil_or_concat left with rfl | ⟨left, d, rfl⟩
  · rfl
  · -- the run would reach over the border before `c`, so it would begin there and be found
    rw [List.concat_eq_append] at hbefore hkind
    rw [List.reverse_cons, ← List.append_assoc] at hbefore
    obtain ⟨hstart, hd⟩ := List.append_inj' hbefore rfl
    obtain rfl : c = d := by simpa using hd
    rw [List.append_assoc, List.singleton_append] at hkind
    obtain rfl := ha start left (c :: right) rest hstart (by rw [hcs, List.cons_append]) (by simp) hkind
    rw [List.append_nil] at hstart
    rw [List.nil_append, ← hstart] at hkind
    have hfound := h.found _ _ _ hkind
    rw [List.reverse_reverse, List.cons_append, ← hcs, hf] at hfound
    cases hfound

theorem Apart.skip (h : f.FindsRuns kind fills) {before run rest : List Char} (hkind : kind before run rest) :
    Apart kind (before ++ run) rest := by
  obtain ⟨c, tail, rfl, hc⟩ := h.ends _ _ _ hkind
  intro start left right tail _ hrest hne hother
  obtain ⟨d, right, rfl⟩ := List.exists_cons_of_ne_nil hne
  have hd : fills d = true := h.filled _ _ _ hother d (by simp)
  obtain rfl := (List.cons.inj hrest).1
  rw [hc] at hd
  cases hd

/-- What a finder of runs leaves are the characters outside of runs. -/
theorem withoutFinds_eq [∀ before run rest, Decidable (kind before run rest)] (h : f.FindsRuns kind fills)
    {before cs : List Char} (ha : Apart kind before.reverse cs) : withoutFinds f before cs =
      ((cs.zipIdx before.length).filter fun p => ¬ InRun kind (before.reverse ++ cs) p.2).map Prod.fst := by
  induction before, cs using withoutFinds_induction h with
  | nil before => rfl
  | keep before c cs hf he ih =>
    have hout : ¬ InRun kind (before.reverse ++ c :: cs) before.length := by
      rw [ha.inRun_iff h, hf]
      simp
    rw [he, ih (ha.keep h hf), List.zipIdx_cons, List.filter_cons_of_pos (by simpa using hout), List.map_cons]
    simp
  | skip before run rest hkind he ih =>
    have hin : ∀ p ∈ run.zipIdx before.length, InRun kind (before.reverse ++ (run ++ rest)) p.2 := by
      intro p hp
      refine ⟨before.reverse, run, rest, rfl, hkind, ?_, ?_⟩
      · simpa using List.le_snd_of_mem_zipIdx hp
      · simpa using List.snd_lt_add_of_mem_zipIdx hp
    have hnone : (run.zipIdx before.length).filter
        (fun p => ¬ InRun kind (before.reverse ++ (run ++ rest)) p.2) = [] := by
      rw [List.filter_eq_nil_iff]
      intro p hp
      simpa using hin p hp
    have hrest : Apart kind (run.reverse ++ before).reverse rest := by
      rw [List.reverse_append, List.reverse_reverse]
      exact Apart.skip h hkind
    rw [he, ih hrest, List.zipIdx_append, List.filter_append, hnone, List.nil_append]
    simp [Nat.add_comm]

theorem replaceAll_eq_outsideRuns [∀ before run rest, Decidable (kind before run rest)]
    (h : f.FindsRuns kind fills) (cs : List Char) :
    replaceAll f (fun _ => []) cs = outsideRuns kind cs := by
  have hstart : Apart kind ([] : List Char).reverse cs := by
    intro start left right rest hbefore
    exact fun _ _ _ => (List.append_eq_nil_iff.1 hbefore.symm).2
  rw [replaceAll_eq_withoutFinds, withoutFinds_eq h hstart]
  rfl

/-- A text before which no run begins keeps its first character. -/
theorem head?_outsideRuns [∀ before run rest, Decidable (kind before run rest)]
    (h : ∀ run rest, ¬ kind [] run rest) (cs : List Char) : (outsideRuns kind cs).head? = cs.head? := by
  cases cs with
  | nil => rfl
  | cons c cs =>
    have hout : ¬ InRun kind (c :: cs) 0 := by
      rintro ⟨before, run, rest, -, hkind, hstart, -⟩
      obtain rfl := List.length_eq_zero_iff.1 (Nat.le_zero.1 hstart)
      exact h run rest hkind
    rw [outsideRuns, List.zipIdx_cons, List.filter_cons_of_pos (by simpa using hout)]
    rfl

/-- A text behind which no run ends keeps its last character. -/
theorem getLast?_outsideRuns [∀ before run rest, Decidable (kind before run rest)]
    (h : ∀ before run, ¬ kind before run []) (cs : List Char) :
    (outsideRuns kind cs).getLast? = cs.getLast? := by
  rcases List.eq_nil_or_concat cs with rfl | ⟨cs, d, rfl⟩
  · rfl
  · rw [List.concat_eq_append]
    have hout : ¬ InRun kind (cs ++ [d]) cs.length := by
      rintro ⟨before, run, rest, he, hkind, -, hstop⟩
      have hlength := congrArg List.length he
      simp only [List.length_append, List.length_singleton] at hlength
      obtain rfl := List.length_eq_zero_iff.1 (show rest.length = 0 by omega)
      exact h before run hkind
    rw [outsideRuns, List.zipIdx_append, List.filter_append, List.map_append, List.zipIdx_cons,
      List.filter_cons_of_pos (by simpa using hout)]
    simp

end Runs

end BoardMarkup.Text
