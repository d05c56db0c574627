import BoardMarkup.Markup.Attribute
import BoardMarkup.Proofs.Text.Cut
import BoardMarkup.Proofs.Text.Strip

/-! How the attributes of a tag are written, that they are read so, and when none is a hazard. -/
namespace BoardMarkup.Markup

open Text

/-- A name goes on up to a blank or the equals sign. Its first character may be any other than a blank. -/
def IsAttributeName (name : List Char) : Prop :=
  ∃ first rest, name = first :: rest ∧ isMarkupBlank first = false ∧
    ∀ c ∈ rest, c ≠ '=' ∧ isMarkupBlank c = false

structure WrittenAttribute where
  lead : List Char
  name : List Char
  gap : List Char
  space : List Char
  quote : Char
  value : List Char
  leadBlank : ∀ c ∈ lead, isMarkupBlank c = true
  isName : IsAttributeName name
  gapBlank : ∀ c ∈ gap, isMarkupBlank c = true
  spaceBlank : ∀ c ∈ space, isMarkupBlank c = true
  isQuote : quote = '"' ∨ quote = '\''
  enclosed : quote ∉ value

namespace WrittenAttribute

variable (w : WrittenAttribute)

def text : List Char :=
  w.lead ++ (w.name ++ (w.gap ++ '=' :: (w.space ++ w.quote :: (w.value ++ [w.quote]))))

end WrittenAttribute

/-- Whether a text consists of attributes, with no more than blanks behind them. -/
def Lists (cs : List Char) (ws : List WrittenAttribute) : Prop :=
  ∃ trailing, (∀ c ∈ trailing, isMarkupBlank c = true) ∧ cs = ws.flatMap WrittenAttribute.text ++ trailing

section Read

variable (earlier : List Attribute) (start : Nat) (name : List Char) {xs : List Char} {quote : Char}

theorem scanAttributes_stopped (earlier : List Attribute) (position : Nat) (f : Fault) (cs : List Char) :
    scanAttributes earlier position (.stopped f) cs = ([], some f) := by
  induction cs generalizing position with
  | nil => rfl
  | cons c cs ih => exact ih _

/-- A run of characters that a cursor takes in, one like the other. -/
theorem scanAttributes_run {k : List Char → AttributeCursor} {p : Char → Prop}
    (step : ∀ position seen c, p c → attributeStep earlier position (k seen) c = (k (c :: seen), none))
    (hx : ∀ c ∈ xs, p c) (position : Nat) (seen : List Char) : ∃ behind, ∀ ys,
      scanAttributes earlier position (k seen) (xs ++ ys) =
        scanAttributes earlier behind (k (xs.reverse ++ seen)) ys := by
  induction xs generalizing position seen with
  | nil => exact ⟨position, fun ys => rfl⟩
  | cons x xs ih =>
    obtain ⟨behind, hbehind⟩ := ih (fun c hc => hx c (.tail _ hc)) (position + x.utf8Size) (x :: seen)
    refine ⟨behind, fun ys => ?_⟩
    rw [List.cons_append, scanAttributes, step _ _ _ (hx x (by simp)), List.reverse_cons, List.append_assoc]
    exact hbehind ys

theorem read_lead (hx : ∀ c ∈ xs, isMarkupBlank c = true) (position : Nat) : ∃ behind, ∀ ys,
    scanAttributes earlier position .between (xs ++ ys) = scanAttributes earlier behind .between ys :=
  scanAttributes_run earlier (k := fun _ => .between)
    (fun _ _ _ hc => by simp [attributeStep, hc]) hx position []

theorem scanAttributes_blank (hx : ∀ c ∈ xs, isMarkupBlank c = true) (position : Nat) :
    scanAttributes earlier position .between xs = ([], none) := by
  obtain ⟨behind, hbehind⟩ := read_lead earlier hx position
  have hend := hbehind []
  rw [List.append_nil] at hend
  rw [hend]
  rfl

theorem read_name (hx : ∀ c ∈ xs, c ≠ '=' ∧ isMarkupBlank c = false) (position : Nat) (seen : List Char) :
    ∃ behind, ∀ ys, scanAttributes earlier position (.name start seen) (xs ++ ys) =
      scanAttributes earlier behind (.name start (xs.reverse ++ seen)) ys :=
  scanAttributes_run earlier (k := .name start) (fun _ _ _ hc => by simp [attributeStep, hc]) hx position seen

theorem read_gap (hx : ∀ c ∈ xs, isMarkupBlank c = true) (position : Nat) : ∃ behind, ∀ ys,
    scanAttributes earlier position (.afterName start name) (xs ++ ys) =
      scanAttributes earlier behind (.afterName start name) ys :=
  scanAttributes_run earlier (k := fun _ => .afterName start name)
    (fun _ _ _ hc => by simp [attributeStep, hc])
    hx position []

theorem read_space (hx : ∀ c ∈ xs, isMarkupBlank c = true) (position : Nat) : ∃ behind, ∀ ys,
    scanAttributes earlier position (.afterEquals start name) (xs ++ ys) =
      scanAttributes earlier behind (.afterEquals start name) ys :=
  scanAttributes_run earlier (k := fun _ => .afterEquals start name)
    (fun _ _ _ hc => by simp [attributeStep, hc])
    hx position []

theorem read_value (hx : quote ∉ xs) (position : Nat) (seen : List Char) : ∃ behind, ∀ ys,
    scanAttributes earlier position (.value quote start name seen) (xs ++ ys) =
      scanAttributes earlier behind (.value quote start name (xs.reverse ++ seen)) ys :=
  scanAttributes_run earlier (k := .value quote start name) (p := (· ≠ quote))
    (fun _ _ _ hc => by simp [attributeStep, hc]) (fun c hc he => hx (he ▸ hc)) position seen

theorem read_gap_of_name (hx : ∀ c ∈ xs, isMarkupBlank c = true) (hne : xs ≠ []) (position : Nat)
    (seen : List Char) : ∃ behind, ∀ ys, scanAttributes earlier position (.name start seen) (xs ++ ys) =
      scanAttributes earlier behind (.afterName start seen.reverse) ys := by
  cases xs with
  | nil => exact absurd rfl hne
  | cons x xs =>
    have hblank := hx x (by simp)
    have heq : x ≠ '=' := by
      rintro rfl
      cases hblank
    obtain ⟨behind, hbehind⟩ := read_gap earlier start seen.reverse (fun c hc => hx c (.tail _ hc))
      (position + x.utf8Size)
    refine ⟨behind, fun ys => ?_⟩
    rw [List.cons_append, scanAttributes, attributeStep, if_neg heq, if_pos hblank]
    exact hbehind ys

theorem read_equals (hx : ∀ c ∈ xs, isMarkupBlank c = true) (position : Nat) (seen : List Char) :
    ∃ behind, ∀ ys, scanAttributes earlier position (.name start seen) (xs ++ '=' :: ys) =
      scanAttributes earlier behind (afterEquals earlier start seen.reverse) ys := by
  by_cases hne : xs = []
  · subst hne
    exact ⟨_, fun ys => rfl⟩
  · obtain ⟨behind, hbehind⟩ := read_gap_of_name earlier start hx hne position seen
    exact ⟨behind + Char.utf8Size '=', fun ys => (hbehind _).trans rfl⟩

theorem read_quoted {value : List Char} (hx : ∀ c ∈ xs, isMarkupBlank c = true)
    (hquote : quote = '"' ∨ quote = '\'') (hvalue : quote ∉ value) (position : Nat) :
    ∃ behind, ∀ ys, scanAttributes earlier position (.afterEquals start name)
        (xs ++ quote :: (value ++ quote :: ys)) =
      (⟨name, start, value⟩ :: (scanAttributes (earlier ++ [⟨name, start, value⟩]) behind .between ys).1,
        (scanAttributes (earlier ++ [⟨name, start, value⟩]) behind .between ys).2) := by
  obtain ⟨first, hfirst⟩ := read_space earlier start name hx position
  obtain ⟨last, hlast⟩ := read_value earlier start name hvalue
    (first + quote.utf8Size) []
  have hblank : isMarkupBlank quote = false := by rcases hquote with rfl | rfl <;> decide
  refine ⟨last + quote.utf8Size, fun ys => ?_⟩
  have hopen : attributeStep earlier first (.afterEquals start name) quote =
      (.value quote start name [], none) := by
    simp [attributeStep, hblank, hquote]
  have hclose : attributeStep earlier last (.value quote start name (value.reverse ++ [])) quote =
      (.between, some ⟨name, start, value⟩) := by
    simp [attributeStep]
  rw [hfirst, scanAttributes, hopen]
  exact (hlast _).trans (by rw [scanAttributes, hclose])

end Read

section Whole

variable {earlier : List Attribute}

theorem read_declared (w : WrittenAttribute) (earlier : List Attribute) (position : Nat) :
    ∃ start behind, ∀ ys, scanAttributes earlier position .between (w.text ++ ys) =
      scanAttributes earlier behind (afterEquals earlier start w.name)
        (w.space ++ w.quote :: (w.value ++ w.quote :: ys)) := by
  obtain ⟨first, rest, hname, hfirst, hrest⟩ := w.isName
  obtain ⟨start, hstart⟩ := read_lead earlier w.leadBlank position
  obtain ⟨behindName, hbehindName⟩ := read_name earlier start hrest
    (start + first.utf8Size) [first]
  obtain ⟨behindEquals, hbehindEquals⟩ := read_equals earlier start w.gapBlank behindName
    (rest.reverse ++ [first])
  refine ⟨start, behindEquals, fun ys => ?_⟩
  have htext : w.text ++ ys = w.lead ++ (first :: (rest ++ (w.gap ++ '=' ::
      (w.space ++ w.quote :: (w.value ++ w.quote :: ys))))) := by
    simp [WrittenAttribute.text, hname]
  have hname' : (rest.reverse ++ [first]).reverse = w.name := by simp [hname]
  rw [htext, hstart, scanAttributes, attributeStep, if_neg (by simp [hfirst])]
  exact (hbehindName _).trans ((hbehindEquals _).trans (by rw [hname']))

/-- An attribute whose name no earlier one has is read as it is written. -/
theorem read_fresh (w : WrittenAttribute) (h : ∀ a ∈ earlier, a.name ≠ w.name) (position : Nat) :
    ∃ start behind, ∀ ys, scanAttributes earlier position .between (w.text ++ ys) =
      (⟨w.name, start, w.value⟩ ::
          (scanAttributes (earlier ++ [⟨w.name, start, w.value⟩]) behind .between ys).1,
        (scanAttributes (earlier ++ [⟨w.name, start, w.value⟩]) behind .between ys).2) := by
  obtain ⟨start, behindEquals, hread⟩ := read_declared w earlier position
  obtain ⟨behind, hbehind⟩ := read_quoted earlier start w.name w.spaceBlank w.isQuote w.enclosed behindEquals
  have hfind : earlier.find? (·.name == w.name) = none := by simpa using h
  refine ⟨start, behind, fun ys => ?_⟩
  rw [hread, afterEquals, hfind]
  exact hbehind ys

/-- An attribute is read as it is written, unless an earlier one has its name. -/
theorem read_attribute (w : WrittenAttribute) (earlier : List Attribute) (position : Nat) :
    (∃ f, ∀ ys, scanAttributes earlier position .between (w.text ++ ys) = ([], some f)) ∨
    ∃ start behind, ∀ ys, scanAttributes earlier position .between (w.text ++ ys) =
      (⟨w.name, start, w.value⟩ ::
          (scanAttributes (earlier ++ [⟨w.name, start, w.value⟩]) behind .between ys).1,
        (scanAttributes (earlier ++ [⟨w.name, start, w.value⟩]) behind .between ys).2) := by
  cases hfind : earlier.find? (·.name == w.name) with
  | some a =>
    obtain ⟨start, behind, hread⟩ := read_declared w earlier position
    refine .inl ⟨.repeated start a.position, fun ys => ?_⟩
    rw [hread, afterEquals, hfind]
    exact scanAttributes_stopped _ _ _ _
  | none => exact .inr (read_fresh w (by simpa using hfind) position)

/-- Attributes are read without a fault if their names differ. -/
theorem scanAttributes_snd_eq_none {cs : List Char} {ws : List WrittenAttribute} (hl : Lists cs ws)
    (hn : (earlier.map (·.name) ++ ws.map (·.name)).Nodup) (position : Nat) :
    (scanAttributes earlier position .between cs).2 = none := by
  obtain ⟨trailing, hblank, rfl⟩ := hl
  induction ws generalizing earlier position with
  | nil =>
    rw [List.flatMap_nil, List.nil_append, scanAttributes_blank earlier hblank]
  | cons w ws ih =>
    have hfresh : ∀ a ∈ earlier, a.name ≠ w.name := fun a ha =>
      (List.nodup_append.1 hn).2.2 _ (List.mem_map_of_mem ha) _ List.mem_cons_self
    obtain ⟨start, behind, hread⟩ := read_fresh w hfresh position
    rw [List.flatMap_cons, List.append_assoc, hread]
    exact ih (by simpa using hn) behind

/-- What is read without a fault is what is written. -/
theorem scanAttributes_written {cs : List Char} {ws : List WrittenAttribute}
    (hl : Lists cs ws) {position : Nat}
    (h : (scanAttributes earlier position .between cs).2 = none) :
    (scanAttributes earlier position .between cs).1.map (fun a => (a.name, a.value)) =
      ws.map fun w => (w.name, w.value) := by
  obtain ⟨trailing, hblank, rfl⟩ := hl
  induction ws generalizing earlier position with
  | nil =>
    rw [List.flatMap_nil, List.nil_append, scanAttributes_blank earlier hblank]
    rfl
  | cons w ws ih =>
    rw [List.flatMap_cons, List.append_assoc] at h ⊢
    rcases read_attribute w earlier position with ⟨f, hf⟩ | ⟨start, behind, hread⟩
    · rw [hf] at h
      cases h
    · rw [hread] at h ⊢
      rw [List.map_cons, ih h, List.map_cons]

theorem exists_run (p : Char → Bool) (cs : List Char) : ∃ run rest, cs = run ++ rest ∧
    (∀ c ∈ run, p c = true) ∧ (rest = [] ∨ ∃ c tail, rest = c :: tail ∧ p c = false) := by
  refine ⟨cs.takeWhile p, cs.dropWhile p, List.takeWhile_append_dropWhile.symm,
    fun c hc => List.mem_takeWhile_imp hc, ?_⟩
  cases hrest : cs.dropWhile p with
  | nil => exact .inl rfl
  | cons c tail =>
    have hfirst : (cs.dropWhile p).head? = some c := by rw [hrest, List.head?_cons]
    exact .inr ⟨c, tail, rfl, head?_dropWhile hfirst⟩

private theorem exists_equals {position start : Nat} {seen cs : List Char}
    (h : (scanAttributes earlier position (.name start seen) cs).2 = none) :
    ∃ more gap rest behind name, cs = more ++ (gap ++ '=' :: rest) ∧
      (∀ c ∈ more, c ≠ '=' ∧ isMarkupBlank c = false) ∧ (∀ c ∈ gap, isMarkupBlank c = true) ∧
      (scanAttributes earlier behind (.afterEquals start name) rest).2 = none := by
  obtain ⟨more, rest, rfl, hmore, hrest⟩ := exists_run (fun c => c != '=' && !isMarkupBlank c) cs
  have hmore : ∀ c ∈ more, c ≠ '=' ∧ isMarkupBlank c = false := fun c hc => by simpa using hmore c hc
  obtain ⟨behindName, hname⟩ := read_name earlier start hmore position seen
  rw [hname] at h
  obtain ⟨gap, rest, rfl, hgap, htail⟩ := exists_run isMarkupBlank rest
  -- whatever stands behind the name and its blanks, only the equals sign is no fault
  have hequals : ∃ tail, rest = '=' :: tail := by
    by_cases hne : gap = []
    · subst hne
      rcases hrest with hrest | ⟨c, tail, hrest, hc⟩
      · rw [hrest] at h
        cases h
      · rcases htail with rfl | ⟨d, tail', rfl, hd⟩
        · cases hrest
        · rw [List.nil_append, List.cons.injEq] at hrest
          obtain ⟨rfl, rfl⟩ := hrest
          exact ⟨tail', by simpa [hd] using hc⟩
    · obtain ⟨behind, hbehind⟩ := read_gap_of_name earlier start hgap hne behindName
        (more.reverse ++ seen)
      rw [hbehind] at h
      rcases htail with rfl | ⟨d, tail, rfl, hd⟩
      · cases h
      · by_cases heq : d = '='
        · exact ⟨tail, by rw [heq]⟩
        · rw [scanAttributes, attributeStep, if_neg (by simp [hd]), if_neg heq] at h
          simp [scanAttributes_stopped] at h
  obtain ⟨tail, rfl⟩ := hequals
  obtain ⟨behind, hbehind⟩ := read_equals earlier start hgap behindName (more.reverse ++ seen)
  rw [hbehind, afterEquals] at h
  split at h
  · rw [scanAttributes_stopped] at h
    cases h
  · exact ⟨more, gap, tail, behind, _, rfl, hmore, hgap, h⟩

private theorem exists_quoted {position start : Nat} {name cs : List Char}
    (h : (scanAttributes earlier position (.afterEquals start name) cs).2 = none) :
    ∃ space quote value rest later behind, cs = space ++ quote :: (value ++ quote :: rest) ∧
      (∀ c ∈ space, isMarkupBlank c = true) ∧ (quote = '"' ∨ quote = '\'') ∧ quote ∉ value ∧
      (scanAttributes later behind .between rest).2 = none := by
  obtain ⟨space, rest, rfl, hspace, htail⟩ := exists_run isMarkupBlank cs
  obtain ⟨behindSpace, hbehindSpace⟩ := read_space earlier start name hspace position
  have hread := h
  rw [hbehindSpace] at hread
  rcases htail with rfl | ⟨quote, rest, rfl, hblank⟩
  · cases hread
  · by_cases hquote : quote = '"' ∨ quote = '\''
    · rw [scanAttributes, attributeStep, if_neg (by simp [hblank]), if_pos hquote] at hread
      by_cases hmem : quote ∈ rest
      · obtain ⟨value, rest, rfl, hvalue⟩ := List.eq_append_cons_of_mem hmem
        obtain ⟨behind, hbehind⟩ := read_quoted earlier start name hspace hquote
          hvalue position
        rw [hbehind] at h
        exact ⟨space, quote, value, rest, _, behind, rfl, hspace, hquote, hvalue, h⟩
      · obtain ⟨behind, hbehind⟩ := read_value earlier start name hmem
          (behindSpace + quote.utf8Size) []
        have hopen := hbehind []
        rw [List.append_nil] at hopen
        dsimp only at hread
        rw [hopen] at hread
        cases hread
    · rw [scanAttributes, attributeStep, if_neg (by simp [hblank]), if_neg hquote] at hread
      simp [scanAttributes_stopped] at hread

private theorem exists_attribute {position : Nat} {cs : List Char}
    (h : (scanAttributes earlier position .between cs).2 = none) : (∀ c ∈ cs, isMarkupBlank c = true) ∨
      ∃ (w : WrittenAttribute) (rest : List Char) (later : List Attribute) (behind : Nat),
        cs = w.text ++ rest ∧
        (scanAttributes later behind .between rest).2 = none := by
  obtain ⟨lead, rest, rfl, hlead, htail⟩ := exists_run isMarkupBlank cs
  obtain ⟨start, hstart⟩ := read_lead earlier hlead position
  rw [hstart] at h
  rcases htail with rfl | ⟨first, rest, rfl, hfirst⟩
  · rw [List.append_nil]
    exact .inl hlead
  · rw [scanAttributes, attributeStep, if_neg (by simp [hfirst])] at h
    obtain ⟨more, gap, rest, behindName, name, rfl, hmore, hgap, h⟩ := exists_equals h
    obtain ⟨space, quote, value, rest, later, behind, rfl, hspace, hquote, hvalue, h⟩ := exists_quoted h
    refine .inr
      ⟨⟨lead, first :: more, gap, space, quote, value, hlead, ⟨first, more, rfl, hfirst, hmore⟩, hgap,
      hspace, hquote, hvalue⟩, rest, later, behind, ?_, h⟩
    simp [WrittenAttribute.text]

/-- A text that is read without a fault lists attributes. -/
theorem exists_lists {position : Nat} {cs : List Char}
    (h : (scanAttributes earlier position .between cs).2 = none) : ∃ ws, Lists cs ws := by
  -- an attribute is taken off whole, so the induction is on the length
  induction hn : cs.length using Nat.strongRecOn generalizing cs earlier position with
  | ind n ih =>
    rcases exists_attribute h with hblank | ⟨w, rest, later, behind, rfl, hrest⟩
    · exact ⟨[], cs, hblank, rfl⟩
    · have hlength : rest.length < n := by
        rw [← hn, List.length_append, WrittenAttribute.text]
        simp only [List.length_append, List.length_cons]
        omega
      obtain ⟨ws, trailing, hblank, rfl⟩ := ih _ hlength hrest rfl
      exact ⟨w :: ws, trailing, hblank, by rw [List.flatMap_cons, List.append_assoc]⟩

end Whole

theorem attributeProblem?_eq_none_iff {content : List Char} : attributeProblem? true content = none ↔
    (∀ a ∈ (attributes content).1, a.hazard? = none) ∧ (attributes content).2 = none := by
  rw [← List.findSome?_eq_none_iff]
  simp only [attributeProblem?, if_true]
  cases (attributes content).1.findSome? Attribute.hazard? <;> simp

theorem hazard?_eq_none_iff {a : Attribute} : a.hazard? = none ↔
    a.name.map Char.toLower ≠ "disable-output-escaping".toList ∧
      ("on".toList <+: a.name.map Char.toLower → '{' ∉ a.value) := by
  simp only [Attribute.hazard?, List.isPrefixOf_iff_prefix]
  split
  · next hraw => simp [hraw]
  · next hraw =>
    split
    · next hhandler => exact ⟨nofun, fun h => absurd hhandler.2 (h.2 hhandler.1)⟩
    · next hhandler => exact ⟨fun _ => ⟨hraw, fun hon hbrace => hhandler ⟨hon, hbrace⟩⟩, fun _ => rfl⟩

end BoardMarkup.Markup
