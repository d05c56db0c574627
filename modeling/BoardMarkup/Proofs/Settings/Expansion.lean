import BoardMarkup.Proofs.Table
import BoardMarkup.Proofs.Text.Mark
import BoardMarkup.Settings.Config
import Mathlib.Data.List.TakeWhile

/-! Values made of text and of references in braces, and what their expansion makes of them. -/
namespace BoardMarkup.Settings

open Text

section Steps

variable {env : Environment} {cs : List Char}

theorem bind_cons_eq_map (x : Except String (List Char)) (c : Char) :
    (x >>= fun v => pure (c :: v)) = x.map (c :: ·) := by
  cases x <;> rfl

theorem map_cons_eq_ok_iff {x : Except String (List Char)} {c d : Char} {out : List Char} :
    x.map (c :: ·) = .ok (d :: out) ↔ c = d ∧ x = .ok out := by
  cases x <;> simp [Except.map]

theorem expandFrom_eq_drop (env : Environment) (n : Nat) (cs : List Char) :
    expandFrom env n cs = expandFrom env 0 (cs.drop n) := by
  induction cs generalizing n with
  | nil => cases n <;> simp [expandFrom]
  | cons c cs ih =>
    cases n with
    | zero => rw [List.drop_zero]
    | succ n => rw [expandFrom, ih n, List.drop_succ_cons]

theorem expandFrom_cons {c : Char} (h : c ≠ '$') :
    expandFrom env 0 (c :: cs) = (expandFrom env 0 cs).map (c :: ·) := by
  rw [expandFrom.eq_def]
  simp only [if_neg h]
  exact bind_cons_eq_map _ c

/-- Of two dollars one is left. -/
theorem expandFrom_dollars (env : Environment) (cs : List Char) :
    expandFrom env 0 ('$' :: '$' :: cs) = (expandFrom env 0 cs).map ('$' :: ·) := by
  rw [expandFrom, if_pos rfl]
  exact bind_cons_eq_map _ '$'

/-- Whether a character makes something of a dollar in front of it, without a brace. -/
def activates (c : Char) : Bool := c == '$' || isNameChar c

def BeginsActive (cs : List Char) : Prop := ∃ c, cs.head? = some c ∧ activates c

private theorem expandFrom_dollar (hbrace : cs.head? ≠ some '{') (h : ¬ BeginsActive cs) :
    expandFrom env 0 ('$' :: cs) = (expandFrom env 0 cs).map ('$' :: ·) := by
  cases cs with
  | nil => rfl
  | cons c cs =>
    have hc : activates c = false := Bool.eq_false_iff.2 fun hactivates => h ⟨c, rfl, hactivates⟩
    obtain ⟨hdollar, hname⟩ : c ≠ '$' ∧ isNameChar c = false := by simpa [activates] using hc
    rw [expandFrom.eq_def]
    simp only [if_true]
    split
    · next heq => exact absurd (congrArg List.head? heq) hbrace
    · next heq => exact absurd (List.cons.inj heq).1 hdollar
    · simp only [List.takeWhile_cons, hname]
      exact bind_cons_eq_map _ '$'

theorem expandFrom_kept {c : Char} (hbrace : c = '$' → cs.head? ≠ some '{')
    (h : ¬ (c = '$' ∧ BeginsActive cs)) :
    expandFrom env 0 (c :: cs) = (expandFrom env 0 cs).map (c :: ·) := by
  by_cases hc : c = '$'
  · subst hc
    exact expandFrom_dollar (hbrace rfl) fun hactivates => h ⟨rfl, hactivates⟩
  · exact expandFrom_cons hc

theorem expandFrom_name {c : Char} (h : isNameChar c) (cs : List Char) :
    expandFrom env 0 ('$' :: c :: cs) = (do
      let v ← lookup env (c :: cs.takeWhile isNameChar)
      pure (v ++ (← expandFrom env 0 (cs.dropWhile isNameChar)))) := by
  have hdrop : (c :: cs).drop (c :: cs.takeWhile isNameChar).length = cs.dropWhile isNameChar := by
    rw [List.length_cons, List.drop_succ_cons, drop_length_takeWhile]
  rw [expandFrom.eq_def]
  simp only [if_true]
  split
  · next heq => exact absurd h (by rw [(List.cons.inj heq).1]; decide)
  · next heq => exact absurd h (by rw [(List.cons.inj heq).1]; decide)
  · simp only [List.takeWhile_cons, h, if_true]
    rw [expandFrom_eq_drop, hdrop]

theorem expandFrom_reference {inside : List Char} (h : '}' ∉ inside) (cs : List Char) :
    expandFrom env 0 ('$' :: '{' :: inside ++ '}' :: cs) = (do
      let v ← reference env inside
      pure (v ++ (← expandFrom env 0 cs))) := by
  have hinside : (inside ++ '}' :: cs).takeWhile (· != '}') = inside := by
    rw [takeWhile_append_cons (by decide), List.takeWhile_eq_self_iff]
    intro c hc
    exact bne_iff_ne.2 fun heq => h (heq ▸ hc)
  have hlength : inside.length < (inside ++ '}' :: cs).length := by
    rw [List.length_append, List.length_cons]
    omega
  have hdrop : ('{' :: (inside ++ '}' :: cs)).drop (inside.length + 2) = cs := by
    rw [List.drop_succ_cons, ← List.drop_drop, List.drop_left, List.drop_one, List.tail_cons]
  rw [List.cons_append, List.cons_append, expandFrom, if_pos rfl]
  simp only [hinside, hlength, if_true]
  rw [expandFrom_eq_drop, hdrop]

end Steps

/-- A reference in braces, by its name and by what counts when the variable is not set. -/
structure Reference where
  name : List Char
  default : Option (List Char)
  named : name ≠ []
  closed : '}' ∉ name ∧ ∀ d ∈ default, '}' ∉ d
  undivided : ¬ [':', '-'] <:+: name

namespace Reference

def inside (r : Reference) : List Char :=
  match r.default with
  | none => r.name
  | some d => r.name ++ [':', '-'] ++ d

def chars (r : Reference) : List Char := '$' :: '{' :: r.inside ++ ['}']

/-- The value of the variable, else the default. Without a default the name is the error. -/
def value (env : Environment) (r : Reference) : Except String (List Char) :=
  match env.get? (String.ofList r.name), r.default with
  | some v, _ => .ok v.toList
  | none, some d => .ok d
  | none, none => .error (String.ofList r.name)

private theorem brace_notMem_inside (r : Reference) : '}' ∉ r.inside := by
  obtain ⟨name, default, -, ⟨hname, hdefault⟩, -⟩ := r
  cases default with
  | none => exact hname
  | some d =>
    have hd : '}' ∉ d := hdefault d rfl
    simp [inside, hname, hd]

private theorem reference_inside (env : Environment) (r : Reference) :
    reference env r.inside = r.value env := by
  obtain ⟨name, default, hnamed, -, hundivided⟩ := r
  have hmark : ":-".toList = [':', '-'] := String.toList_ofList
  cases name with
  | nil => exact absurd rfl hnamed
  | cons c name =>
    cases default with
    | none =>
      have hcut : cut? ":-".toList (c :: name) = none := by rwa [hmark, cut?_eq_none_iff]
      change reference env (c :: name) = _
      simp only [reference, hcut, lookup, value]
      cases env.get? (String.ofList (c :: name)) <;> rfl
    | some d =>
      have hfirst : FirstAtEnd [':', '-'] (c :: name) := (firstAtEnd_iff_notInfix (by decide)).2 hundivided
      have hcut : cut? ":-".toList (c :: name ++ [':', '-'] ++ d) = some (c :: name, d) := by
        rw [hmark, hfirst.cut? d]
      change reference env (c :: name ++ [':', '-'] ++ d) = _
      simp only [reference, hcut, lookup, value]
      cases env.get? (String.ofList (c :: name)) <;> rfl

theorem expandFrom_chars_append (env : Environment) (r : Reference) (cs : List Char) :
    expandFrom env 0 (r.chars ++ cs) = (do
      let v ← r.value env
      pure (v ++ (← expandFrom env 0 cs))) := by
  rw [← reference_inside, ← expandFrom_reference r.brace_notMem_inside, chars, List.append_assoc,
    List.singleton_append]

theorem prefix_chars_append (r : Reference) (cs : List Char) : ['$', '{'] <+: r.chars ++ cs :=
  ⟨r.inside ++ ['}'] ++ cs, rfl⟩

theorem value_eq_error_iff {env : Environment} {r : Reference} :
    (∃ e, r.value env = .error e) ↔ r.default = none ∧ env.get? (String.ofList r.name) = none := by
  unfold value
  cases env.get? (String.ofList r.name) with
  | some v => simp
  | none => cases r.default <;> simp

end Reference

/-- A value as it is written. Between its references stands text that opens none. -/
inductive WrittenValue where
  | last (text : List Char) (plain : ¬ ['$', '{'] <:+: text)
  | before (text : List Char) (plain : ¬ ['$', '{'] <:+: text) (r : Reference) (rest : WrittenValue)

def HoldsBare (cs : List Char) : Prop := ∃ c ∈ cs, activates c ∧ ['$', c] <:+: cs

instance (cs : List Char) : Decidable (HoldsBare cs) :=
  List.decidableBEx _ cs

theorem holdsBare_cons_iff {c : Char} {cs : List Char} :
    HoldsBare (c :: cs) ↔ (c = '$' ∧ BeginsActive cs) ∨ HoldsBare cs := by
  constructor
  · rintro ⟨d, -, hd, hheld⟩
    rcases List.infix_cons_iff.1 hheld with hprefix | hheld
    · obtain ⟨hc, rest, rfl⟩ := List.cons_prefix_cons.1 hprefix
      exact .inl ⟨hc.symm, d, rfl, hd⟩
    · exact .inr ⟨d, hheld.subset (by simp), hd, hheld⟩
  · rintro (⟨rfl, d, hnext, hd⟩ | ⟨d, hmem, hd, hheld⟩)
    · obtain ⟨rest, rfl⟩ := List.head?_eq_some_iff.1 hnext
      exact ⟨d, by simp, hd, (List.prefix_append ['$', d] rest).isInfix⟩
    · exact ⟨d, List.mem_cons_of_mem _ hmem, hd, List.infix_cons hheld⟩

theorem not_holdsBare_take_one (cs : List Char) : ¬ HoldsBare (cs.take 1) := by
  rintro ⟨d, -, -, hheld⟩
  have hlength : 2 ≤ (cs.take 1).length := hheld.length_le
  rw [List.length_take] at hlength
  omega

theorem beginsActive_append_take_one {text cs : List Char} : BeginsActive (text ++ cs.take 1) ↔
    BeginsActive (text ++ cs) := by
  unfold BeginsActive
  rw [List.head?_append, List.head?_append, List.head?_take, if_neg Nat.one_ne_zero]

theorem next_ne_brace {text cs : List Char} (plain : ¬ ['$', '{'] <:+: '$' :: text)
    (hcs : cs.head? ≠ some '{') :
    (text ++ cs).head? ≠ some '{' := by
  cases text with
  | nil => exact hcs
  | cons c text =>
    intro h
    obtain rfl : c = '{' := Option.some.inj h
    exact plain (List.prefix_append ['$', '{'] text).isInfix

/-- Where nothing is made of a text's dollars, expansion leaves it, and goes on behind it. -/
theorem expandFrom_append {env : Environment} {text cs : List Char} (plain : ¬ ['$', '{'] <:+: text)
    (hcs : cs.head? ≠ some '{') (h : ¬ HoldsBare (text ++ cs.take 1)) :
    expandFrom env 0 (text ++ cs) = (expandFrom env 0 cs).map (text ++ ·) := by
  induction text with
  | nil => cases hrest : expandFrom env 0 cs <;> simp [Except.map, hrest]
  | cons c text ih =>
    rw [List.cons_append, holdsBare_cons_iff, not_or, beginsActive_append_take_one] at h
    have hbrace : c = '$' → (text ++ cs).head? ≠ some '{' := fun hc => next_ne_brace (hc ▸ plain) hcs
    rw [List.cons_append, expandFrom_kept hbrace h.1, ih (fun hheld => plain (List.infix_cons hheld)) h.2]
    cases expandFrom env 0 cs <;> rfl

def Marked (env : Environment) : Prop := ∀ name v, env.get? name = some v → v = "x"

namespace Marked

variable {env : Environment}

theorem lookup (h : Marked env) {name v : List Char} (hv : lookup env name = .ok v) : v = ['x'] := by
  unfold Settings.lookup at hv
  cases hget : env.get? (String.ofList name) with
  | none =>
    rw [hget] at hv
    cases hv
  | some value =>
    rw [hget, h _ _ hget] at hv
    exact (Except.ok.inj hv).symm

theorem expandFrom_name_ne (henv : Marked env) {c : Char} (hc : isNameChar c) (cs out : List Char) :
    expandFrom env 0 ('$' :: c :: cs) ≠ .ok ('$' :: out) := by
  intro h
  rw [expandFrom_name hc] at h
  cases hv : Settings.lookup env (c :: cs.takeWhile isNameChar) with
  | error e =>
    rw [hv] at h
    cases h
  | ok v =>
    rw [hv, henv.lookup hv] at h
    have hx : (expandFrom env 0 (cs.dropWhile isNameChar)).map ('x' :: ·) = .ok ('$' :: out) := by
      rw [← bind_cons_eq_map]
      exact h
    exact absurd (map_cons_eq_ok_iff.1 hx).1 (by decide)

end Marked

section Kept

variable {x : Except String (List Char)} {k : Nat} {c d : Char} {cs out : List Char}

theorem replicate_append_cons_self (k : Nat) (c : Char) (cs : List Char) :
    List.replicate k c ++ c :: cs = c :: (List.replicate k c ++ cs) := by
  rw [List.append_cons, ← List.replicate_succ', List.replicate_succ, List.cons_append]

private theorem eq_ok_of_map_cons (h : x.map (c :: ·) = .ok (List.replicate k d ++ c :: out)) :
    x = .ok (List.replicate k d ++ out) := by
  cases k with
  | zero => exact (map_cons_eq_ok_iff.1 h).2
  | succ k =>
    rw [List.replicate_succ, List.cons_append, map_cons_eq_ok_iff] at h
    obtain ⟨rfl, hx⟩ := h
    rw [hx, replicate_append_cons_self, List.replicate_succ, List.cons_append]

end Kept

/-- A reference does not make up for a dollar taken away in front of it. -/
theorem expandFrom_dollar_reference_ne {env : Environment} {cs out : List Char} (hcs : ['$', '{'] <+: cs)
    (hout : out.head? ≠ some '{') (k : Nat) :
    expandFrom env 0 ('$' :: cs) ≠ .ok ('$' :: (List.replicate k '$' ++ out)) := by
  intro h
  obtain ⟨body, rfl⟩ := hcs
  change expandFrom env 0 ('$' :: '$' :: '{' :: body) = _ at h
  rw [expandFrom_dollars, map_cons_eq_ok_iff, expandFrom_cons (by decide)] at h
  cases k with
  | zero =>
    cases out with
    | nil => cases hbody : expandFrom env 0 body <;> simp [hbody, Except.map] at h
    | cons c out => exact hout (congrArg some (map_cons_eq_ok_iff.1 h.2).1.symm)
  | succ k => exact absurd (map_cons_eq_ok_iff.1 h.2).1 (by decide)

/--
What expansion leaves is only left if nothing is made of the text's dollars. A pair of dollars would
have to be made up for by a dollar more in front of it, and so on, to the end of the text.
-/
theorem Marked.kept {env : Environment} (henv : Marked env) {cs out : List Char}
    (hcs : cs = [] ∨ ['$', '{'] <+: cs)
    (hfirst : ∀ k, expandFrom env 0 cs ≠ .ok (List.replicate (k + 1) '$' ++ out))
    (hout : out.head? ≠ some '{')
    {k : Nat} {text : List Char} (plain : ¬ ['$', '{'] <:+: text)
    (h : expandFrom env 0 (text ++ cs) = .ok (List.replicate k '$' ++ (text ++ out))) :
    k = 0 ∧ ¬ HoldsBare (text ++ cs.take 1) ∧ expandFrom env 0 cs = .ok out := by
  induction hlength : text.length using Nat.strong_induction_on generalizing k text with | h n ih
  cases text with
  | nil =>
    cases k with
    | zero => exact ⟨rfl, not_holdsBare_take_one cs, h⟩
    | succ k => exact absurd h (hfirst k)
  | cons c text =>
    rw [List.length_cons] at hlength
    have hplain : ¬ ['$', '{'] <:+: text := fun hheld => plain (List.infix_cons hheld)
    by_cases hactive : c = '$' ∧ BeginsActive (text ++ cs)
    · obtain ⟨rfl, d, hnext, hd⟩ := hactive
      rw [List.cons_append, List.cons_append, replicate_append_cons_self] at h
      rcases Bool.or_eq_true_iff.1 hd with hdollar | hname
      · obtain rfl : d = '$' := beq_iff_eq.1 hdollar
        cases text with
        | nil =>
          rcases hcs with rfl | hcs
          · cases hnext
          · exact absurd h (expandFrom_dollar_reference_ne hcs hout k)
        | cons e text =>
          -- one dollar for two
          obtain rfl : e = '$' := Option.some.inj hnext
          rw [List.cons_append, expandFrom_dollars, List.cons_append] at h
          have hrest := (map_cons_eq_ok_iff.1 h).2
          rw [replicate_append_cons_self, ← List.cons_append, ← List.replicate_succ] at hrest
          have hk := ih text.length (by simp at hlength; omega)
            (fun hheld => hplain (List.infix_cons hheld)) hrest rfl
          exact absurd hk.1 (Nat.succ_ne_zero k)
      · obtain ⟨rest, hrest⟩ := List.head?_eq_some_iff.1 hnext
        rw [hrest] at h
        exact absurd h (henv.expandFrom_name_ne hname rest _)
    · have hbrace : c = '$' → (text ++ cs).head? ≠ some '{' := fun hc => by
        refine next_ne_brace (hc ▸ plain) ?_
        rcases hcs with rfl | ⟨body, rfl⟩ <;> simp
      rw [List.cons_append, List.cons_append, expandFrom_kept hbrace hactive] at h
      obtain ⟨hk, hbare, hcsOut⟩ := ih text.length (by omega) hplain (eq_ok_of_map_cons h) rfl
      rw [List.cons_append, holdsBare_cons_iff, beginsActive_append_take_one]
      exact ⟨hk, fun hor => hor.elim hactive hbare, hcsOut⟩

namespace WrittenValue

def chars : WrittenValue → List Char
  | last text _ => text
  | before text _ r rest => text ++ (r.chars ++ rest.chars)

def text (w : WrittenValue) : String := String.ofList w.chars

def references : WrittenValue → List Reference
  | last _ _ => []
  | before _ _ r rest => r :: rest.references

def expanded (env : Environment) : WrittenValue → Except String (List Char)
  | last text _ => .ok text
  | before text _ r rest => do
    let v ← r.value env
    pure (text ++ (v ++ (← rest.expanded env)))

/--
Whether something is made of a dollar in the text. The dollar of the next reference counts for the one
before it.
-/
def Bare : WrittenValue → Prop
  | last text _ => HoldsBare text
  | before text _ _ rest => HoldsBare (text ++ ['$']) ∨ rest.Bare

instance decidableBare : (w : WrittenValue) → Decidable w.Bare
  | last text _ => inferInstanceAs (Decidable (HoldsBare text))
  | before text _ _ rest =>
    have := decidableBare rest
    inferInstanceAs (Decidable (HoldsBare (text ++ ['$']) ∨ rest.Bare))

theorem expanded_eq_error_iff {env : Environment} {w : WrittenValue} : (∃ e, w.expanded env = .error e) ↔
    ∃ r ∈ w.references, r.default = none ∧ env.get? (String.ofList r.name) = none := by
  induction w with
  | last text plain => simp [expanded, references]
  | before text plain r rest ih =>
    rw [references, List.exists_mem_cons_iff, ← ih, ← Reference.value_eq_error_iff, expanded]
    cases hv : r.value env with
    | error e => simp [Bind.bind, Except.bind]
    | ok v =>
      cases hrest : rest.expanded env <;> simp [Bind.bind, Except.bind, pure, Except.pure]

/-- Without a dollar that something is made of just the references are replaced. -/
theorem expandFrom_chars {env : Environment} {w : WrittenValue} (h : ¬ w.Bare) :
    expandFrom env 0 w.chars = w.expanded env := by
  induction w with
  | last text plain =>
    have hbare : ¬ HoldsBare (text ++ List.take 1 []) := by rwa [List.take_nil, List.append_nil]
    have hkept : expandFrom env 0 (text ++ []) = (expandFrom env 0 []).map (text ++ ·) :=
      expandFrom_append plain (by simp) hbare
    rw [List.append_nil] at hkept
    rw [chars, hkept, expandFrom, expanded]
    simp [Except.map]
  | before text plain r rest ih =>
    obtain ⟨hbare, hrest⟩ := not_or.1 h
    have hhead : (r.chars ++ rest.chars).head? ≠ some '{' := by
      change some '$' ≠ some '{'
      decide
    rw [chars, expandFrom_append plain hhead hbare, r.expandFrom_chars_append, ih hrest, expanded]
    cases r.value env with
    | error e => rfl
    | ok v => cases rest.expanded env <;> rfl

def marking (w : WrittenValue) : Environment :=
    .ofList (w.references.map fun r => (String.ofList r.name, "x"))

theorem marked_marking (w : WrittenValue) : Marked w.marking := by
  intro name v hv
  rw [marking, Table.get?_ofList] at hv
  obtain ⟨e, he, rfl⟩ := Option.map_eq_some_iff.1 hv
  obtain ⟨r, -, rfl⟩ := List.mem_map.1 (List.mem_reverse.1 (List.mem_of_find?_eq_some he))
  rfl

theorem get?_marking {w : WrittenValue} {r : Reference} (h : r ∈ w.references) :
    w.marking.get? (String.ofList r.name) = some "x" := by
  cases hget : w.marking.get? (String.ofList r.name) with
  | some v => rw [w.marked_marking _ _ hget]
  | none =>
    rw [marking, Table.get?_ofList, Option.map_eq_none_iff, List.find?_eq_none] at hget
    exact absurd (hget _ (List.mem_reverse.2 (List.mem_map_of_mem h))) (by simp)

/-- In a marked environment text is only left if nothing is made of its dollars. -/
theorem not_bare_of_marked {env : Environment} (henv : Marked env) {w : WrittenValue}
    (hset : ∀ r ∈ w.references, env.get? (String.ofList r.name) = some "x")
    (h : expandFrom env 0 w.chars = w.expanded env) : ¬ w.Bare := by
  induction w with
  | last text plain =>
    have htext : expandFrom env 0 (text ++ []) = .ok (List.replicate 0 '$' ++ (text ++ [])) := by
      simpa [chars, expanded] using h
    obtain ⟨-, hbare, -⟩ := henv.kept (.inl rfl) (by simp [expandFrom]) (by simp) plain htext
    rwa [List.take_nil, List.append_nil] at hbare
  | before text plain r rest ih =>
    have hset' : ∀ r ∈ rest.references, env.get? (String.ofList r.name) = some "x" := fun r' hr' =>
      hset r' (List.mem_cons_of_mem _ hr')
    have hvalue : r.value env = .ok ['x'] := by
      unfold Reference.value
      rw [hset r List.mem_cons_self]
      rfl
    have hmark : expandFrom env 0 (r.chars ++ rest.chars) = (expandFrom env 0 rest.chars).map ('x' :: ·) := by
      rw [r.expandFrom_chars_append, hvalue, ← bind_cons_eq_map]
      rfl
    cases hrest : rest.expanded env with
    | error e =>
      obtain ⟨r', hr', -, hnone⟩ := expanded_eq_error_iff.1 ⟨e, hrest⟩
      rw [hset' r' hr'] at hnone
      cases hnone
    | ok out =>
      have hfirst (k : Nat) : expandFrom env 0 (r.chars ++ rest.chars) ≠
          .ok (List.replicate (k + 1) '$' ++ 'x' :: out) := by
        rw [hmark, List.replicate_succ, List.cons_append, Ne, map_cons_eq_ok_iff]
        exact fun hx => absurd hx.1 (by decide)
      rw [chars, expanded, hvalue, hrest] at h
      obtain ⟨-, hbare, hbehind⟩ :=
        henv.kept (k := 0) (.inr (r.prefix_chars_append _)) hfirst (by simp) plain h
      rw [hmark, map_cons_eq_ok_iff] at hbehind
      exact not_or.2 ⟨hbare, ih hset' (hbehind.2.trans hrest.symm)⟩

theorem infix_chars_iff {w : WrittenValue} : ['$', '{'] <:+: w.chars ↔ w.references ≠ [] := by
  cases w with
  | last text plain => simp [chars, references, plain]
  | before text plain r rest =>
    have hheld : ['$', '{'] <:+: (before text plain r rest).chars :=
      (r.prefix_chars_append rest.chars).isInfix.trans (List.suffix_append text _).isInfix
    simp [hheld, references]

/-- A value with a reference is expanded from its start to its end. -/
theorem expand_text (env : Environment) {w : WrittenValue} (h : w.references ≠ []) :
    expand env w.text = (expandFrom env 0 w.chars).map String.ofList := by
  have hcut : (cut? ['$', '{'] w.chars).isSome := by
    rw [Option.isSome_iff_ne_none, Ne, cut?_eq_none_iff, not_not, infix_chars_iff]
    exact h
  rw [expand, text, String.toList_ofList, if_pos hcut]

theorem expand_text_of_references_eq_nil (env : Environment) {w : WrittenValue} (h : w.references = []) :
    expand env w.text = (w.expanded env).map String.ofList := by
  have hcut : cut? ['$', '{'] w.chars = none := by
    rw [cut?_eq_none_iff, infix_chars_iff, not_not]
    exact h
  rw [expand, text, String.toList_ofList, hcut]
  cases w with
  | last text plain => rfl
  | before text plain r rest => cases h

end WrittenValue

theorem expandField_eq_iff {env : Environment} {field value : String} {out : Except String (List Char)} :
    expandField env field value = (out.map String.ofList).mapError (.unset field) ↔
      expand env value = out.map String.ofList := by
  unfold expandField
  cases expand env value <;> cases out <;> simp [Except.map, Except.mapError]

theorem map_ofList_inj {x y : Except String (List Char)} :
    x.map String.ofList = y.map String.ofList ↔ x = y := by
  cases x <;> cases y <;> simp [Except.map, String.ofList_inj]

def Filled (env : Environment) : Prop := ∀ name v, env.get? name = some v → v ≠ ""

theorem Marked.filled {env : Environment} (h : Marked env) : Filled env := fun name v hv => by
  rw [h name v hv]
  decide

/--
Just the references of a value are replaced, whatever the environment, if it has none or if nothing is
made of a dollar in its text, and only then. Then an error is an unset variable of a reference without a
default.
-/
theorem expands_references_only_iff (w : WrittenValue) :
    ((∀ env field, Filled env →
      expandField env field w.text = ((w.expanded env).map String.ofList).mapError (.unset field)) ↔
        w.references = [] ∨ ¬ w.Bare) ∧
    (w.references = [] ∨ ¬ w.Bare → ∀ env field, Filled env →
      ((∃ e, expandField env field w.text = .error e) ↔
      ∃ r ∈ w.references, r.default = none ∧ env.get? (String.ofList r.name) = none)) := by
  have hexpand : w.references = [] ∨ ¬ w.Bare → ∀ env field,
      expandField env field w.text = ((w.expanded env).map String.ofList).mapError (.unset field) := by
    intro h env field
    rw [expandField_eq_iff]
    by_cases hnone : w.references = []
    · exact w.expand_text_of_references_eq_nil env hnone
    · rw [w.expand_text env hnone, w.expandFrom_chars (h.resolve_left hnone)]
  refine ⟨⟨fun h => ?_, fun h env field _ => hexpand h env field⟩, fun h env field _ => ?_⟩
  · by_cases hnone : w.references = []
    · exact .inl hnone
    · have hmarked := h w.marking "" w.marked_marking.filled
      rw [expandField_eq_iff, w.expand_text _ hnone, map_ofList_inj] at hmarked
      exact .inr (w.not_bare_of_marked w.marked_marking (fun r hr => w.get?_marking hr) hmarked)
  · rw [hexpand h, ← WrittenValue.expanded_eq_error_iff]
    cases w.expanded env <;> simp [Except.map, Except.mapError]

def dataReference : Reference := ⟨['D'], none, by decide, by decide, by decide⟩

def dataEnvironment : Environment := .ofList [("D", "data")]

theorem filled_dataEnvironment : Filled dataEnvironment := by
  intro name v hv
  rw [dataEnvironment, Table.get?_ofList_eq_some_iff (List.pairwise_singleton _ _), List.mem_singleton] at hv
  rw [(Prod.mk.inj hv).2]
  decide

def loneDollars : WrittenValue :=
  .before ['$', ' '] (by decide) ⟨['E'], some ['e'], by decide, by decide, by decide⟩
    (.before ['-'] (by decide) dataReference (.last ['$'] (by decide)))

theorem expands_references_only_example : ¬ loneDollars.Bare ∧ Filled dataEnvironment ∧
    loneDollars.text = "$ $\x7bE:-e\x7d-$\x7bD\x7d$" ∧
    expandField dataEnvironment "board.url" loneDollars.text = .ok "$ e-data$" := by
  have hbare : ¬ loneDollars.Bare := by decide +kernel
  have hexpanded : loneDollars.expanded dataEnvironment = .ok "$ e-data$".toList := by decide +kernel
  have hfield := (expands_references_only_iff loneDollars).1.2 (.inr hbare) dataEnvironment "board.url"
    filled_dataEnvironment
  rw [hexpanded] at hfield
  refine ⟨hbare, filled_dataEnvironment, by decide +kernel, hfield.trans ?_⟩
  decide +kernel

def bareName : WrittenValue := .before [] (by decide) dataReference (.last ['/', '$', 'D'] (by decide))

/-- A name behind a reference, without braces, is expanded like the reference. -/
theorem bareName_is_expanded : Filled dataEnvironment ∧ bareName.text = "$\x7bD\x7d/$D" ∧
    bareName.expanded dataEnvironment = .ok "data/$D".toList ∧
    expandField dataEnvironment "board.smilies_path" bareName.text = .ok "data/data" := by
  refine ⟨filled_dataEnvironment, ?_, ?_, ?_⟩ <;> decide +kernel

end BoardMarkup.Settings
