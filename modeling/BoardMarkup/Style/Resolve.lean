import BoardMarkup.Style.Bitfield
import BoardMarkup.Style.Normalizer
import BoardMarkup.Style.Recompose
import BoardMarkup.Style.Switch

/-! One template per directive from the documents of all styles. -/
namespace BoardMarkup.Style

structure Source where
  id : StyleId
  document : String
  bitfield : Bitfield

structure Rejection (ε : Type) where
  style : StyleId
  directive : Directive
  error : ε

structure Resolved where
  directive : Directive
  template : String

/-- One source for each style, where the style first occurs: the last that has its number. -/
def latest (sources : List Source) : List Source :=
  (sources.map (·.id)).eraseDups.filterMap fun id => sources.reverse.find? (·.id == id)

structure Extracted where
  id : StyleId
  bitfield : Bitfield
  fragments : Fragments

def Source.extract (m : MarkerSyntax) (s : Source) : Extracted :=
  ⟨s.id, s.bitfield, m.fragments s.document⟩

/-- The normalized template by which a style overrides a directive, if it does and activates it. -/
def Extracted.override? (n : Normalizer) (s : Extracted) (d : Directive) : Option String :=
  if s.bitfield.isActive d.name then (s.fragments.template? d).map n.normalize else none

def Directive.fallback (n : Normalizer) (d : Directive) : String := n.normalize d.template

/-- The template a style uses: its override where the check accepts it, otherwise the directive's own. -/
def Extracted.choose {ε : Type} (n : Normalizer) (check : Directive → String → Except ε Unit)
    (s : Extracted) (d : Directive) : String :=
  match s.override? n d with
  | some t => if (check d t).isOk then t else d.fallback n
  | none => d.fallback n

def Extracted.rejection? {ε : Type} (n : Normalizer) (check : Directive → String → Except ε Unit)
    (s : Extracted) (d : Directive) : Option (Rejection ε) :=
  match s.override? n d with
  | some t =>
    match check d t with
    | .ok () => none
    | .error e => some ⟨s.id, d, e⟩
  | none => none

/-- Resolves every directive, and lists the rejections by style and then by directive. -/
def resolve {ε : Type} (m : MarkerSyntax) (n : Normalizer)
    (check : Directive → String → Except ε Unit) (sources : List Source) :
    List Resolved × List (Rejection ε) :=
  let styles := (latest sources).map (·.extract m)
  let resolved := catalog.map fun d =>
    ⟨d, (merge? (styles.map fun s => (s.id, s.choose n check d))).getD (d.fallback n)⟩
  (resolved, styles.flatMap fun s => catalog.filterMap (s.rejection? n check))

end BoardMarkup.Style
