/-! One template for several styles, which switches on the style's number. -/
namespace BoardMarkup.Style

abbrev StyleId := UInt32

/-- Templates for the styles listed with them, and one for every other style. -/
structure Switch where
  branches : List (List StyleId × String) := []
  otherwise : String
  deriving DecidableEq

namespace Switch

/-- The template a style gets: that of the first branch which lists it. -/
def select (s : Switch) (id : StyleId) : String :=
  match s.branches.find? fun b => id ∈ b.1 with
  | some b => b.2
  | none => s.otherwise

def condition (ids : List StyleId) : String :=
  " or ".intercalate (ids.map fun id => "$STYLE_ID=" ++ toString id.toNat)

def renderBranch (b : List StyleId × String) : String :=
  "<xsl:when test=\"" ++ condition b.1 ++ "\">" ++ b.2 ++ "</xsl:when>"

/-- A switch without branches is written as its only template. -/
def render (s : Switch) : String :=
  if s.branches.isEmpty then s.otherwise
  else "<xsl:choose>" ++ String.join (s.branches.map renderBranch) ++
    "<xsl:otherwise>" ++ s.otherwise ++ "</xsl:otherwise></xsl:choose>"

/-- The different templates in the order of their first use, each with the styles that use it. -/
def variants (templates : List (StyleId × String)) : List (List StyleId × String) :=
  (templates.map (·.2)).eraseDups.map fun t =>
    ((templates.filter (·.2 == t)).map (·.1), t)

/-- Variants by descending number of styles. Those used by as many keep their order. -/
def ranked (templates : List (StyleId × String)) : List (List StyleId × String) :=
  (variants templates).mergeSort fun a b => b.1.length ≤ a.1.length

/-- The most used template serves the styles that no branch lists. Without templates there is no switch. -/
def ofTemplates? (templates : List (StyleId × String)) : Option Switch :=
  match ranked templates with
  | [] => none
  | most :: rest => some ⟨rest, most.2⟩

end Switch

def merge? (templates : List (StyleId × String)) : Option String :=
  (Switch.ofTemplates? templates).map Switch.render

end BoardMarkup.Style
