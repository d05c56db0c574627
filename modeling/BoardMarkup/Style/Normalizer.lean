import BoardMarkup.Text.Trim
import BoardMarkup.Text.Pieces
import BoardMarkup.Text.Classes

/-! Normalization of templates, so that templates which differ in formatting alone become equal. -/
namespace BoardMarkup.Style

open Text

inductive Pass where
  | removeComments
  | transposeComments
  | removeInterElementWhitespace
  deriving DecidableEq

def comment : Finder (List Char) := fun _ cs => do
  let inside ← after? "<!--".toList cs
  let (body, _) ← cut? "-->".toList inside
  pure (body, 4 + body.length + 3)

/--
Blanks with a line break among them that fill the space between two tags, unless the first opens
`xsl:text`.
-/
def elementSpace : Finder Unit := fun before cs =>
  let run := cs.takeWhile isMarkupBlank
  if before.head? = some '>' ∧ '\n' ∈ run ∧ (cs.drop run.length).head? = some '<' ∧
      after? "<xsl:text>".toList.reverse before = none then
    some ((), run.length)
  else none

def Pass.apply (p : Pass) (cs : List Char) : List Char :=
  match p with
  | .removeComments => replaceAll comment (fun _ => []) cs
  | .transposeComments =>
    replaceAll comment (fun body => "<xsl:comment>".toList ++ body ++ "</xsl:comment>".toList) cs
  | .removeInterElementWhitespace => replaceAll elementSpace (fun _ => []) cs

/-- Passes in the order in which they run. -/
structure Normalizer where
  passes : List Pass
  deriving DecidableEq

namespace Normalizer

def empty : Normalizer := ⟨[]⟩

def default : Normalizer := ⟨[.removeComments, .removeInterElementWhitespace]⟩

instance : Inhabited Normalizer := ⟨default⟩

def add (n : Normalizer) (p : Pass) : Normalizer :=
  if p ∈ n.passes then n else ⟨n.passes ++ [p]⟩

def remove (n : Normalizer) (p : Pass) : Normalizer := ⟨n.passes.filter (· ≠ p)⟩

/-- Strips blanks, then runs every pass. -/
def normalize (n : Normalizer) (template : String) : String :=
  String.ofList (n.passes.foldl (fun cs p => p.apply cs) (stripWhile isBlank template.toList))

end Normalizer
end BoardMarkup.Style
