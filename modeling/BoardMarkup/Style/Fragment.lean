import BoardMarkup.Table
import BoardMarkup.Text.Trim
import BoardMarkup.Text.Pieces
import BoardMarkup.Text.Classes

/-! Named fragments of a style's template document. -/
namespace BoardMarkup.Style

open Text

/--
How a document marks its fragments: `opening name suffix body closing label suffix`. The label
after the closing mark is free.
-/
structure MarkerSyntax where
  opening : String := "<!-- BEGIN "
  closing : String := "<!-- END "
  suffix : String := " -->"

abbrev Fragments := Table String

/-- A line break and the tabs after it, directly between two tags. -/
def tagIndent : Finder Unit
  | '>' :: _, '\n' :: rest =>
    let tabs := rest.takeWhile (· == '\t')
    if (rest.drop tabs.length).head? = some '<' then some ((), tabs.length + 1) else none
  | _, _ => none

/-- A body without blanks at its ends and without indentation between its tags. -/
def normalizeFragment (body : String) : String :=
  String.ofList (replaceAll tagIndent (fun _ => []) (stripWhile isBlank body.toList))

namespace MarkerSyntax

def next? (m : MarkerSyntax) (cs : List Char) : Option ((List Char × List Char) × List Char) := do
  let (_, cs) ← cut? m.opening.toList cs
  let (name, cs) ← cut? m.suffix.toList cs
  let (body, cs) ← cut? m.closing.toList cs
  let (_, cs) ← cut? m.suffix.toList cs
  pure ((name, body), cs)

/-- Names and bodies in document order. A fragment that takes up no text ends the search. -/
def fragmentList (m : MarkerSyntax) (cs : List Char) : List (List Char × List Char) :=
  match m.next? cs with
  | none => []
  | some (f, rest) => if rest.length < cs.length then f :: fragmentList m rest else [f]
termination_by cs.length

/-- The fragments of a document. Of several with one name the last counts. -/
def fragments (m : MarkerSyntax) (document : String) : Fragments :=
  .ofList ((m.fragmentList document.toList).map fun (name, body) =>
    (String.ofList name, normalizeFragment (String.ofList body)))

end MarkerSyntax
end BoardMarkup.Style
