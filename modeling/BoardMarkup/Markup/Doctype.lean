import BoardMarkup.Text.Classes

/-! Document types, read from left to right up to the bracket that ends them. -/
namespace BoardMarkup.Markup

open Text

def quoteAfter (quote : Option Char) (c : Char) : Option Char :=
  match quote with
  | some q => if c = q then none else quote
  | none => if c = '"' ∨ c = '\'' then some c else none

/-- How many marks in a row stand before the next character. -/
def countAfter (mark : Char) (count : Nat) (c : Char) : Nat := if c = mark then count + 1 else 0

/--
Where in a document type a reader stands. Its bracketed part holds comments, instructions and
declarations. What follows a `<` there is held until it is clear which of them begins.
-/
inductive Doctype where
  | before (quote : Option Char)
  | subset
  | less (seen : List Char)
  | comment (dashes : Nat)
  | instruction (asked : Bool)
  | declaration (quote : Option Char)
  | other
  | after
  deriving DecidableEq

namespace Doctype

/-- How the parts begin in which more than the first `>` counts. In declarations with values, quotes do. -/
def openings : List (List Char × Doctype) := [
  ("?".toList, .instruction false),
  ("!--".toList, .comment 0),
  ("!ENTITY".toList, .declaration none),
  ("!ATTLIST".toList, .declaration none),
  ("!NOTATION".toList, .declaration none)]

def begin (seen : List Char) (c : Char) : Doctype :=
  let seen := seen ++ [c]
  match openings.find? (·.1 == seen) with
  | some (_, part) => part
  | none =>
    if c = '>' then .subset
    else if openings.any fun o => seen.isPrefixOf o.1 then .less seen
    else .other

def step : Doctype → Char → Doctype
  | .before quote, c => if quote = none ∧ c = '[' then .subset else .before (quoteAfter quote c)
  | .subset, c => if c = ']' then .after else if c = '<' then .less [] else .subset
  | .less seen, c => begin seen c
  | .comment dashes, c => if c = '>' ∧ 2 ≤ dashes then .subset else .comment (countAfter '-' dashes c)
  | .instruction asked, c => if c = '>' ∧ asked then .subset else .instruction (c == '?')
  | .declaration quote, c =>
    if quote = none ∧ c = '>' then .subset else .declaration (quoteAfter quote c)
  | .other, c => if c = '>' then .subset else .other
  | .after, _ => .after

def atEnd : Doctype → Bool
  | .before none | .after => true
  | _ => false

end Doctype
end BoardMarkup.Markup
