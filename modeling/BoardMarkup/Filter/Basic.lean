import BoardMarkup.BBCode.Usage
import BoardMarkup.Filter.Pattern
import BoardMarkup.Table
import BoardMarkup.Text.Trim

/-! Filters that check the values of tokens. -/
namespace BoardMarkup

open Text

/-- How a value is checked: by a pattern, or by a function of the host with named parameters. -/
inductive Filter.Kind where
  | pattern (source : String) (p : Filter.Pattern)
  | callback (name : String) (params : List String)
  deriving DecidableEq

/-- A filter, and where values that passed it may be used. -/
structure Filter where
  kind : Filter.Kind
  safeInCss : Bool := false
  safeAsUrl : Bool := false
  deriving DecidableEq

namespace Filter

def ofPattern? (source : String) : Option Filter :=
  (Pattern.parse? source).map fun p => ⟨.pattern source p, false, false⟩

def callback (name : String) (params : List String := []) : Filter := ⟨.callback name params, false, false⟩

def withParam (f : Filter) (param : String) : Filter :=
  match f.kind with
  | .callback name params => { f with kind := .callback name (params ++ [param]) }
  | .pattern .. => f

def accepts? (f : Filter) (value : String) : Option Bool :=
  match f.kind with
  | .pattern _ p => some (p.accepts value.toList)
  | .callback .. => none

def builtins : List String := [
  "#alnum", "#choice", "#color", "#email", "#false", "#float", "#fontfamily", "#hashmap",
  "#identifier", "#int", "#ip", "#ipport", "#ipv4", "#ipv6", "#map", "#number", "#range",
  "#regexp", "#simpletext", "#timestamp", "#uint", "#url"]

def available (registered : Table Filter) (name : String) : Bool :=
  builtins.contains name || registered.contains name

/-- The kinds of tokens that take any value. -/
def unfiltered : List String := ["ANYTHING", "PARSE", "TEXT"]

/-- The filter of a token's kind, which is its id without the final digits. -/
def ofTokenId? (id : String) : Option String :=
  let kind := String.ofList (dropEndWhile Char.isDigit id.toList)
  if unfiltered.contains kind then none else some ("#" ++ BBCode.lower kind)

def optionValue? (mark : String) (option : String) : Option (List Char) :=
  after? mark.toList option.toList

def named (t : BBCode.Token) : List String :=
  let lists := t.options.filterMap fun o =>
    (optionValue? "preFilter=" o).or (optionValue? "postFilter=" o)
  let names := lists.flatMap fun l => (split ',' l).map String.ofList
  names.filter fun n => n.toList.head? = some '#'

/-- Every filter a usage needs, each once, in the order of its tokens. -/
def required (u : BBCode.Usage) : List String :=
  (u.tokens.flatMap fun t => (ofTokenId? t.id).toList ++ named t).eraseDups

end Filter
end BoardMarkup
