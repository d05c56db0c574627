import BoardMarkup.BBCode.Template
import BoardMarkup.Censor
import BoardMarkup.Filter.Basic
import BoardMarkup.Style.Normalizer

/-! The formatter of a board: its BBCodes, their tags, and everything around them. -/
namespace BoardMarkup

open BBCode Style

/-- Codes with the templates that replace them, and where they stay as they are. -/
structure Emoticons where
  entries : Table String := .empty
  notIf : Option String := none
  notAfter : Option String := none
  deriving DecidableEq

structure Autoemail where
  tagName : String := "EMAIL"
  attributeName : String := "email"
  deriving DecidableEq

/-- Makes links of bare URLs, also of those that start with `www.` where asked. -/
structure Autolink where
  tagName : String := "URL"
  attributeName : String := "url"
  matchWww : Bool := false
  deriving DecidableEq

/-- Where renderers are written, how they are called, and the parameters of their templates. -/
structure Rendering where
  cacheDir : Option String := none
  classPrefix : String := "Renderer_"
  quick : Bool := false
  parameters : Table String := .empty
  deriving DecidableEq

def defaultGenerators : List String := [
  "AutoCloseIfVoid", "AutoReopenFormattingElements", "BlockElementsCloseFormattingElements",
  "BlockElementsFosterFormattingElements", "DisableAutoLineBreaksIfNewLinesArePreserved",
  "EnforceContentModels", "EnforceOptionalEndTags", "IgnoreTagsInCode", "IgnoreTextIfDisallowed",
  "IgnoreWhitespaceAroundBlockElements", "TrimFirstLineInCodeBlocks"]

/-- BBCodes by name, the templates of tags by name, and the settings and plugins. -/
structure Formatter where
  bbcodes : Table Usage := .empty
  tags : Table String := .empty
  filters : Table Filter := .empty
  emoticons : Option Emoticons := none
  censor : Option Censor.Plugin := none
  autoemail : Option Autoemail := none
  autolink : Option Autolink := none
  registeredVars : Table Int64 := .empty
  autoLineBreaks : Bool := false
  generators : List String := defaultGenerators
  normalizer : Normalizer := .default
  rendering : Rendering := {}
  deriving DecidableEq

namespace Formatter

def new : Formatter := {}

instance : Inhabited Formatter := ⟨new⟩

def missingFilter? (f : Formatter) (u : Usage) : Option String :=
  (Filter.required u).find? fun n => !Filter.available f.filters n

def readUsage (usage : String) : Except DefinitionError Usage :=
  (Usage.parse? usage).mapError (.invalidUsage usage)

/-- A usage needs its filters, and a template that suits it. -/
def checkUsage (f : Formatter) (u : Usage) (t : Template) : Except DefinitionError Unit :=
  match f.missingFilter? u with
  | some n => .error (.unknownFilter u.name n)
  | none => t.validate u

/-- Checks a definition without registering it. -/
def check (f : Formatter) (usage : String) (t : Template) : Except DefinitionError Unit := do
  f.checkUsage (← readUsage usage) t

/-- Registers a BBCode and its tag. Neither name may be taken. -/
def define (f : Formatter) (usage : String) (t : Template) : Except DefinitionError (Usage × Formatter) := do
  let u ← readUsage usage
  if f.bbcodes.contains u.name || f.tags.contains u.tagName then .error (.duplicate u.name)
  else
    f.checkUsage u t
    pure (u, { f with
      bbcodes := f.bbcodes.insert u.name u
      tags := f.tags.insert u.tagName t.source })

/-- The BBCode of a name, in any case. -/
def bbcode? (f : Formatter) (name : String) : Option Usage := f.bbcodes.get? (upper name)

def remove? (f : Formatter) (name : String) : Option (Usage × Formatter) :=
  (f.bbcode? name).map fun u =>
    (u, { f with bbcodes := f.bbcodes.erase (upper name), tags := f.tags.erase u.tagName })

/-- Sets the template for a code. The plugin is loaded with its first code. -/
def addEmoticon (f : Formatter) (code template : String) : Formatter :=
  let e := f.emoticons.getD {}
  { f with emoticons := some { e with entries := e.entries.insert code template } }

/-- Loads the censor, with its tag and without words. -/
def loadCensor (f : Formatter) (tagName : String) : Formatter :=
  { f with
    tags := f.tags.insert tagName Censor.Plugin.tagTemplate
    censor := some { tagName } }

/-- Unloads the censor and its tag. The words are returned. -/
def detachCensor (f : Formatter) : Option Censor.WordList × Formatter :=
  match f.censor with
  | none => (none, f)
  | some c => (some c.wordList, { f with censor := none, tags := f.tags.erase c.tagName })

def addGenerator (f : Formatter) (name : String) : Formatter :=
  if name ∈ f.generators then f else { f with generators := f.generators ++ [name] }

def removeGenerator (f : Formatter) (name : String) : Formatter :=
  { f with generators := f.generators.filter (· ≠ name) }

end Formatter
end BoardMarkup
