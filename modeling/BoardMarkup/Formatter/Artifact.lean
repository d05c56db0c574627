import BoardMarkup.Formatter.Basic
import BoardMarkup.Json.Record

/-! What a compiled formatter consists of, and its JSON. -/
namespace BoardMarkup

structure ParserBBCode where
  name : String
  tagName : String
  usage : String
  deriving DecidableEq

structure Parser where
  bbcodes : List ParserBBCode
  tags : List String
  filters : List String
  emoticons : List String
  emoticonsNotAfter : Option String
  censoredWords : List Censor.Word
  autoemail : Option Autoemail
  autolink : Option Autolink
  registeredVars : Table Int64
  autoLineBreaks : Bool
  generators : List String
  deriving DecidableEq

/-- Everything a renderer renders with. -/
structure Snapshot where
  templates : Table String
  emoticons : Table String
  emoticonsNotIf : Option String
  parameters : Table String
  quick : Bool
  deriving DecidableEq

def textsToJson (t : Table String) : Json := .record (t.entries.map fun (k, v) => (k, .text v))

def textsOfJson? (j : Json) : Option (Table String) :=
  (Json.asFields? Json.asText? j).map Table.ofList

def listToJson (ts : List String) : Json := .list (ts.map .text)

namespace Autoemail

def toJson (a : Autoemail) : Json :=
  .record [("tag_name", .text a.tagName), ("attr_name", .text a.attributeName)]

def ofJson? (j : Json) : Option Autoemail := do
  match ← j.slots? ["tag_name", "attr_name"] with
  | [tagName, attributeName] =>
    pure ⟨← tagName.required? Json.asText?, ← attributeName.required? Json.asText?⟩
  | _ => none

end Autoemail

namespace Autolink

def toJson (a : Autolink) : Json :=
  .record [("tag_name", .text a.tagName), ("attr_name", .text a.attributeName),
    ("match_www", .bool a.matchWww)]

def ofJson? (j : Json) : Option Autolink := do
  match ← j.slots? ["tag_name", "attr_name", "match_www"] with
  | [tagName, attributeName, matchWww] =>
    pure ⟨← tagName.required? Json.asText?, ← attributeName.required? Json.asText?,
      ← matchWww.required? Json.asBool?⟩
  | _ => none

end Autolink

namespace ParserBBCode

def toJson (b : ParserBBCode) : Json :=
  .record [("name", .text b.name), ("tag_name", .text b.tagName), ("usage", .text b.usage)]

def ofJson? (j : Json) : Option ParserBBCode := do
  match ← j.slots? ["name", "tag_name", "usage"] with
  | [name, tagName, usage] =>
    pure ⟨← name.required? Json.asText?, ← tagName.required? Json.asText?,
      ← usage.required? Json.asText?⟩
  | _ => none

end ParserBBCode

namespace Parser

def ofFormatter (f : Formatter) : Parser where
  bbcodes := f.bbcodes.values.map fun u => ⟨u.name, u.tagName, u.source⟩
  tags := f.tags.keys
  filters := f.filters.keys
  emoticons := (f.emoticons.map (·.entries.keys)).getD []
  emoticonsNotAfter := f.emoticons.bind (·.notAfter)
  censoredWords := (f.censor.map (·.words)).getD []
  autoemail := f.autoemail
  autolink := f.autolink
  registeredVars := f.registeredVars
  autoLineBreaks := f.autoLineBreaks
  generators := f.generators

def toJson (p : Parser) : Json :=
  .record [
    ("bbcodes", .list (p.bbcodes.map ParserBBCode.toJson)),
    ("tags", listToJson p.tags),
    ("attribute_filters", listToJson p.filters),
    ("emoticons", listToJson p.emoticons),
    ("emoticons_not_after", .ofOption .text p.emoticonsNotAfter),
    ("censored_words", .list (p.censoredWords.map Censor.Word.toJson)),
    ("autoemail", .ofOption Autoemail.toJson p.autoemail),
    ("autolink", .ofOption Autolink.toJson p.autolink),
    ("registered_vars", .record (p.registeredVars.entries.map fun (k, n) => (k, .int n.toInt))),
    ("auto_line_breaks", .bool p.autoLineBreaks),
    ("rules_generators", listToJson p.generators)]

def ofJson? (j : Json) : Option Parser := do
  match ← j.slots? ["bbcodes", "tags", "attribute_filters", "emoticons", "emoticons_not_after",
    "censored_words", "autoemail", "autolink", "registered_vars", "auto_line_breaks",
    "rules_generators"] with
  | [bbcodes, tags, filters, emoticons, notAfter, words, autoemail, autolink, vars, breaks,
      generators] =>
    pure {
      bbcodes := ← bbcodes.required? (Json.asList? ParserBBCode.ofJson?)
      tags := ← tags.required? (Json.asList? Json.asText?)
      filters := ← filters.required? (Json.asList? Json.asText?)
      emoticons := ← emoticons.required? (Json.asList? Json.asText?)
      emoticonsNotAfter := ← notAfter.optional? Json.asText?
      censoredWords := ← words.required? (Json.asList? Censor.Word.ofJson?)
      autoemail := ← autoemail.optional? Autoemail.ofJson?
      autolink := ← autolink.optional? Autolink.ofJson?
      registeredVars := .ofList (← vars.required? (Json.asFields? Json.asInt64?))
      autoLineBreaks := ← breaks.required? Json.asBool?
      generators := ← generators.required? (Json.asList? Json.asText?) }
  | _ => none

end Parser

namespace Snapshot

def fields (s : Snapshot) : List (String × Json) := [
  ("templates", textsToJson s.templates),
  ("emoticons", textsToJson s.emoticons),
  ("emoticons_not_if_condition", .ofOption .text s.emoticonsNotIf),
  ("parameters", textsToJson s.parameters),
  ("quick_renderer", .bool s.quick)]

def toJson (s : Snapshot) : Json := .record s.fields

def ofJson? (j : Json) : Option Snapshot := do
  match ← j.slots? ["templates", "emoticons", "emoticons_not_if_condition", "parameters",
    "quick_renderer"] with
  | [templates, emoticons, notIf, parameters, quick] =>
    pure {
      templates := ← templates.required? textsOfJson?
      emoticons := ← emoticons.required? textsOfJson?
      emoticonsNotIf := ← notIf.optional? Json.asText?
      parameters := ← parameters.required? textsOfJson?
      quick := ← quick.required? Json.asBool? }
  | _ => none

end Snapshot
end BoardMarkup
