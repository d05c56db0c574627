import BoardMarkup.Board.Data
import BoardMarkup.Board.Entity
import BoardMarkup.Formatter.Basic
import BoardMarkup.Style.Resolve

/-! Assembly of a formatter from the data of a board. -/
namespace BoardMarkup.Board

open BBCode Style Text

structure Options where
  cacheDir : String
  parserKey : String
  rendererKey : String
  classPrefix : String
  boardUrl : String
  smiliesPath : String
  deriving DecidableEq

def Options.smiliesUrl (o : Options) : String :=
  o.boardUrl ++ "/" ++ String.ofList (stripWhile (· == '/') o.smiliesPath.toList)

/-- A definition that was left out. With a style, only its override was. -/
structure Skipped where
  usage : String
  style : Option StyleId
  reason : DefinitionError
  deriving DecidableEq

structure Assembly where
  formatter : Formatter
  skipped : List Skipped := []

/-- Settings of the engine. Templates keep their comments, as elements. -/
def configureEngine (o : Options) (f : Formatter) : Formatter :=
  { f with
    autoLineBreaks := true
    generators := f.generators.filter (· ≠ "IgnoreTextIfDisallowed")
    normalizer := (f.normalizer.remove .removeComments).add .transposeComments
    rendering := { f.rendering with
      cacheDir := some o.cacheDir
      classPrefix := o.classPrefix
      quick := true
      parameters := f.rendering.parameters.insert "T_SMILIES_PATH" o.smiliesUrl } }

/-- Path, query and fragment of an address, in lower case. -/
def relativeUrl : String :=
  "^(?:[a-z0-9\\-._~!$&'()*+,;=:@|]+|%[\\dA-F]\x7b2\x7d)*" ++
  "(?:/(?:[a-z0-9\\-._~!$&'()*+,;=:@|]+|%[\\dA-F]\x7b2\x7d)*)*" ++
  "(?:\\?(?:[a-z0-9\\-._~!$&'()*+,;=:@/?|]+|%[\\dA-F]\x7b2\x7d)*)?" ++
  "(?:#(?:[a-z0-9\\-._~!$&'()*+,;=:@/?|]+|%[\\dA-F]\x7b2\x7d)*)?$"

/-- Letters and numbers of any language, with a few signs. -/
def internationalText : String := "^[\\p\x7bL\x7d\\p\x7bN\x7d\\-+,_. ]+$"

/-- The filter of a pattern. One that is no pattern leaves the check to the host. -/
def patternFilter (source : String) : Filter := (Filter.ofPattern? source).getD (.callback source)

def filters : List (String × Filter) := [
  ("#local_url", patternFilter relativeUrl),
  ("#relative_url", patternFilter relativeUrl),
  ("#inttext", patternFilter internationalText),
  ("#flashheight", .callback "filter_flash_height" ["max_img_height", "logger"]),
  ("#flashwidth", .callback "filter_flash_width" ["max_img_width", "logger"]),
  ("#fontsize", { Filter.callback "filter_font_size" ["max_font_size", "logger"] with safeInCss := true }),
  ("#imageurl",
    { Filter.callback "filter_img_url" ["urlConfig", "logger", "max_img_height", "max_img_width"] with
      safeAsUrl := true })]

def addFilters (f : Formatter) : Formatter :=
  { f with filters := filters.foldl (fun t e => t.insert e.1 e.2) f.filters }

/-- A row as a source. A bitfield that cannot be read activates nothing. -/
def StyleRow.toSource (r : StyleRow) : Source :=
  ⟨r.id, r.document, match Bitfield.ofBase64? r.bitfield with
    | .ok bits => bits
    | .error _ => .empty⟩

def Assembly.define (a : Assembly) (usage : String) (t : Template) : Assembly :=
  match a.formatter.define usage t with
  | .ok (_, f) => { a with formatter := f }
  | .error e => { a with skipped := a.skipped ++ [⟨usage, none, e⟩] }

/-- Registers the directives. Overrides that are not accepted are reported first. -/
def addDirectives (f : Formatter) (rows : List StyleRow) : Assembly :=
  let (resolved, rejected) := resolve {} f.normalizer
    (fun d t => f.check d.usage ⟨t, true⟩) (rows.map StyleRow.toSource)
  let reported : Assembly :=
    ⟨f, rejected.map fun r => ⟨r.directive.usage, some r.style, r.error⟩⟩
  resolved.foldl (fun a r => a.define r.directive.usage ⟨r.template, true⟩) reported

/-- Shows a template only to readers who want to see its kind of content. -/
def viewSwitch (tag template : String) : String :=
  "<xsl:choose><xsl:when test=\"$S_VIEW" ++ tag ++ "\">" ++ template ++
    "</xsl:when><xsl:otherwise><xsl:apply-templates/></xsl:otherwise></xsl:choose>"

def addViewSwitches (f : Formatter) : Formatter :=
  { f with tags := ["FLASH", "IMG"].foldl (fun t tag => t.modify tag (viewSwitch tag)) f.tags }

/-- A token for an address within the board, found with its number. -/
def localUrl : Finder (List Char) := fun _ cs => do
  let rest ← after? "\x7bLOCAL_URL".toList cs
  let digits := rest.takeWhile isDecimal
  if (rest.drop digits.length).head? = some '}' then
    let token := "\x7bLOCAL_URL".toList ++ digits ++ ['}']
    pure (token, token.length)
  else none

def prefixLocalUrls (boardUrl template : String) : String :=
  String.ofList (replaceAll localUrl (fun token => boardUrl.toList ++ '/' :: token) template.toList)

def addCustom (o : Options) (a : Assembly) (rows : List BBCodeRow) : Assembly :=
  rows.foldl (fun a r => a.define r.usage ⟨prefixLocalUrls o.boardUrl r.template, false⟩) a

def SmileyRow.template (r : SmileyRow) : String :=
  "<img class=\"smilies\" src=\"\x7b$T_SMILIES_PATH\x7d/" ++ escapeHtml r.url ++
    "\" alt=\"\x7b.\x7d\" title=\"" ++ escapeHtml r.emotion ++ "\"/>"

/-- Adds the smilies, which readers may turn off and which stand apart from words. -/
def addSmilies (f : Formatter) (rows : List SmileyRow) : Formatter :=
  if rows.isEmpty then f
  else
    let f := rows.foldl (fun f r => f.addEmoticon r.code r.template) f
    { f with emoticons := f.emoticons.map fun e =>
      { e with notIf := some "not($S_VIEWSMILIES)", notAfter := some "[^\\n .\\]]" } }

def censorTag : String := "censor:tag"

def addWords (f : Formatter) (rows : List WordRow) : Formatter :=
  if rows.isEmpty then f
  else
    let f := f.loadCensor censorTag
    { f with censor := f.censor.map fun c =>
      rows.foldl (fun c r => c.add (unescapeHtml r.word) (some (unescapeHtml r.replacement))) c }

def addLinks (f : Formatter) : Formatter :=
  { f with
    autoemail := some {}
    autolink := some { matchWww := true }
    registeredVars := ["max_font_size", "max_img_height", "max_img_width"].foldl
      (fun t name => t.insert name 0) f.registeredVars }

/-- Turns a formatter into that of the board. The first query that fails ends the assembly. -/
def furnish (o : Options) (b : Data) (f : Formatter) : Except QueryError Assembly := do
  let f := addFilters (configureEngine o f)
  let a := addDirectives f (← b.styles)
  let a := addCustom o { a with formatter := addViewSwitches a.formatter } (← b.bbcodes)
  let f := addSmilies a.formatter (← b.smilies)
  let f := addWords f (← b.words)
  pure { a with formatter := addLinks f }

/-- The moments at which extensions change a formatter: new, and furnished. -/
inductive Event where
  | before
  | after
  deriving DecidableEq

def Event.name : Event → String
  | .before => "core.text_formatter_configure_before"
  | .after => "core.text_formatter_configure_after"

/-- What extensions make of a formatter at an event. -/
abbrev Hooks (m : Type → Type) := Event → Formatter → m Formatter

def Hooks.none {m : Type → Type} [Monad m] : Hooks m := fun _ f => pure f

/-- Listeners with the names of their events, called in order. -/
def Hooks.ofListeners {m : Type → Type} [Monad m] (ls : List (String × (Formatter → m Formatter))) :
    Hooks m :=
  fun e f => (ls.filter (·.1 = e.name)).foldlM (fun f l => l.2 f) f

def assemble {m : Type → Type} [Monad m] (hooks : Hooks m) (o : Options) (b : Data) :
    m (Except QueryError Assembly) := do
  match furnish o b (← hooks .before .new) with
  | .error e => pure (.error e)
  | .ok a => pure (.ok { a with formatter := ← hooks .after a.formatter })

end BoardMarkup.Board
