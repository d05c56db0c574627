import BoardMarkup.Board.Assembly
import BoardMarkup.Disk.Basic
import BoardMarkup.Settings.Expand
import BoardMarkup.Toml.Reader

/-! The settings of a board, from a file that is found, read, expanded and validated. -/
namespace BoardMarkup.Settings

open Text

/-- What a file says. The directory and the keys may be left out. -/
structure Raw where
  cacheDir : Option String := none
  parserKey : Option String := none
  rendererKey : Option String := none
  classPrefix : String := "bbforge_renderer_"
  url : String := "http://localhost"
  smiliesPath : String := "images/smilies"
  deriving DecidableEq

structure Config where
  cacheDir : String
  parserKey : String
  rendererKey : String
  classPrefix : String
  url : String
  smiliesPath : String
  path : Option String
  deriving DecidableEq

inductive Invalid where
  | empty (field : String)
  | sameKeys
  | classPrefix
  | noScheme (field : String)
  deriving DecidableEq

def Invalid.message : Invalid → String
  | .empty field => field ++ " cannot be empty"
  | .sameKeys => "cache.parser_key and cache.renderer_key must differ"
  | .classPrefix => "renderer.class_prefix may only contain ASCII letters, digits and '_'"
  | .noScheme field => field ++ " must start with http:// or https://"

inductive LoadError where
  | notFound (path : String)
  | unreadable
  | malformed
  | invalid (i : Invalid)
  | unset (field name : String)
  deriving DecidableEq

def LoadError.message : LoadError → String
  | .notFound path => "Configuration file not found: " ++ path
  | .unreadable => "I/O error"
  | .malformed => "TOML parse error"
  | .invalid i => "Configuration error: " ++ i.message
  | .unset field name =>
    "Environment variable error in " ++ field ++ ": $\x7b" ++ name ++ "\x7d not set"

/-- The values of a section's keys: a table of them, or a list in their order. -/
def section? (keys : List String) : Option Toml → Option (List (Option Toml))
  | none => some (keys.map fun _ => none)
  | some (.table _ fields) => some (keys.map (Toml.field? fields))
  | some (.list items) => some ((List.range keys.length).map (items[·]?))
  | some (.tables items) =>
    some ((List.range keys.length).map fun i => (items[i]?).map (.table .header))
  | some _ => none

def text? {α : Type} (f : String → α) (default : α) : Option Toml → Option α
  | none => some default
  | some (.text s) => some (f s)
  | some _ => none

/-- Whether what is ignored can be read. Of a section given as a list nothing more is looked at. -/
def isReadable (fields : Toml.Fields) : Bool :=
  fields.all fun (key, v) =>
    match v with
    | .list _ => ["cache", "renderer", "board"].contains key || v.isReadable
    | v => v.isReadable

/-- The settings in a document. Keys without a meaning are ignored. -/
def Raw.ofToml? (fields : Toml.Fields) : Option Raw := do
  guard (isReadable fields)
  match ← section? ["dir", "parser_key", "renderer_key"] (Toml.field? fields "cache"),
      ← section? ["class_prefix"] (Toml.field? fields "renderer"),
      ← section? ["url", "smilies_path"] (Toml.field? fields "board") with
  | [dir, parserKey, rendererKey], [classPrefix], [url, smiliesPath] =>
    pure {
      cacheDir := ← text? some none dir
      parserKey := ← text? some none parserKey
      rendererKey := ← text? some none rendererKey
      classPrefix := ← text? id ({} : Raw).classPrefix classPrefix
      url := ← text? id ({} : Raw).url url
      smiliesPath := ← text? id ({} : Raw).smiliesPath smiliesPath }
  | _, _, _ => none

def expandField (env : Environment) (field value : String) : Except LoadError String :=
  (expand env value).mapError (.unset field)

def Raw.expand (env : Environment) (r : Raw) : Except LoadError Raw := do
  let cacheDir ← match r.cacheDir with
    | some dir => some <$> expandField env "cache.dir" dir
    | none => pure none
  let url ← expandField env "board.url" r.url
  let smiliesPath ← expandField env "board.smilies_path" r.smiliesPath
  pure { r with cacheDir, url, smiliesPath }

/-- Fills in what is left out, below a directory. -/
def Raw.resolve (r : Raw) (directory : String) (path : Option String) : Config where
  cacheDir := Path.join directory (r.cacheDir.getD "cache")
  parserKey := r.parserKey.getD "_bbforge_parser"
  rendererKey := r.rendererKey.getD "_bbforge_renderer"
  classPrefix := r.classPrefix
  url := r.url
  smiliesPath := r.smiliesPath
  path := path

namespace Config

def default (base : String) : Config := ({} : Raw).resolve base none

private def startsWith (mark s : String) : Bool := mark.toList.isPrefixOf s.toList

def requireNonEmpty (field value : String) : Except Invalid Unit :=
  if value = "" then .error (.empty field) else .ok ()

/-- Checks the keys, then the class prefix, then the address. -/
def validate (c : Config) : Except Invalid Unit := do
  requireNonEmpty "cache.parser_key" c.parserKey
  requireNonEmpty "cache.renderer_key" c.rendererKey
  if c.parserKey = c.rendererKey then .error .sameKeys
  requireNonEmpty "renderer.class_prefix" c.classPrefix
  if !(c.classPrefix.toList.all fun ch => ch.isAlphanum || ch == '_') then .error .classPrefix
  requireNonEmpty "board.url" c.url
  if !startsWith "http://" c.url && !startsWith "https://" c.url then .error (.noScheme "board.url")

def boardUrl (c : Config) : String := String.ofList (dropEndWhile (· == '/') c.url.toList)

def options (c : Config) : Board.Options where
  cacheDir := c.cacheDir
  parserKey := c.parserKey
  rendererKey := c.rendererKey
  classPrefix := c.classPrefix
  boardUrl := c.boardUrl
  smiliesPath := c.smiliesPath

def fileName : String := "bbforge.toml"

def loadFile (d : Disk) (env : Environment) (path : String) : Except LoadError Config := do
  let content ← match (d.read? path).bind String.fromUTF8? with
    | some s => .ok s
    | none => .error .unreadable
  let raw ← match (Toml.read? content).bind Raw.ofToml? with
    | some r => .ok r
    | none => .error .malformed
  let raw ← raw.expand env
  let config := raw.resolve ((Path.parent? path).getD ".") (some path)
  match config.validate with
  | .ok () => pure config
  | .error i => .error (.invalid i)

def pathOf (l : Location) : String := "/" ++ "/".intercalate l

/-- The file in a directory or the nearest above it, from the last of its names on. -/
def discover? (d : Disk) : List String → Option String
  | [] => if d.contains ("/" ++ fileName) then some ("/" ++ fileName) else none
  | name :: above =>
    let candidate := Path.join (pathOf (name :: above).reverse) fileName
    if d.contains candidate then some candidate else discover? d above

/-- Loads a given file, else the nearest one, else the settings without a file. -/
def load (d : Disk) (env : Environment) (path : Option String) : Except LoadError Config :=
  match path with
  | some path => if d.contains path then loadFile d env path else .error (.notFound path)
  | none =>
    match discover? d d.workingDirectory.reverse with
    | some found => loadFile d env found
    | none => .ok (default (pathOf d.workingDirectory))

end Config
end BoardMarkup.Settings
