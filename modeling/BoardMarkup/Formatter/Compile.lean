import BoardMarkup.Disk.Basic
import BoardMarkup.Formatter.Artifact
import BoardMarkup.Sha256

/-! Compilation of a formatter into a parser and a renderer, which is written to a file of its own. -/
namespace BoardMarkup

inductive CompileError where
  | noCacheDir
  | noClassPrefix
  | malformedTemplate (tag : String) (fault : Markup.Problem)
  | unknownFilter (name filter : String)
  | unwritable (path : String)
  | other (reason : String)

def CompileError.message : CompileError → String
  | .noCacheDir => "rendering engine has no cache directory"
  | .noClassPrefix => "renderer class prefix is empty"
  | .malformedTemplate tag fault => "malformed template for tag " ++ tag ++ ": " ++ fault.message
  | .unknownFilter name filter => "unknown filter " ++ filter ++ " in BBCode " ++ name
  | .unwritable path => "failed to write " ++ path
  | .other reason => reason

/-- A renderer: the class that names it, its file and its content. -/
structure Renderer where
  className : String
  file : String
  snapshot : Snapshot
  deriving DecidableEq

structure Artifacts where
  parser : Parser
  renderer : Renderer
  deriving DecidableEq

def rendererFileName (className : String) : String := className ++ ".json"

namespace Snapshot

/-- The bytes by which a renderer is identified. -/
def bytes (s : Snapshot) : List UInt8 := s.toJson.write.toUTF8.toList

def digest (s : Snapshot) : String := String.ofList ((Sha256.hex (Sha256.hash s.bytes)).take 40)

def fileText (s : Snapshot) (className : String) : String :=
  (Json.record (("class", .text className) :: s.fields)).writePretty

end Snapshot

namespace Formatter

/-- Normalizes the templates of all tags and checks them once more. -/
def templates (f : Formatter) : List (String × String) → Except CompileError (List (String × String))
  | [] => .ok []
  | (tag, source) :: rest => do
    let template := f.normalizer.normalize source
    match Markup.check false template with
    | .error p => .error (.malformedTemplate tag p)
    | .ok () => pure ((tag, template) :: (← f.templates rest))

def snapshot (f : Formatter) : Except CompileError Snapshot := do
  pure {
    templates := .ofList (← f.templates f.tags.entries)
    emoticons := (f.emoticons.map (·.entries)).getD .empty
    emoticonsNotIf := f.emoticons.bind (·.notIf)
    parameters := f.rendering.parameters
    quick := f.rendering.quick }

/-- The first BBCode that needs a filter which is not available. -/
def checkFilters (f : Formatter) : Except CompileError Unit :=
  match f.bbcodes.values.findSome? fun u => (f.missingFilter? u).map fun n => (u.name, n) with
  | some (name, n) => .error (.unknownFilter name n)
  | none => .ok ()

/-- What compiling yields before anything is written. -/
def artifacts (f : Formatter) : Except CompileError Artifacts :=
  match f.rendering.cacheDir with
  | none => .error .noCacheDir
  | some dir =>
    if f.rendering.classPrefix = "" then .error .noClassPrefix
    else do
      f.checkFilters
      let snapshot ← f.snapshot
      let className := f.rendering.classPrefix ++ snapshot.digest
      pure ⟨.ofFormatter f, ⟨className, Path.join dir (rendererFileName className), snapshot⟩⟩

end Formatter

/-- Writes the file of a renderer, through a temporary one beside it. -/
def Renderer.save (r : Renderer) (d : Disk) : Except CompileError Unit × Disk :=
  let (d, made) := match Path.parent? r.file with
    | some parent => d.makeDirectory parent
    | none => (d, true)
  if made then
    let content := (r.snapshot.fileText r.className).toUTF8
    match d.replace r.file (Path.withExtension r.file "json.tmp") content with
    | (d, true) => (.ok (), d)
    | (d, false) => (.error (.unwritable r.file), d)
  else (.error (.unwritable r.file), d)

/-- Turns a formatter into artifacts, possibly writing files. -/
abbrev Compiler := Formatter → Disk → Except CompileError Artifacts × Disk

def Formatter.compile : Compiler := fun f d =>
  match f.artifacts with
  | .error e => (.error e, d)
  | .ok a =>
    match a.renderer.save d with
    | (.ok (), d) => (.ok a, d)
    | (.error e, d) => (.error e, d)

end BoardMarkup
