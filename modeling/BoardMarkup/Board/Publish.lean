import BoardMarkup.Board.Assembly
import BoardMarkup.Formatter.Compile
import BoardMarkup.Store

/-! Publication of a board's formatter, and removal of the renderers it replaces. -/
namespace BoardMarkup.Board

structure RendererRecord where
  className : String
  classPrefix : String := ""
  censor : Option Censor.WordList := none
  deriving DecidableEq

namespace RendererRecord

/-- An empty prefix and a missing censor are left out. -/
def toJson (r : RendererRecord) : Json :=
  .record ([("class", .text r.className)] ++
    (if r.classPrefix = "" then [] else [("class_prefix", .text r.classPrefix)]) ++
    match r.censor with
    | some words => [("censor", words.toJson)]
    | none => [])

def ofJson? (j : Json) : Option RendererRecord := do
  match ← j.slots? ["class", "class_prefix", "censor"] with
  | [className, classPrefix, censor] =>
    pure {
      className := ← className.required? Json.asText?
      classPrefix := ← classPrefix.defaulted? "" Json.asText?
      censor := ← censor.defaulted? none (Json.asOption? Censor.WordList.ofJson?) }
  | _ => none

end RendererRecord

inductive PublishError where
  | query (e : QueryError)
  | compile (e : CompileError)

def PublishError.message : PublishError → String
  | .query e => "Failed to read board data: " ++ e.message
  | .compile e => "Failed to compile formatter: " ++ e.message

/-- Compiles a formatter without its censor, and stores the parser and the renderer's record. -/
def publish (compile : Compiler) (o : Options) (f : Formatter) (s : Store) :
    Except PublishError Artifacts × Store :=
  let (censor, f) := f.detachCensor
  match compile f s.disk with
  | (.error e, disk) => (.error (.compile e), { s with disk })
  | (.ok a, disk) =>
    let s := Store.putJson { s with disk } o.parserKey a.parser.toJson
    let record : RendererRecord := ⟨a.renderer.className, f.rendering.classPrefix, censor⟩
    (.ok a, s.putJson o.rendererKey record.toJson)

/-- Assembles and publishes a formatter. Extensions may change the store on the way. -/
def regenerateWith {m : Type → Type} [Monad m] [MonadStateOf Store m] (hooks : Hooks m)
    (compile : Compiler) (o : Options) (b : Data) : m (Except PublishError Artifacts) := do
  match ← assemble hooks o b with
  | .error e => pure (.error (.query e))
  | .ok a => modifyGetThe Store (publish compile o a.formatter)

def regenerate (compile : Compiler) (o : Options) (b : Data) (s : Store) :
    Except PublishError Artifacts × Store :=
  (regenerateWith (m := StateM Store) .none compile o b).run s

theorem regenerate_eq (compile : Compiler) (o : Options) (b : Data) (s : Store) :
    regenerate compile o b s =
      match furnish o b .new with
      | .error e => (.error (.query e), s)
      | .ok a => publish compile o a.formatter s := by
  cases h : furnish o b .new <;>
    simp only [regenerate, regenerateWith, assemble, Hooks.none, pure_bind, h] <;> rfl

/-- Replaces what is published by what the data is now. -/
def invalidate (compile : Compiler) (o : Options) (b : Data) (s : Store) :
    Except PublishError Artifacts × Store :=
  regenerate compile o b s

def rendererRecord? (o : Options) (s : Store) : Option RendererRecord :=
  s.getJson? RendererRecord.ofJson? o.rendererKey

/-- The path of what a directory holds. In the working directory names stand alone. -/
def pathIn (directory name : String) : String :=
  if directory = "." then name else Path.join directory name

/-- One step of a search for files: a directory's path with the next name behind it, if that is there. -/
def descend (d : Disk) (path name : String) : Option String :=
  let next := pathIn path name
  if name = "." ∨ name = ".." then
    match d.find? path with
    | some .directory => some next
    | _ => none
  else if d.contains next then some next
  else none

/-- The paths in a directory whose names start with `start`, by name. -/
def listing (d : Disk) (directory start : String) : List String :=
  match d.resolve? directory with
  | none => []
  | some l =>
    let children := (d.below l).filterMap fun e =>
      match e.1.drop l.length with
      | [name] => if start.toList.isPrefixOf name.toList then some name else none
      | _ => none
    (children.mergeSort (· ≤ ·)).map (pathIn directory)

/-- Paths that begin with a directory and then a class prefix, which may hold further directories. -/
def candidates (d : Disk) (directory classPrefix : String) : List String :=
  let names := Path.names (directory ++ "/" ++ classPrefix)
  let (first, names) := if names.head? = some "" then ("/", names.drop 1) else (".", names)
  match names.dropLast.foldlM (descend d) first, names.getLast? with
  | some directory, some start => listing d directory start
  | _, _ => []

/-- A renderer that is neither the current one nor still being written. -/
def isStale (d : Disk) (keep path : String) : Bool :=
  Path.fileName? path != some keep.toList && Path.extension? path != some "tmp".toList &&
    (d.read? path).isSome

def sweep (d : Disk) (directory classPrefix keep : String) : List String × Disk :=
  let stale := (candidates d directory classPrefix).filter (isStale d keep)
  (stale, stale.foldl (fun d path => (d.remove? path).getD d) d)

/-- Removes all renderers but the one on record. A record without a prefix has that of the options. -/
def tidy (o : Options) (s : Store) : List String × Store :=
  match rendererRecord? o s with
  | none => ([], s)
  | some r =>
    let classPrefix := if r.classPrefix = "" then o.classPrefix else r.classPrefix
    let (removed, disk) := sweep s.disk o.cacheDir classPrefix (rendererFileName r.className)
    (removed, { s with disk })

end BoardMarkup.Board
