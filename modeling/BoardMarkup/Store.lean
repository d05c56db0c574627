import BoardMarkup.Disk.Basic
import BoardMarkup.Json.Reader
import BoardMarkup.Table

/-! A store of bytes under keys: nothing at all, a table in memory, or a directory of files. -/
namespace BoardMarkup

inductive Cache where
  | none
  | memory (entries : Table ByteArray)
  | files (root : String)

structure Store where
  disk : Disk := {}
  cache : Cache := .none

namespace Store

def get? (s : Store) (key : String) : Option ByteArray :=
  match s.cache with
  | .none => Option.none
  | .memory entries => entries.get? key
  | .files root => s.disk.read? (Path.join root key)

/-- Writes a file below a directory, through a temporary one beside it. What fails is left out. -/
def putFile (d : Disk) (root key : String) (content : ByteArray) : Disk :=
  let path := Path.join root key
  match Path.parent? path with
  | Option.none => d
  | some parent =>
    match d.makeDirectory parent with
    | (d, true) => (d.replace path (Path.withExtension path "tmp") content).1
    | (d, false) => d

/-- Sets the bytes under a key. A write that fails changes nothing that can be read. -/
def put (s : Store) (key : String) (content : ByteArray) : Store :=
  match s.cache with
  | .none => s
  | .memory entries => { s with cache := .memory (entries.insert key content) }
  | .files root => { s with disk := putFile s.disk root key content }

def getText? (s : Store) (key : String) : Option String := do String.fromUTF8? (← s.get? key)

def putText (s : Store) (key text : String) : Store := s.put key text.toUTF8

def getJson? {α : Type} (ofJson? : Json → Option α) (s : Store) (key : String) : Option α := do
  ofJson? (← Json.ofBytes? (← s.get? key))

def putJson (s : Store) (key : String) (v : Json) : Store := s.putText key v.write

def versionName : String := "VERSION"

def version? (d : Disk) (root : String) : Option String := do
  String.fromUTF8? (← d.read? (Path.join root versionName))

def recordVersion (d : Disk) (root version : String) : Disk :=
  match d.makeDirectory root with
  | (d, true) => (d.write? (Path.join root versionName) version.toUTF8).getD d
  | (d, false) => d

/-- Opens a directory of files. One made for another version is emptied, one without a version kept. -/
def openFiles (s : Store) (root version : String) : Store :=
  let disk := match version? s.disk root with
    | some v => if v = version then s.disk else recordVersion (s.disk.removeTree root) root version
    | Option.none => recordVersion s.disk root version
  ⟨disk, .files root⟩

end Store
end BoardMarkup
