import BoardMarkup.Disk.Path

/-!
A tree of files, with the operations that programs have on it. There are no links and no permissions:
an operation fails for the names in its path and for what stands there, and for nothing else.
-/
namespace BoardMarkup

/-- The names from the root down. -/
abbrev Location := List String

inductive Node where
  | file (content : ByteArray)
  | directory

/-- Contents are compared byte by byte. -/
def Node.decEq : (m n : Node) → Decidable (m = n)
  | .file x, .file y =>
    match ByteArray.instDecidableEq x y with
    | isTrue h => isTrue (congrArg Node.file h)
    | isFalse h => isFalse fun he => h (Node.file.inj he)
  | .directory, .directory => isTrue rfl
  | .file _, .directory => isFalse fun he => Node.noConfusion he
  | .directory, .file _ => isFalse fun he => Node.noConfusion he

instance : DecidableEq Node := Node.decEq

/-- The nodes below the root, each at its own location, and where relative paths start. -/
structure Disk where
  nodes : List (Location × Node) := []
  workingDirectory : Location := []
  deriving DecidableEq

namespace Disk

/-- What stands at a location. The root is always there. -/
def node? (d : Disk) (l : Location) : Option Node :=
  if l = [] then some .directory else (d.nodes.find? (·.1 == l)).map (·.2)

def set (d : Disk) (l : Location) (n : Node) : Disk :=
  { d with nodes := (l, n) :: d.nodes.filter (·.1 ≠ l) }

def unset (d : Disk) (l : Location) : Disk := { d with nodes := d.nodes.filter (·.1 ≠ l) }

def isDirectory (d : Disk) (l : Location) : Bool := d.node? l == some .directory

/-- Names have at most 255 bytes. -/
def validName (name : String) : Bool := name.utf8ByteSize ≤ 255

/-- Paths have less than 4096 bytes, and no zero byte among them. -/
def validPath (path : String) : Bool := path.utf8ByteSize < 4096 && !path.toList.contains '\x00'

def follow (d : Disk) (l : Location) (name : String) : Option Location :=
  if !d.isDirectory l then none
  else if name = "" ∨ name = "." then some l
  else if name = ".." then some l.dropLast
  else if validName name then some (l ++ [name])
  else none

def origin (d : Disk) (path : String) : Location :=
  if path.toList.head? = some '/' then [] else d.workingDirectory

/-- The location of a path, whose directory exists. -/
def resolve? (d : Disk) (path : String) : Option Location :=
  if path ≠ "" ∧ validPath path then (Path.names path).foldlM d.follow (d.origin path) else none

def find? (d : Disk) (path : String) : Option Node := do d.node? (← d.resolve? path)

def contains (d : Disk) (path : String) : Bool := (d.find? path).isSome

def read? (d : Disk) (path : String) : Option ByteArray :=
  match d.find? path with
  | some (.file content) => some content
  | _ => none

def create? (d : Disk) (path : String) : Option Disk := do
  let l ← d.resolve? path
  match d.node? l with
  | some .directory => none
  | _ => pure (d.set l (.file .empty))

def fill? (d : Disk) (path : String) (content : ByteArray) : Option Disk := do
  let l ← d.resolve? path
  match d.node? l with
  | some (.file _) => pure (d.set l (.file content))
  | _ => none

def write? (d : Disk) (path : String) (content : ByteArray) : Option Disk := do
  (← d.create? path).fill? path content

/-- Moves a file, in place of any file that is there. -/
def rename? (d : Disk) (source target : String) : Option Disk := do
  let l ← d.resolve? source
  let m ← d.resolve? target
  match d.node? l, d.node? m with
  | some (.file content), some (.file _) => pure ((d.unset l).set m (.file content))
  | some (.file content), none => pure ((d.unset l).set m (.file content))
  | _, _ => none

def remove? (d : Disk) (path : String) : Option Disk := do
  let l ← d.resolve? path
  match d.node? l with
  | some (.file _) => pure (d.unset l)
  | _ => none

/-- One step on a path, on which missing directories are created. -/
def enter (d : Disk) (l : Location) (name : String) : Option (Disk × Location) := do
  let m ← d.follow l name
  match d.node? m with
  | some .directory => pure (d, m)
  | some (.file _) => none
  | none => pure (d.set m .directory, m)

/-- Names that only stay where they are, one `.` at least. -/
def isFinalDot (names : List String) : Bool :=
  names.contains "." && names.all fun name => name == "." || name == ""

/--
Creates the directories on a path, until a step fails. Returns whether none did. A final `.` asks
for a directory that is there already.
-/
def enterAll (d : Disk) (l : Location) : List String → Disk × Bool
  | [] => (d, true)
  | name :: rest =>
    match d.enter l name with
    | some (next, m) =>
      if isFinalDot rest && !d.isDirectory m then (d, false) else enterAll next m rest
    | none => (d, false)

def makeDirectory (d : Disk) (path : String) : Disk × Bool :=
  if path = "" then (d, true)
  else if validPath path then d.enterAll (d.origin path) (Path.names path)
  else (d, false)

def below (d : Disk) (l : Location) : List (Location × Node) :=
  d.nodes.filter fun e => l.isPrefixOf e.1 && e.1 ≠ l

/-- Relative paths of everything below a location, in order. Those of directories end in a slash. -/
def listTree (d : Disk) (l : Location) : List String :=
  let paths := (d.below l).map fun e =>
    "/".intercalate (e.1.drop l.length) ++ if e.2 = .directory then "/" else ""
  paths.mergeSort (· ≤ ·)

def place? (d : Disk) (path : String) (content : ByteArray) : Option Disk :=
  match (d.makeDirectory ((Path.parent? path).getD "")) with
  | (d, true) => d.write? path content
  | (_, false) => none

/-- Whether the last name of a path is `.`, with slashes behind it or without. -/
def endsInDot (path : String) : Bool := ((Path.names path).filter (· ≠ "")).getLast? == some "."

/-- Removes a directory with all it holds. A path that ends in `.` loses only what it holds. -/
def removeTree (d : Disk) (path : String) : Disk :=
  match d.resolve? path with
  | some l =>
    if d.isDirectory l then
      let emptied := { d with nodes := d.nodes.filter fun e => !(l.isPrefixOf e.1 && e.1 ≠ l) }
      if endsInDot path then emptied else emptied.unset l
    else d
  | none => d

/--
Writes a file through a second one, so that no reader sees it half written. Returns whether it
succeeded.
-/
def replace (d : Disk) (path through : String) (content : ByteArray) : Disk × Bool :=
  match d.write? through content with
  | none => (d, false)
  | some d =>
    match d.rename? through path with
    | some d => (d, true)
    | none => ((d.remove? through).getD d, false)

end Disk
end BoardMarkup
