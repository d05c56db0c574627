import BoardMarkup.Text.Pieces

/-! Paths as texts. Names are divided by slashes; a path that starts with one is absolute. -/
namespace BoardMarkup.Path

/-- A path below another one. An absolute path stands for itself. -/
def join (base path : String) : String :=
  if path.toList.head? = some '/' then path
  else if base = "" ∨ base.toList.getLast? = some '/' then base ++ path
  else base ++ "/" ++ path

/-- Drops final slashes and final names `.` from a reversed path, down to its first character. -/
def dropIdle : List Char → List Char
  | '/' :: c :: rest => dropIdle (c :: rest)
  | '.' :: '/' :: rest => dropIdle ('/' :: rest)
  | cs => cs

def splitLast (path : String) : List Char × List Char :=
  let cs := dropIdle path.toList.reverse
  let name := cs.takeWhile (· != '/')
  (name, cs.drop name.length)

/-- The directory that holds the last name. The root and the empty path have none. -/
def parent? (path : String) : Option String :=
  match splitLast path with
  | ([], _) => none
  | (_, before) => some (String.ofList (dropIdle before).reverse)

/-- The last name, unless it only refers to a directory. -/
def fileName? (path : String) : Option (List Char) :=
  match (splitLast path).1 with
  | [] => none
  | ['.'] => none
  | ['.', '.'] => none
  | name => some name.reverse

/-- A name without its extension, and the extension. A leading dot starts none. -/
def splitExtension (name : List Char) : List Char × Option (List Char) :=
  let after := (name.reverse.takeWhile (· != '.')).reverse
  let stem := name.take (name.length - after.length - 1)
  if after.length = name.length ∨ stem = [] then (name, none) else (stem, some after)

def extension? (path : String) : Option (List Char) := do
  (splitExtension (← fileName? path)).2

def setExtension (path : String) (extension : List Char) : String :=
  match fileName? path with
  | none => path
  | some name =>
    String.ofList ((splitLast path).2.reverse ++ (splitExtension name).1 ++ '.' :: extension)

/--
The path with another extension. The length of the old one is first cut off the end, so that a
name which is then no name any more keeps the path as it is.
-/
def withExtension (path : String) (extension : String) : String :=
  match extension? path with
  | none => setExtension path extension.toList
  | some old =>
    setExtension (String.ofList (path.toList.take (path.length - old.length))) extension.toList

def names (path : String) : List String :=
  (Text.split '/' path.toList).map String.ofList

end BoardMarkup.Path
