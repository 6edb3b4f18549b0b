import PrivatePresentation.Files.Error
import PrivatePresentation.Service.Store
import PrivatePresentation.Text.Bytes

/-!
Trees of files. A place in a tree is the list of the names that lead to it from the root. Paths are
read from the root: they may pass through directories that exist, stay where they are at `.` and go up
at `..`; paths that start with a slash leave the tree and lead nowhere.
-/

namespace PrivatePresentation

/-- What is at a place. -/
inductive FileEntry where
  | file (contents : Bytes)
  | directory
deriving DecidableEq, Repr, Inhabited

/-- Names from the root to a place. -/
abbrev Place := List String

/-- Files and directories by their places below the root. -/
structure FileTree where
  entries : Store Place FileEntry := ∅
deriving Inhabited

namespace FileTree

/-- What is at a place; the root is a directory. -/
def entry? (t : FileTree) (place : Place) : Option FileEntry :=
  if place.isEmpty then some .directory else t.entries.get? place

/-- Sets what is at a place. -/
def insert (t : FileTree) (place : Place) (entry : FileEntry) : FileTree :=
  ⟨t.entries.insert place entry⟩

/-- The place that a name leads to, were it there. -/
def child (place : Place) (name : String) : Place :=
  if name.isEmpty || name == "." then place
  else if name == ".." then place.dropLast
  else place ++ [name]

/-- The place that a name leads to from a directory that exists. -/
def enter (t : FileTree) (place : Place) (name : String) : Except FileError Place :=
  match t.entry? place with
  | some .directory => .ok (child place name)
  | some (.file _) => .error .notADirectory
  | none => .error .notFound

/-- The names of a path; none if it leaves the tree or is empty. -/
def names? (path : String) : Option (List String) :=
  if path.isEmpty || path.startsWith "/" then none
  else some ((path.toList.splitOn '/').map String.ofList)

/-- The place of a path whose directories exist. -/
def place (t : FileTree) (path : String) : Except FileError Place :=
  match names? path with
  | some names => names.foldlM t.enter []
  | none => .error .notFound

/-- The contents of a file. -/
def read (t : FileTree) (path : String) : Except FileError Bytes := do
  match t.entry? (← t.place path) with
  | some (.file contents) => return contents
  | some .directory => throw .isADirectory
  | none => throw .notFound

/-- Writes a file into a directory that exists; a file that is there is replaced. -/
def write (t : FileTree) (path : String) (contents : Bytes) : Except FileError FileTree := do
  let place ← t.place path
  if path.endsWith "/" then throw .isADirectory
  match t.entry? place with
  | some .directory => throw .isADirectory
  | _ => return t.insert place (.file contents)

/-- Makes the directories on a way, from a place on, that are not there. -/
def makeWay : FileTree → Place → List String → Except FileError FileTree
  | t, _, [] => .ok t
  | t, here, name :: rest =>
    let there := child here name
    match t.entry? there with
    | some .directory => makeWay t there rest
    | some (.file _) =>
      .error (if rest.all String.isEmpty then .alreadyExists else .notADirectory)
    | none => makeWay (t.insert there .directory) there rest

/-- Makes a directory and those that it lies in. -/
def makeDirectories (t : FileTree) (path : String) : Except FileError FileTree :=
  match names? path with
  | some names => makeWay t [] names
  | none => if path.isEmpty then .ok t else .error .notFound

/-- The paths of all files in ascending order. -/
def paths (t : FileTree) : List String :=
  let files := t.entries.entries.filterMap fun
    | (place, .file _) => some ("/".intercalate place)
    | (_, .directory) => none
  files.mergeSort fun a b => decide (a ≤ b)

/-- The text of a file. -/
def readText (t : FileTree) (path : String) : Except FileError String := do
  match Text.ofUtf8? (← t.read path) with
  | some s => return s
  | none => throw .notText

end FileTree
end PrivatePresentation
