import DocProse.Error
import DocProse.Path

/-!
# File trees

A file holds a text, or bytes that are no text; a directory holds files and
directories by name.  A *place* in a tree remembers the directories above it.

`Workspace.resolve` follows a path.  Components that are empty or a single dot
stay where they are, but only a directory can be stayed in, so that the path of a
file does not end in a slash.  Two dots lead to the parent, and from the root to
the root.
-/

namespace DocProse

/-- A file, or a directory with what is in it. -/
inductive FileTree where
  /-- A file with its text, if its bytes are one. -/
  | file (text : Option String)
  /-- A directory with its entries by name. -/
  | directory (entries : List (String × FileTree))
  deriving Inhabited

namespace FileTree

/-- A directory without entries. -/
def empty : FileTree := .directory []

/-- A file with some bytes. -/
def ofBytes (bytes : ByteArray) : FileTree := .file (String.fromUTF8? bytes)

/-- The entries of a directory. -/
def entries : FileTree → List (String × FileTree)
  | .file _ => []
  | .directory es => es

/-- Whether it is a directory. -/
def isDirectory : FileTree → Bool
  | .file _ => false
  | .directory _ => true

/-- Entries with another one under a name. -/
def setEntry (name : String) (t : FileTree) : List (String × FileTree) → List (String × FileTree)
  | [] => [(name, t)]
  | (n, u) :: es => if n = name then (name, t) :: es else (n, u) :: setEntry name t es

/-- A tree laid over another one.  The entries of two directories are put together. -/
def layOver (new old : FileTree) : FileTree :=
  match new, old with
  | .directory es, .directory fs => .directory (es.foldl (fun fs (n, u) => setEntry n u fs) fs)
  | new, _ => new

/-- A directory with something laid over what is at a path.  Directories that are missing on the
way are made. -/
def insert (t : FileTree) : List String → FileTree → FileTree
  | [], new => new.layOver t
  | name :: path, new =>
    let below := (t.entries.lookup name).getD empty
    .directory (setEntry name (below.insert path new) t.entries)

/-- The text of a file. -/
def readText : FileTree → Except FileFault String
  | .file (some text) => .ok text
  | .file none => .error .notText
  | .directory _ => .error .directory

end FileTree

/-! ## Places -/

/-- A place in a tree. -/
structure Place where
  /-- What is there. -/
  here : FileTree
  /-- The directories above, the nearest first, each with the name that leads down from it. -/
  above : List (FileTree × String)

namespace Place

/-- The place that components lead to. -/
def follow (p : Place) : List (List Char) → Option Place
  | [] => some p
  | name :: path =>
    match p.here with
    | .file _ => none
    | .directory es =>
      if name.isEmpty || name = ['.'] then p.follow path
      else if name = ['.', '.'] then
        match p.above with
        | (parent, _) :: above => (Place.mk parent above).follow path
        | [] => p.follow path
      else
        match es.lookup (String.ofList name) with
        | some below => (Place.mk below ((p.here, String.ofList name) :: p.above)).follow path
        | none => none

end Place

/-! ## Workspaces -/

/-- A file system and the directory that paths start from unless they start with a slash. -/
structure Workspace where
  /-- The directory above all others. -/
  root : FileTree
  /-- The names that lead from it to the working directory. -/
  workingDirectory : List String

namespace Workspace

/-- The place of the root. -/
def top (w : Workspace) : Place := ⟨w.root, []⟩

/-- The place that a path leads to. -/
def resolve (w : Workspace) (path : String) : Option Place :=
  match path.toList with
  | [] => none
  | '/' :: cs => w.top.follow (Path.splitSlashes cs)
  | cs => do
    let start ← w.top.follow (w.workingDirectory.map String.toList)
    start.follow (Path.splitSlashes cs)

end Workspace

end DocProse
