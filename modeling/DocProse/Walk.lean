import DocProse.Ignore.Rules

/-!
# Walks

A walk starts at a path that was named and gives everything below it, a
directory before what is in it.  The named path itself is always taken.  In
directories, hidden entries and those that ignore rules leave out are passed
over, with all that is below them.  Ignore files of directories above the named
one count as well.
-/

namespace DocProse

/-- One result of a walk. -/
inductive Visit where
  /-- A place that could not be visited. -/
  | failure
  /-- A directory, or anything else that is no regular file. -/
  | other (path : String)
  /-- A regular file with the outcome of reading it. -/
  | file (path : String) (content : Except FileFault String)

namespace Visit

mutual

/-- The results at something with a path, in a directory with some rules. -/
def ofTree (levels : List Ignore.Level) (path : String) : FileTree → List Visit
  | .file text => [.file path ((FileTree.file text).readText)]
  | .directory es =>
    .other path
      :: ofEntries (Ignore.Level.ofDirectory (.directory es) [] :: levels) path es

/-- The results at entries of a directory with a path and some rules. -/
def ofEntries (levels : List Ignore.Level) (path : String) :
    List (String × FileTree) → List Visit
  | [] => []
  | (name, t) :: es =>
    (if Ignore.isLeftOut levels name t.isDirectory then []
      else ofTree (levels.map (·.descend name)) (Path.join path name) t)
      ++ ofEntries levels path es

end

/-- The rules of the directories above a place, the nearest first. -/
def levelsAbove : List String → List (FileTree × String) → List Ignore.Level
  | _, [] => []
  | below, (parent, name) :: above =>
    Ignore.Level.ofDirectory parent (name :: below) :: levelsAbove (name :: below) above

/-- The results of a walk from a path.  A single dash does not name a file. -/
def walk (w : Workspace) (path : String) : List Visit :=
  if path = "-" then [.other path]
  else
    match w.resolve path with
    | none => [.failure]
    | some place => ofTree (levelsAbove [] place.above) path place.here

end Visit

end DocProse
