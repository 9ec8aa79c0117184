import DocProse.CommandLine.Run

/-!
# The program

Reads what the arguments may lead to into a workspace, runs the command line in
it and writes what that leaves behind.  Directories that are entered through a
link are read like any others; links inside of them are passed over.
-/

namespace DocProse.Program

/-- A file or directory with all that is below it, none if it cannot be read.  Of a repository's
own directory only the file with exclusions is read. -/
partial def readEntry (entry : IO.FS.DirEntry) : IO (Option FileTree) := do
  try
    let info ← entry.path.metadata
    match info.type with
    | .dir =>
      let inside ← entry.path.readDir
      let mut entries := []
      for e in inside do
        let kind ← e.path.symlinkMetadata
        let wanted := entry.fileName != ".git" || e.fileName == "info"
        if wanted && kind.type != .symlink then
          if let some t ← readEntry e then
            entries := (e.fileName, t) :: entries
      return some (.directory entries.reverse)
    | .file =>
      try
        return some (.ofBytes (← IO.FS.readBinFile entry.path))
      catch _ => return some (.file none)
    | _ => return none
  catch _ => return none

/-- The path of names from the root. -/
def absolute (names : List String) : String := "/" ++ "/".intercalate names

/-- A file system with what is at some names, if there is something. -/
def readAt (t : FileTree) (names : List String) : IO FileTree := do
  match ← readEntry ⟨absolute names.dropLast, names.getLastD "."⟩ with
  | some found => return t.insert names found
  | none => return t

/-- What kind of thing is at some names. -/
def kindAt (names : List String) : IO (Option IO.FS.FileType) := do
  let entry : IO.FS.DirEntry := ⟨absolute names.dropLast, names.getLastD "."⟩
  try
    return some (← entry.path.metadata).type
  catch _ => return none

/-- The files of a directory that have a say in what is visited below it. -/
def ruleFiles : List (List String) := [[".ignore"], [".gitignore"], [".git", "info", "exclude"]]

/-- A file system with a directory, but with no more in it than its rules. -/
def readRules (t : FileTree) (names : List String) : IO FileTree := do
  let mut t := t.insert names .empty
  if (← kindAt (names ++ [".git"])).isSome then
    t := t.insert (names ++ [".git"]) .empty
  for file in ruleFiles do
    t ← readAt t (names ++ file)
  return t

/-- A file system with what components lead to from some names, and the directories on the way. -/
def readPath (t : FileTree) (names : List String) : List (List Char) → IO FileTree
  | [] => readAt t names
  | component :: path => do
    match ← kindAt names with
    | some .dir =>
      let t ← readRules t names
      if component == ['.', '.'] then readPath t names.dropLast path
      else readPath t (names ++ [String.ofList component]) path
    | _ => return t

/-- All that an argument can name: the argument itself, or what stands behind an option in it. -/
def pathsIn (argument : String) : List String :=
  [argument, String.ofList (argument.toList.drop 2),
    String.ofList ((argument.toList.dropWhile (· != '=')).drop 1)]

/-- The workspace with all that the arguments can lead to. -/
def readWorkspace (args : List String) : IO Workspace := do
  let names := (Path.components (← IO.currentDir).toString.toList).map String.ofList
  let mut t ← readRules .empty []
  for length in List.range names.length do
    t ← readRules t (names.take (length + 1))
  for path in Settings.defaultPath :: args.flatMap pathsIn do
    unless path.isEmpty do
      t ← readPath t (if path.startsWith "/" then [] else names) (Path.components path.toList)
  return ⟨t, names⟩

end DocProse.Program

/-- Runs the program. -/
def main (args : List String) : IO UInt32 := do
  let colored := (← (← IO.getStdout).isTty)
  let theme := if colored then DocProse.Theme.colored else DocProse.Theme.plain
  let workspace ← DocProse.Program.readWorkspace args
  let result := DocProse.CommandLine.run theme workspace args
  for line in result.output do
    IO.println line
  for line in result.errors do
    IO.eprintln line
  for line in result.usage do
    if result.exitCode == 0 then IO.println line else IO.eprintln line
  return result.exitCode.toUInt32
