import DocProse.FileTree
import DocProse.Ignore.Pattern
import DocProse.Text.Blank
import DocProse.Text.Lines

/-!
# Ignore rules

An ignore file has one rule per line.  A rule has a pattern for paths below the
directory of the file.  It may be for directories only, with a slash at its end,
and it may keep what it matches, with an exclamation mark at its start.  A pattern
without a slash matches at any depth.  The last rule of a file that matches a
path decides on it.
-/

namespace DocProse.Ignore

open Text

/-! ## Rules -/

/-- A line of an ignore file. -/
structure Rule where
  /-- What paths it is about. -/
  pattern : List Token
  /-- Whether it keeps them. -/
  keeps : Bool
  /-- Whether it is about directories only. -/
  onlyDirectories : Bool
  deriving Inhabited

/-- What rules say about a path. -/
inductive Verdict where
  /-- Nothing. -/
  | silent
  /-- To leave it out. -/
  | ignored
  /-- To keep it. -/
  | kept
  deriving DecidableEq, Repr, Inhabited

/-- The first of two verdicts that says something. -/
def Verdict.or (a b : Verdict) : Verdict := if a = .silent then b else a

/-- A line without the blanks it ends with, unless it ends with an escaped space. -/
def trimLine (line : List Char) : List Char :=
  if ['\\', ' '].isSuffixOf line then line else trimEnd line

/-- The pattern of a line as it counts from the directory of the file: one without a slash in it
matches at any depth, and a double star at its end takes at least one component. -/
def fullPattern (anchored : Bool) (p : List Char) : List Char :=
  let p :=
    if anchored || p.contains '/' || p == ['*', '*'] then p else ['*', '*', '/'] ++ p
  if ['/', '*', '*'].isSuffixOf p then p ++ ['/', '*'] else p

/-- A line without the slash at its end, and whether it has one. -/
def splitTrailingSlash (line : List Char) : List Char × Bool :=
  if line.getLast? = some '/' then
    let line := line.dropLast
    (if line.getLast? = some '\\' then line.dropLast else line, true)
  else (line, false)

/-- The rule of a line, if there is one. -/
def Rule.ofLine? (line : List Char) : Option Rule := do
  let line := trimLine line
  if line.isEmpty || line.head? = some '#' then none
  let (keeps, anchored, rest) :=
    match line with
    | '\\' :: '!' :: rest => (false, false, '!' :: rest)
    | '\\' :: '#' :: rest => (false, false, '#' :: rest)
    | '!' :: '/' :: rest => (true, true, rest)
    | '!' :: rest => (true, false, rest)
    | '/' :: rest => (false, true, rest)
    | rest => (false, false, rest)
  let (rest, onlyDirectories) := splitTrailingSlash rest
  let pattern ← parsePattern (fullPattern anchored rest)
  return { pattern, keeps, onlyDirectories }

/-- The rules of an ignore file.  A byte order mark at the start is skipped. -/
def rulesOf (text : String) : List Rule :=
  let cs :=
    match text.toList with
    | '\uFEFF' :: cs => cs
    | cs => cs
  (lines cs).filterMap Rule.ofLine?

/-- What rules say about a path below their directory: the last one that matches decides. -/
def verdict (rules : List Rule) (path : String) (isDirectory : Bool) : Verdict :=
  rules.foldl (fun v r =>
    if (!r.onlyDirectories || isDirectory) && matchesAll r.pattern path then
      if r.keeps then .kept else .ignored
    else v) .silent

/-! ## The rules of directories -/

/-- The rules that a directory has for what is below it. -/
structure Level where
  /-- Those of its file `.ignore`. -/
  general : List Rule
  /-- Those of its file `.gitignore`. -/
  versioned : List Rule
  /-- Those that its repository excludes, if it is the top of one. -/
  excluded : List Rule
  /-- Whether it is the top of a repository. -/
  isRepository : Bool
  /-- The names that lead from it to the directory that is visited. -/
  below : List String
  deriving Inhabited

/-- The rules in a file that components lead to, if there is one. -/
def rulesAt (t : FileTree) (path : List String) : List Rule :=
  match (Place.mk t []).follow (path.map String.toList) with
  | some place =>
    match place.here.readText with
    | .ok text => rulesOf text
    | .error _ => []
  | none => []

/-- The rules of a directory from which names lead to the directory that is visited. -/
def Level.ofDirectory (t : FileTree) (below : List String) : Level where
  general := rulesAt t [".ignore"]
  versioned := rulesAt t [".gitignore"]
  excluded := rulesAt t [".git", "info", "exclude"]
  isRepository := (t.entries.lookup ".git").isSome
  below := below

/-- The path of an entry of the visited directory, from the directory of the rules. -/
def Level.relative (l : Level) (name : String) : String := "/".intercalate (l.below ++ [name])

/-- The rules when a directory in the visited one is visited. -/
def Level.descend (l : Level) (name : String) : Level := { l with below := l.below ++ [name] }

/-- What some of the rules of levels, the nearest first, say about an entry. -/
def verdictOf (rules : Level → List Rule) (levels : List Level) (name : String)
    (isDirectory : Bool) : Verdict :=
  levels.foldl (fun v l => v.or (verdict (rules l) (l.relative name) isDirectory)) .silent

/-- The levels up to the first that is the top of a repository, if there is one at all. -/
def repositoryLevels (levels : List Level) : List Level :=
  let inside := levels.takeWhile (!·.isRepository)
  if inside.length < levels.length then levels.take (inside.length + 1) else []

/-- Whether an entry of the visited directory is left out.  Rules for the versions of a repository
count inside of one only, behind all others; what no rule keeps is left out if it is hidden. -/
def isLeftOut (levels : List Level) (name : String) (isDirectory : Bool) : Bool :=
  let inside := repositoryLevels levels
  let v := (verdictOf Level.general levels name isDirectory).or
    ((verdictOf Level.versioned inside name isDirectory).or
      (verdictOf Level.excluded inside name isDirectory))
  v = .ignored || (v = .silent && name.startsWith ".")

end DocProse.Ignore
