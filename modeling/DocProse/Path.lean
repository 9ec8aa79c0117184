/-!
# Paths

A path is a text whose components are separated by slashes.  Empty components
and components that are a single dot do not count.  The *file name* of a path is
its last component, unless that is two dots.  Its *extension* is what follows the
last dot of the file name, unless this dot is the first character of the name.

A path is a text here.  Paths whose bytes are not UTF-8 are outside of this model,
and with them the losses of showing one as a text.
-/

namespace DocProse

namespace Path

/-- The parts of a text between its slashes. -/
def splitSlashes : List Char → List (List Char)
  | [] => [[]]
  | c :: cs => if c = '/' then [] :: splitSlashes cs else (splitSlashes cs).modifyHead (c :: ·)

/-- The components of a path that count. -/
def components (path : List Char) : List (List Char) :=
  (splitSlashes path).filter fun name => !name.isEmpty && name != ['.']

/-- The last component, unless it is two dots. -/
def fileName? (path : List Char) : Option (List Char) :=
  match (components path).getLast? with
  | some ['.', '.'] => none
  | name => name

/-- A text cut at its last dot, if it has one. -/
def splitLastDot? (name : List Char) : Option (List Char × List Char) :=
  let suffix := (name.reverse.takeWhile (· != '.')).reverse
  if suffix.length < name.length then
    some (name.take (name.length - suffix.length - 1), suffix)
  else none

/-- What follows the last dot of a file name, unless the dot comes first. -/
def nameExtension? (name : List Char) : Option (List Char) :=
  match splitLastDot? name with
  | some (stem, suffix) => if stem.isEmpty then none else some suffix
  | none => none

/-- The extension of a path. -/
def extensionOf? (path : List Char) : Option (List Char) := (fileName? path).bind nameExtension?

/-- The extension of a path. -/
def extension? (path : String) : Option String :=
  (extensionOf? path.toList).map String.ofList

/-- Whether two paths consist of the same components.  A slash at the start counts, and so does a
single dot there. -/
def same (p q : String) : Bool := parts p.toList == parts q.toList
where
  /-- How a path starts, and its components. -/
  parts (path : List Char) : Bool × Bool × List (List Char) :=
    (path.head? == some '/', (splitSlashes path).head? == some ['.'], components path)

/-- A path with a further component, as a directory shows its entries. -/
def join (directory name : String) : String :=
  if directory.isEmpty then name
  else if directory.toList.getLast? == some '/' then directory ++ name
  else directory ++ "/" ++ name

end Path

/-- A text without the dots it starts with. -/
def dropDots (s : List Char) : List Char := s.dropWhile (· == '.')

/-- A text without the dots it starts with. -/
def stripDots (s : String) : String := String.ofList (dropDots s.toList)

end DocProse
