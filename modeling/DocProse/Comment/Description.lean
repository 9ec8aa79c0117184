import DocProse.Text.Blank
import DocProse.Text.Bytes
import DocProse.Text.Lines

/-!
# The description of a documentation comment

A *documentation comment* opens with a slash and two stars and closes with a
star and a slash, and the two do not overlap.  Its *description* is the prose
before the first block tag: each line loses its gutter (leading blanks, one
star, one space after the star), the lines from the first one that starts with
`@` on are dropped, trailing blanks go from each line, and blanks go from both
ends of the whole.  A comment without prose has no description.

`write` lays prose out as a comment again, one gutter per line.
-/

namespace DocProse.Comment

open Text

/-! ## The comment and its body -/

/-- What opens a documentation comment. -/
def opening : List Char := ['/', '*', '*']

/-- What closes a comment. -/
def closing : List Char := ['*', '/']

/-- Whether a text is a documentation comment.  Its five bytes at least rule out an overlap. -/
def isDoc (text : List Char) : Bool :=
  5 ≤ byteSize text && opening.isPrefixOf text && closing.isSuffixOf text

/-- The text between opening and closing. -/
def body? (text : List Char) : Option (List Char) :=
  if isDoc text then slice? 3 (byteSize text - 2) text else none

/-! ## Its prose -/

/-- A line without the blanks it starts with, one star after them, and one space after the star. -/
def stripGutter (line : List Char) : List Char :=
  match trimStart line with
  | '*' :: ' ' :: rest => rest
  | '*' :: rest => rest
  | rest => rest

/-- Whether a line opens a block tag. -/
def isTag (line : List Char) : Bool := (trimStart line).head? == some '@'

/-- The lines of prose in a body, without gutters and trailing blanks. -/
def proseLines (body : List Char) : List (List Char) :=
  (((lines body).map stripGutter).takeWhile (!isTag ·)).map trimEnd

/-- The prose of a body. -/
def prose (body : List Char) : List Char := trim (unpieces (proseLines body))

/-- The description of a documentation comment, if there is one. -/
def describe (text : List Char) : Option (List Char) := do
  let p := prose (← body? text)
  if p.isEmpty then none else some p

/-- The description of a documentation comment, if the text is one and has one. -/
def description (text : String) : Option String := (describe text.toList).map String.ofList

/-- A description is never empty. -/
theorem describe_ne_nil {text d : List Char} (h : describe text = some d) : d ≠ [] := by
  unfold describe at h
  cases hb : body? text with
  | none => simp [hb] at h
  | some b =>
    simp only [hb, Option.bind_eq_bind, Option.bind_some] at h
    split at h
    · cases h
    · cases h
      simpa using ‹¬ (prose b).isEmpty = true›

/-! ## Writing prose as a comment -/

/-- One line of prose behind its gutter. -/
def gutterLine (line : List Char) : List Char := [' ', '*', ' '] ++ line ++ ['\n']

/-- A documentation comment that holds the given prose. -/
def write (prose : List Char) : List Char :=
  opening ++ ['\n'] ++ (pieces prose).flatMap gutterLine ++ [' '] ++ closing

end DocProse.Comment
