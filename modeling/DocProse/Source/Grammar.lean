import DocProse.Comment.Description
import DocProse.Dialect
import DocProse.Document

/-!
# Grammars

A grammar makes a tree of nodes of a source text.  How it does so is not part of
this library: a `Grammar` is whatever gives, for a dialect and a text, the root
of such a tree.  It may refuse a dialect altogether, and it may give no tree.

What a syntax tree adds to the nodes of a grammar is prose.  A node of the kind
`comment` stands for the slice of the text that it covers, and has the
description of that slice (`GrammarNode.prose?`).  The slice is taken with the
ends checked, so a node that lies partly outside the text has no prose.

Only the places of the comments under the root matter for a document.
`GrammarNode.comments` lists them in preorder.
-/

namespace DocProse

open Text

/-- A node of what a grammar makes of a text. -/
structure GrammarNode where
  /-- What the grammar calls it. -/
  kind : String
  /-- The byte where it starts. -/
  start : Nat
  /-- The byte behind it. -/
  stop : Nat
  /-- The nodes right under it, in source order. -/
  children : List GrammarNode
  deriving Inhabited

namespace GrammarNode

/-- What a grammar calls a comment. -/
def commentKind : String := "comment"

/-- The description of what stands in a text between two offsets. -/
def proseAt? (source : List Char) (range : ByteRange) : Option String :=
  (slice? range.start range.stop source).bind fun part =>
    (Comment.describe part).map String.ofList

/-- The prose of a node of some kind that covers a range of a text. -/
def prose? (source : List Char) (kind : String) (range : ByteRange) : Option String :=
  if kind = commentKind then proseAt? source range else none

mutual

/-- A node that is read in the text it was made of. -/
def read (source : List Char) : GrammarNode → SyntaxNode
  | ⟨kind, start, stop, children⟩ =>
    { kind := kind, start := start, stop := stop,
      comment := prose? source kind ⟨start, stop⟩,
      children := readAll source children }

/-- Several nodes that are read in the text they were made of. -/
def readAll (source : List Char) : List GrammarNode → List SyntaxNode
  | [] => []
  | n :: ns => n.read source :: readAll source ns

end

mutual

/-- The places of the comments under a node, in preorder. -/
def comments : GrammarNode → List ByteRange
  | ⟨_, _, _, children⟩ => commentsAmong children

/-- The places of the comments in several trees in a row, in preorder. -/
def commentsAmong : List GrammarNode → List ByteRange
  | [] => []
  | n :: ns =>
    (if n.kind = commentKind then [⟨n.start, n.stop⟩] else []) ++ (n.comments ++ commentsAmong ns)

end

end GrammarNode

/-- What turns source texts into trees of nodes. -/
structure Grammar where
  /-- Why it cannot be used for a dialect, if it cannot. -/
  refusal? : Dialect → Option String
  /-- The root of the tree of a text, if it gives one. -/
  root? : Dialect → String → Option GrammarNode

namespace Grammar

/-- The syntax tree of a text by a grammar. -/
def parse (g : Grammar) (dialect : Dialect) : SourceParser := fun text =>
  match g.refusal? dialect with
  | some cause =>
    .error (.language ("Failed to set " ++ dialect.name ++ " language: " ++ cause))
  | none =>
    match g.root? dialect text with
    | none => .error (.parse (dialect.name ++ " parser produced no tree"))
    | some root => .ok ⟨root.read text.toList, LineTable.ofText text⟩

/-- The places of the comments that a grammar finds in a text, in preorder. -/
def comments (g : Grammar) (dialect : Dialect) (text : String) : List ByteRange :=
  match g.root? dialect text with
  | none => []
  | some root => root.comments

end Grammar

end DocProse
