import DocProse.Source.Grammar
import DocProse.Source.Scan

/-!
# The comments of a source text

The place of a comment follows from the lengths of the pieces before it.
`scanner` is the grammar that gives one node per comment under the root, in
source order, and no others.
-/

namespace DocProse.Source

open Text

/-- The nodes of the comments among pieces that start at an offset. -/
def commentNodes (offset : Nat) : List Piece → List GrammarNode
  | [] => []
  | p :: ps =>
    let next := offset + byteSize p.text
    if p.isComment then
      { kind := GrammarNode.commentKind, start := offset, stop := next, children := [] }
        :: commentNodes next ps
    else commentNodes next ps

/-- The root of the tree of a text that consists of some pieces. -/
def rootOfPieces (text : String) (pieces : List Piece) : GrammarNode :=
  { kind := "program", start := 0, stop := text.utf8ByteSize, children := commentNodes 0 pieces }

/-- The grammar that scans a text for its comments. -/
def scanner : Grammar where
  refusal? _ := none
  root? dialect text := some (rootOfPieces text (scan dialect text.toList))

end DocProse.Source
