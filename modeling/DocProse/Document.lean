import DocProse.Error
import DocProse.SyntaxTree

/-!
# Documents

A document is the prose of a source text as a flat tree: a root that holds the
whole text, and under it one text node per documentation comment with prose, in
the preorder of the syntax tree.  Each node carries its byte range and its span.

The parser that gives the syntax tree is a parameter (`SourceParser`).
-/

namespace DocProse

/-- What a node of a document is. -/
inductive NodeKind where
  /-- The root. -/
  | document
  /-- A text. -/
  | str
  deriving DecidableEq, Repr, Inhabited

/-- The name of a kind of node. -/
def NodeKind.name : NodeKind → String
  | .document => "Document"
  | .str => "Str"

/-- A range of bytes. -/
structure ByteRange where
  /-- The first byte. -/
  start : Nat
  /-- The byte behind the last one. -/
  stop : Nat
  deriving DecidableEq, Repr, Inhabited

/-- The prose of one documentation comment. -/
structure TextNode where
  /-- What it is: a text, when it is built here. -/
  kind : NodeKind
  /-- The prose. -/
  raw : String
  /-- The prose once more. -/
  value : String
  /-- The bytes of the comment. -/
  range : ByteRange
  /-- The place of the comment. -/
  span : Span
  deriving DecidableEq, Repr, Inhabited

/-- The prose of a source text. -/
structure Document where
  /-- What it is: a document, when it is built here. -/
  kind : NodeKind
  /-- The source text. -/
  raw : String
  /-- The bytes of the source text. -/
  range : ByteRange
  /-- The extent of the source text. -/
  span : Span
  /-- The texts in it. -/
  children : List TextNode
  deriving DecidableEq, Repr, Inhabited

/-- A text node for prose found somewhere. -/
def TextNode.new (value : String) (range : ByteRange) (span : Span) : TextNode :=
  { kind := .str, raw := value, value := value, range := range, span := span }

namespace Document

/-- A document of a source text. -/
def new (raw : String) (span : Span) (children : List TextNode) : Document :=
  { kind := .document, raw := raw, range := ⟨0, raw.utf8ByteSize⟩, span := span,
    children := children }

/-- The prose of all texts, in order. -/
def texts (d : Document) : List String := d.children.map TextNode.value

/-- Whether there is no text. -/
def isEmpty (d : Document) : Bool := d.children.isEmpty

/-! ## Building -/

/-- The text node of a syntax node that holds prose. -/
def textNode? (table : LineTable) (n : SyntaxNode) : Option TextNode :=
  match n.comment with
  | none => none
  | some prose =>
    if prose.isEmpty then none
    else some (TextNode.new prose ⟨n.start, n.stop⟩ (table.span n.start n.stop))

/-- The document of a text and its syntax tree. -/
def ofTree (text : String) (tree : SyntaxTree) : Document :=
  new text ⟨Position.first, endPosition text⟩
    (tree.root.descendants.filterMap (textNode? tree.lineTable))

end Document

/-- Turns a source text into a syntax tree. -/
abbrev SourceParser := String → Except Error SyntaxTree

/-- The document of a text by a parser, or what the parser fails with. -/
def SourceParser.document (parse : SourceParser) (text : String) : Except Error Document :=
  (parse text).map (Document.ofTree text)

end DocProse
