import DocProse.Document
import DocProse.Json.Schema

/-!
# Documents as JSON

Each type is written as an object with its fields and read back from it
(`toJson`, `ofJson`).  Readers also take the list of the fields in the order of
declaration.
-/

namespace DocProse

open Json

/-! ## Kinds, positions and spans -/

namespace NodeKind

/-- A kind by its name. -/
def toJson (k : NodeKind) : Json := .str k.name

/-- The kinds by name. -/
def tags : List (String × NodeKind) := [("Document", .document), ("Str", .str)]

/-- A kind from its name. -/
def ofJson : Reader NodeKind := readTag tags

end NodeKind

namespace Position

/-- A position as an object. -/
def toJson (p : Position) : Json := .obj [("column", nat p.column), ("line", nat p.line)]

/-- A position. -/
def ofJson : Reader Position
  | .obj fields => do
    let column ← readField fields "column" readSize
    let line ← readField fields "line" readSize
    let line ← required "line" line
    let column ← required "column" column
    return ⟨line, column⟩
  | .arr vs => do
    let wanted := Wanted.fields "TextPosition" 2
    let line ← readElement vs 0 wanted readSize
    let column ← readElement vs 1 wanted readSize
    noMore vs 2
    return ⟨line, column⟩
  | v => .error (.wrongKind v (.record "TextPosition"))

end Position

namespace Span

/-- A span as an object. -/
def toJson (s : Span) : Json := .obj [("end", s.stop.toJson), ("start", s.start.toJson)]

/-- A span. -/
def ofJson : Reader Span
  | .obj fields => do
    let stop ← readField fields "end" Position.ofJson
    let start ← readField fields "start" Position.ofJson
    let start ← required "start" start
    let stop ← required "end" stop
    return ⟨start, stop⟩
  | .arr vs => do
    let wanted := Wanted.fields "Location" 2
    let start ← readElement vs 0 wanted Position.ofJson
    let stop ← readElement vs 1 wanted Position.ofJson
    noMore vs 2
    return ⟨start, stop⟩
  | v => .error (.wrongKind v (.record "Location"))

end Span

namespace ByteRange

/-- A range as the list of its ends. -/
def toJson (r : ByteRange) : Json := .arr [nat r.start, nat r.stop]

/-- A range. -/
def ofJson : Reader ByteRange := fun v =>
  (readPair readSize v).map fun (start, stop) => ⟨start, stop⟩

end ByteRange

/-! ## Nodes -/

namespace TextNode

/-- A text node as an object. -/
def toJson (n : TextNode) : Json :=
  .obj [("loc", n.span.toJson), ("range", n.range.toJson), ("raw", .str n.raw),
    ("type", n.kind.toJson), ("value", .str n.value)]

/-- A text node. -/
def ofJson : Reader TextNode
  | .obj fields => do
    let span ← readField fields "loc" Span.ofJson
    let range ← readField fields "range" ByteRange.ofJson
    let raw ← readField fields "raw" readText
    let kind ← readField fields "type" NodeKind.ofJson
    let value ← readField fields "value" readText
    let kind ← required "type" kind
    let raw ← required "raw" raw
    let value ← required "value" value
    let range ← required "range" range
    let span ← required "loc" span
    return { kind, raw, value, range, span }
  | .arr vs => do
    let wanted := Wanted.fields "TextNode" 5
    let kind ← readElement vs 0 wanted NodeKind.ofJson
    let raw ← readElement vs 1 wanted readText
    let value ← readElement vs 2 wanted readText
    let range ← readElement vs 3 wanted ByteRange.ofJson
    let span ← readElement vs 4 wanted Span.ofJson
    noMore vs 5
    return { kind, raw, value, range, span }
  | v => .error (.wrongKind v (.record "TextNode"))

end TextNode

namespace Document

/-- A document as an object. -/
def toJson (d : Document) : Json :=
  .obj [("children", .arr (d.children.map TextNode.toJson)), ("loc", d.span.toJson),
    ("range", d.range.toJson), ("raw", .str d.raw), ("type", d.kind.toJson)]

/-- A document. -/
def ofJson : Reader Document
  | .obj fields => do
    let children ← readField fields "children" (readList TextNode.ofJson)
    let span ← readField fields "loc" Span.ofJson
    let range ← readField fields "range" ByteRange.ofJson
    let raw ← readField fields "raw" readText
    let kind ← readField fields "type" NodeKind.ofJson
    let kind ← required "type" kind
    let raw ← required "raw" raw
    let range ← required "range" range
    let span ← required "loc" span
    let children ← required "children" children
    return { kind, raw, range, span, children }
  | .arr vs => do
    let wanted := Wanted.fields "DocumentNode" 5
    let kind ← readElement vs 0 wanted NodeKind.ofJson
    let raw ← readElement vs 1 wanted readText
    let range ← readElement vs 2 wanted ByteRange.ofJson
    let span ← readElement vs 3 wanted Span.ofJson
    let children ← readElement vs 4 wanted (readList TextNode.ofJson)
    noMore vs 5
    return { kind, raw, range, span, children }
  | v => .error (.wrongKind v (.record "DocumentNode"))

end Document

end DocProse
