import DocProse.Document.Format
import DocProse.Proofs.FirstFault

/-!
# The shapes of documents

The parts of a document and their shapes.  Every reader follows its shape
(`ofJson_followsShape`): it accepts the values of the shape and no others, and of
several faults it reports the one that the shape blames.
-/

namespace DocProse

open Json

/-! ## Shapes -/

def NodeKind.shape : Shape := .tag ["Document", "Str"]

def Position.shape : Shape := .record "TextPosition" [("line", .size), ("column", .size)]

def Span.shape : Shape :=
  .record "Location" [("start", Position.shape), ("end", Position.shape)]

def ByteRange.shape : Shape := .pair .size

def TextNode.shape : Shape :=
  .record "TextNode" [("type", NodeKind.shape), ("raw", .text), ("value", .text),
    ("range", ByteRange.shape), ("loc", Span.shape)]

def Document.shape : Shape :=
  .record "DocumentNode" [("type", NodeKind.shape), ("raw", .text), ("range", ByteRange.shape),
    ("loc", Span.shape), ("children", .list TextNode.shape)]

/-! ## Positions and spans -/

theorem NodeKind.reads : Reads NodeKind.ofJson NodeKind.shape := reads_tag NodeKind.tags

-- Each chain below goes through its reader line by line: the fields by key and what has to
-- be there for an object, the elements for a list.

theorem Position.reads : Reads Position.ofJson Position.shape := by
  refine reads_record [("column", .size), ("line", .size)] (by decide) (by simp [or_comm])
    (fun o => ?_) (fun vs => ?_) fun v other => ?_
  · refine .bind (reads_size.takes_readField o "column") fun column foundColumn => ?_
    refine .bind (reads_size.takes_readField o "line") fun line foundLine => ?_
    refine .bind (takes_required foundLine .size) fun _ _ => ?_
    refine .bind (takes_required foundColumn .size) fun _ _ => ?_
    exact .done _
  · refine .bind (reads_size.takes_readElement vs 0 _) fun line _ => ?_
    refine .bind (reads_size.takes_readElement vs 1 _) fun column _ => ?_
    exact takes_noMore _ vs 2 _
  · cases v <;> first | rfl | exact absurd trivial other

theorem Span.reads : Reads Span.ofJson Span.shape := by
  refine reads_record [("end", Position.shape), ("start", Position.shape)] (by decide)
    (by simp [or_comm]) (fun o => ?_) (fun vs => ?_) fun v other => ?_
  · refine .bind (Position.reads.takes_readField o "end") fun stop foundStop => ?_
    refine .bind (Position.reads.takes_readField o "start") fun start foundStart => ?_
    refine .bind (takes_required foundStart Position.shape) fun _ _ => ?_
    refine .bind (takes_required foundStop Position.shape) fun _ _ => ?_
    exact .done _
  · refine .bind (Position.reads.takes_readElement vs 0 _) fun start _ => ?_
    refine .bind (Position.reads.takes_readElement vs 1 _) fun stop _ => ?_
    exact takes_noMore _ vs 2 _
  · cases v <;> first | rfl | exact absurd trivial other

theorem ByteRange.reads : Reads ByteRange.ofJson ByteRange.shape :=
  reads_of_takes fun v => (reads_size.pair.takes v).map

/-! ## Nodes -/

theorem TextNode.reads : Reads TextNode.ofJson TextNode.shape := by
  refine reads_record [("loc", Span.shape), ("range", ByteRange.shape), ("raw", .text),
    ("type", NodeKind.shape), ("value", .text)] (by decide) (by simp; tauto)
    (fun o => ?_) (fun vs => ?_) fun v other => ?_
  · refine .bind (Span.reads.takes_readField o "loc") fun span foundSpan => ?_
    refine .bind (ByteRange.reads.takes_readField o "range") fun range foundRange => ?_
    refine .bind (reads_text.takes_readField o "raw") fun raw foundRaw => ?_
    refine .bind (NodeKind.reads.takes_readField o "type") fun kind foundKind => ?_
    refine .bind (reads_text.takes_readField o "value") fun value foundValue => ?_
    refine .bind (takes_required foundKind NodeKind.shape) fun _ _ => ?_
    refine .bind (takes_required foundRaw .text) fun _ _ => ?_
    refine .bind (takes_required foundValue .text) fun _ _ => ?_
    refine .bind (takes_required foundRange ByteRange.shape) fun _ _ => ?_
    refine .bind (takes_required foundSpan Span.shape) fun _ _ => ?_
    exact .done _
  · refine .bind (NodeKind.reads.takes_readElement vs 0 _) fun kind _ => ?_
    refine .bind (reads_text.takes_readElement vs 1 _) fun raw _ => ?_
    refine .bind (reads_text.takes_readElement vs 2 _) fun value _ => ?_
    refine .bind (ByteRange.reads.takes_readElement vs 3 _) fun range _ => ?_
    refine .bind (Span.reads.takes_readElement vs 4 _) fun span _ => ?_
    exact takes_noMore _ vs 5 _
  · cases v <;> first | rfl | exact absurd trivial other

theorem Document.reads : Reads Document.ofJson Document.shape := by
  refine reads_record [("children", .list TextNode.shape), ("loc", Span.shape),
    ("range", ByteRange.shape), ("raw", .text), ("type", NodeKind.shape)] (by decide)
    (by simp; tauto) (fun o => ?_) (fun vs => ?_) fun v other => ?_
  · refine .bind (TextNode.reads.list.takes_readField o "children") fun children foundChildren => ?_
    refine .bind (Span.reads.takes_readField o "loc") fun span foundSpan => ?_
    refine .bind (ByteRange.reads.takes_readField o "range") fun range foundRange => ?_
    refine .bind (reads_text.takes_readField o "raw") fun raw foundRaw => ?_
    refine .bind (NodeKind.reads.takes_readField o "type") fun kind foundKind => ?_
    refine .bind (takes_required foundKind NodeKind.shape) fun _ _ => ?_
    refine .bind (takes_required foundRaw .text) fun _ _ => ?_
    refine .bind (takes_required foundRange ByteRange.shape) fun _ _ => ?_
    refine .bind (takes_required foundSpan Span.shape) fun _ _ => ?_
    refine .bind (takes_required foundChildren (.list TextNode.shape)) fun _ _ => ?_
    exact .done _
  · refine .bind (NodeKind.reads.takes_readElement vs 0 _) fun kind _ => ?_
    refine .bind (reads_text.takes_readElement vs 1 _) fun raw _ => ?_
    refine .bind (ByteRange.reads.takes_readElement vs 2 _) fun range _ => ?_
    refine .bind (Span.reads.takes_readElement vs 3 _) fun span _ => ?_
    refine .bind (TextNode.reads.list.takes_readElement vs 4 _) fun children _ => ?_
    exact takes_noMore _ vs 5 _
  · cases v <;> first | rfl | exact absurd trivial other

/-- A document is read from exactly the values that its shape accepts, and fails with what the shape
blames on every other value, and so is each part of a document. -/
theorem ofJson_followsShape :
    Reads Document.ofJson Document.shape ∧ Reads TextNode.ofJson TextNode.shape ∧
      Reads NodeKind.ofJson NodeKind.shape ∧ Reads ByteRange.ofJson ByteRange.shape ∧
      Reads Span.ofJson Span.shape ∧ Reads Position.ofJson Position.shape :=
  ⟨Document.reads, TextNode.reads, NodeKind.reads, ByteRange.reads, Span.reads, Position.reads⟩

-- The key `loc` comes before `raw` and a bad value before a missing one, here `start`.
example : Document.ofJson (.obj [("children", .arr []),
      ("loc", .obj [("end", .obj [("line", .int (-1))])]), ("raw", .int 3)]) =
    .error (.negative (-1)) := by rfl

end DocProse
