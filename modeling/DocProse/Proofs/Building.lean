import DocProse.Document
import DocProse.Proofs.Cursor

/-!
# What a document is built of

A syntax node gives a text node when it holds prose, and this text node has its
range and, by the line table, its span (`textNode?_eq_some_iff`).  The children
of a document come from the nodes under the root, in preorder.

The extent of a document is that of its text: it ends where the line table of
the text has the last offset (`span_ofTree`).
-/

namespace DocProse

open Text

variable {table : LineTable} {n : SyntaxNode} {c : TextNode}

/-- A node that holds prose: the comment of something, and not an empty one. -/
def SyntaxNode.HoldsProse (n : SyntaxNode) : Prop := ∃ prose, n.comment = some prose ∧ prose ≠ ""

instance (n : SyntaxNode) : Decidable n.HoldsProse :=
  decidable_of_iff (n.comment.any (· ≠ "") = true) (by
    cases comment : n.comment <;> simp [SyntaxNode.HoldsProse, comment])

namespace Document

/-- The text node of a node that holds prose. -/
theorem textNode?_eq_some_iff :
    textNode? table n = some c ↔
      ∃ prose, n.comment = some prose ∧ prose ≠ "" ∧
        c = TextNode.new prose ⟨n.start, n.stop⟩ (table.span n.start n.stop) := by
  constructor
  · intro h
    rw [textNode?] at h
    split at h
    · cases h
    · next prose comment =>
      split at h
      · cases h
      · next visible =>
        cases h
        exact ⟨prose, comment, by simpa using visible, rfl⟩
  · rintro ⟨prose, comment, visible, rfl⟩
    have kept : prose.isEmpty = false := by simpa using visible
    simp [textNode?, comment, kept]

/-- What a text node tells about the node it was made of. -/
theorem of_textNode?_eq_some (h : textNode? table n = some c) :
    n.HoldsProse ∧ c.range = ⟨n.start, n.stop⟩ ∧ c.span = table.span n.start n.stop := by
  obtain ⟨prose, comment, visible, rfl⟩ := textNode?_eq_some_iff.1 h
  exact ⟨⟨prose, comment, visible⟩, rfl, rfl⟩

theorem exists_textNode?_iff : (∃ c, textNode? table n = some c) ↔ n.HoldsProse := by
  constructor
  · rintro ⟨c, found⟩
    exact (of_textNode?_eq_some found).1
  · rintro ⟨prose, comment, visible⟩
    exact ⟨_, textNode?_eq_some_iff.2 ⟨prose, comment, visible, rfl⟩⟩

/-- The extent of a document, by the line table of its text. -/
theorem span_ofTree (text : String) (tree : SyntaxTree) :
    (ofTree text tree).span = (LineTable.ofText text).span 0 text.utf8ByteSize := by
  have start : (LineTable.ofText text).position 0 = Position.first :=
    LineTable.position_ofChars_append [] text.toList
  have stop : (LineTable.ofText text).position text.utf8ByteSize = endPosition text := by
    rw [utf8ByteSize_eq, LineTable.ofText, LineTable.position_byteSize, endPosition,
      endOfChars_eq_behind]
  rw [LineTable.span, start, stop]
  rfl

end Document

end DocProse
