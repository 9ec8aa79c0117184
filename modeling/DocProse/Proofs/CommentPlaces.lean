import DocProse.Proofs.Building
import DocProse.Proofs.Description
import DocProse.TypeScript

/-!
# Documents by the places of comments

All that a document takes from a grammar is where the comments are.  A comment
whose slice of the text has a description gives a text node (`textAt?`), and
the children of the document are the text nodes of the comments, in preorder
(`Grammar.document_eq`).  So no other node of the tree has an influence, nor has
the way the comments are spread over it.
-/

namespace DocProse

open Text

variable {source : List Char} {table : LineTable} {range : ByteRange}

/-- The text node of a comment at some place of a text. -/
def textAt? (source : List Char) (table : LineTable) (range : ByteRange) : Option TextNode :=
  (GrammarNode.proseAt? source range).map fun prose =>
    TextNode.new prose range (table.span range.start range.stop)

namespace GrammarNode

/-- What stands between two offsets has prose when it has a description. -/
theorem proseAt?_eq_some_iff {prose : String} :
    proseAt? source range = some prose ↔
      ∃ part, slice? range.start range.stop source = some part ∧
        Comment.describe part = some prose.toList := by
  rw [proseAt?, Option.bind_eq_some_iff]
  constructor
  · rintro ⟨part, sliced, described⟩
    obtain ⟨d, found, rfl⟩ := Option.map_eq_some_iff.1 described
    exact ⟨part, sliced, by rw [found, String.toList_ofList]⟩
  · rintro ⟨part, sliced, described⟩
    exact ⟨part, sliced, by rw [described, Option.map_some, String.ofList_toList]⟩

theorem proseAt?_ne_empty {prose : String} (h : proseAt? source range = some prose) :
    prose ≠ "" := by
  obtain ⟨part, -, described⟩ := proseAt?_eq_some_iff.1 h
  intro empty
  apply Comment.describe_ne_nil described
  rw [empty]
  rfl

/-- What holds of no nodes, and of nodes in a row when it holds of those under the first and of
those behind it, holds of all nodes in a row. -/
theorem forest_induction {P : List GrammarNode → Prop} (nil : P [])
    (cons : ∀ n ns, P n.children → P ns → P (n :: ns)) (ns : List GrammarNode) : P ns :=
  @GrammarNode.rec_1 (fun n => P n.children) P (fun _ _ _ _ below => below) nil
    (fun n ns below behind => cons n ns below behind) ns

theorem comments_eq (n : GrammarNode) : n.comments = commentsAmong n.children := by
  cases n
  rw [comments]

theorem descendants_read (n : GrammarNode) :
    (n.read source).descendants = SyntaxNode.preorder (readAll source n.children) := by
  cases n
  rw [read, SyntaxNode.descendants]

theorem textNode?_read (n : GrammarNode) :
    Document.textNode? table (n.read source) =
      if n.kind = commentKind then textAt? source table ⟨n.start, n.stop⟩ else none := by
  cases n with
  | mk kind start stop children =>
    rw [read, Document.textNode?, prose?]
    by_cases isComment : kind = commentKind
    · simp only [isComment, if_true, textAt?]
      cases found : proseAt? source ⟨start, stop⟩ with
      | none => rfl
      | some prose =>
        have visible : prose.isEmpty = false := by simpa using proseAt?_ne_empty found
        simp [visible]
    · simp [isComment]

/-- The text nodes of several trees that are read in a text are those of their comments. -/
theorem filterMap_preorder_readAll (ns : List GrammarNode) :
    (SyntaxNode.preorder (readAll source ns)).filterMap (Document.textNode? table) =
      (commentsAmong ns).filterMap (textAt? source table) := by
  induction ns using forest_induction with
  | nil => rfl
  | cons n ns below behind =>
    rw [readAll, SyntaxNode.preorder, descendants_read, commentsAmong, comments_eq,
      List.filterMap_cons, textNode?_read, List.filterMap_append, List.filterMap_append,
      List.filterMap_append, below, behind]
    by_cases isComment : n.kind = commentKind
    · cases found : textAt? source table ⟨n.start, n.stop⟩ <;> simp [isComment, found]
    · simp [isComment]

end GrammarNode

namespace Grammar

variable {g : Grammar} {dialect : Dialect} {text : String} {doc : Document}

/-- The document of a text whose comments are at some places. -/
def documentOf (text : String) (comments : List ByteRange) : Document :=
  Document.new text ⟨Position.first, endPosition text⟩
    (comments.filterMap (textAt? text.toList (LineTable.ofText text)))

/-- A grammar that can be used and gives a tree gives the document of the places of its
comments. -/
theorem document_eq {root : GrammarNode} (usable : g.refusal? dialect = none)
    (parsed : g.root? dialect text = some root) :
    g.document dialect text = .ok (documentOf text (g.comments dialect text)) := by
  have tree : g.parse dialect text = .ok ⟨root.read text.toList, LineTable.ofText text⟩ := by
    simp [parse, usable, parsed]
  have found : g.comments dialect text = root.comments := by
    simp [comments, parsed]
  rw [document, SourceParser.document, tree, found, documentOf, GrammarNode.comments_eq,
    ← GrammarNode.filterMap_preorder_readAll, ← GrammarNode.descendants_read]
  rfl

/-- Any document by a grammar is that of the places of its comments. -/
theorem eq_documentOf (h : g.document dialect text = .ok doc) :
    doc = documentOf text (g.comments dialect text) := by
  cases usable : g.refusal? dialect with
  | some cause => simp [document, SourceParser.document, parse, usable, Except.map] at h
  | none =>
    cases parsed : g.root? dialect text with
    | none => simp [document, SourceParser.document, parse, usable, parsed, Except.map] at h
    | some root =>
      rw [document_eq usable parsed] at h
      exact (Except.ok.inj h).symm

end Grammar

end DocProse
