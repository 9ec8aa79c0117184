import DocProse.Proofs.Building
import Mathlib.Data.List.Chain

/-!
# Source order

In a well nested tree every node covers its children, and these follow one
another (`SyntaxNode.WellNested`).  The preorder of such a tree need not be in
source order, since a node starts before the nodes under it end.  It is in
source order among nodes of which none is above another.

So the texts of a document follow one another, by their ranges and by their
spans, as long as no prose stands under other prose (`SyntaxNode.ProseApart`).
They lie inside the document, which is well formed itself
(`document_inSourceOrder`).  The spans follow from the ranges, because the line
table of a text keeps the order of offsets (`LineTable.position_mono`).
-/

namespace DocProse

namespace SyntaxNode

variable {n m root : SyntaxNode} {ns : List SyntaxNode} {lo hi : Nat}

/-! ## Well nested trees -/

/-- A node that covers its children, which follow one another. -/
structure Covers (n : SyntaxNode) : Prop where
  /-- It does not end before it starts. -/
  ordered : n.start ≤ n.stop
  /-- Each child lies within it. -/
  inside : ∀ c ∈ n.children, n.start ≤ c.start ∧ c.stop ≤ n.stop
  /-- No child starts before the one before it ends. -/
  inOrder : n.children.IsChain fun l r => l.stop ≤ r.start

/-- A tree whose nodes all cover their children. -/
def WellNested (root : SyntaxNode) : Prop := ∀ n ∈ root :: root.descendants, n.Covers

/-- A tree in which no prose stands under other prose.  The root may hold prose or not. -/
def ProseApart (root : SyntaxNode) : Prop :=
  ∀ n ∈ root.descendants, n.HoldsProse → ∀ m ∈ n.descendants, ¬ m.HoldsProse

instance (n : SyntaxNode) : Decidable n.Covers :=
  decidable_of_iff
    (n.start ≤ n.stop ∧ (∀ c ∈ n.children, n.start ≤ c.start ∧ c.stop ≤ n.stop) ∧
      n.children.IsChain fun l r => l.stop ≤ r.start)
    ⟨fun h => ⟨h.1, h.2.1, h.2.2⟩, fun h => ⟨h.ordered, h.inside, h.inOrder⟩⟩

instance (root : SyntaxNode) : Decidable root.WellNested :=
  inferInstanceAs (Decidable (∀ n ∈ root :: root.descendants, n.Covers))

instance (root : SyntaxNode) : Decidable root.ProseApart :=
  inferInstanceAs (Decidable
    (∀ n ∈ root.descendants, n.HoldsProse → ∀ m ∈ n.descendants, ¬ m.HoldsProse))

/-! ## Preorder -/

theorem descendants_eq (n : SyntaxNode) : n.descendants = preorder n.children := by
  cases n
  rw [descendants]

theorem preorder_cons (n : SyntaxNode) (ns : List SyntaxNode) :
    preorder (n :: ns) = n :: (preorder n.children ++ preorder ns) := by
  rw [preorder, descendants_eq]

/-- A node in preorder is the first tree, or under it, or in a later tree. -/
theorem mem_preorder_cons :
    m ∈ preorder (n :: ns) ↔ m = n ∨ m ∈ preorder n.children ∨ m ∈ preorder ns := by
  rw [preorder_cons, List.mem_cons, List.mem_append]

theorem mem_preorder_of_mem (h : n ∈ ns) : n ∈ preorder ns := by
  induction ns with
  | nil => cases h
  | cons k ns ih =>
    rcases List.mem_cons.1 h with first | later
    · exact mem_preorder_cons.2 (.inl first)
    · exact mem_preorder_cons.2 (.inr (.inr (ih later)))

/-- What holds of no trees, and of trees in a row when it holds of those under the first and of
those behind it, holds of all trees in a row. -/
theorem forest_induction {P : List SyntaxNode → Prop} (nil : P [])
    (cons : ∀ n ns, P n.children → P ns → P (n :: ns)) (ns : List SyntaxNode) : P ns :=
  @SyntaxNode.rec_1 (fun n => P n.children) P (fun _ _ _ _ _ below => below) nil
    (fun n ns below behind => cons n ns below behind) ns

/-- What a node that covers its children hands down to them, every node has that stands in
preorder among trees that have it. -/
theorem forall_mem_preorder {P : SyntaxNode → Prop} (covers : ∀ m ∈ preorder ns, m.Covers)
    (handDown : ∀ n c, n.Covers → c ∈ n.children → P n → P c) (tops : ∀ n ∈ ns, P n) :
    ∀ m ∈ preorder ns, P m := by
  induction ns using forest_induction with
  | nil => exact tops
  | cons n ns below behind =>
    have first : P n := tops n List.mem_cons_self
    have covered : n.Covers := covers n (mem_preorder_cons.2 (.inl rfl))
    intro m membership
    rcases mem_preorder_cons.1 membership with same | under | later
    · subst same
      exact first
    · refine below (fun k inside => covers k (mem_preorder_cons.2 (.inr (.inl inside)))) ?_ m under
      intro c child
      exact handDown n c covered child first
    · exact behind (fun k inside => covers k (mem_preorder_cons.2 (.inr (.inr inside))))
        (fun k inside => tops k (List.mem_cons_of_mem _ inside)) m later

/-- Nodes in well nested trees start where the trees start, or later. -/
theorem le_start_of_mem_preorder (covers : ∀ m ∈ preorder ns, m.Covers)
    (bound : ∀ n ∈ ns, lo ≤ n.start) : ∀ m ∈ preorder ns, lo ≤ m.start :=
  forall_mem_preorder covers
    (fun _ c covered child first => Nat.le_trans first (covered.inside c child).1) bound

/-- Nodes in well nested trees end where the trees end, or before. -/
theorem stop_le_of_mem_preorder (covers : ∀ m ∈ preorder ns, m.Covers)
    (bound : ∀ n ∈ ns, n.stop ≤ hi) : ∀ m ∈ preorder ns, m.stop ≤ hi :=
  forall_mem_preorder covers
    (fun _ c covered child first => Nat.le_trans (covered.inside c child).2 first) bound

/-- Siblings that follow one another do so at any distance. -/
theorem pairwise_of_isChain (ordered : ∀ n ∈ ns, n.start ≤ n.stop)
    (chain : ns.IsChain fun l r => l.stop ≤ r.start) :
    ns.Pairwise fun l r => l.stop ≤ r.start := by
  induction chain with
  | nil => exact .nil
  | singleton n => exact List.pairwise_singleton _ n
  | cons_cons first rest ih =>
    next l r ns =>
    have pairs := ih fun n membership => ordered n (List.mem_cons_of_mem _ membership)
    refine .cons ?_ pairs
    intro n membership
    rcases List.mem_cons.1 membership with same | later
    · subst same
      exact first
    · have middle := ordered r (List.mem_cons_of_mem _ List.mem_cons_self)
      have second := List.rel_of_pairwise_cons pairs later
      omega

/-! ## Prose in preorder -/

/-- Prose in well nested trees that follow one another is in source order, when none stands under
other prose. -/
theorem pairwise_preorder (covers : ∀ m ∈ preorder ns, m.Covers)
    (siblings : ns.Pairwise fun l r => l.stop ≤ r.start)
    (apart : ∀ m ∈ preorder ns, m.HoldsProse → ∀ k ∈ m.descendants, ¬ k.HoldsProse) :
    (preorder ns).Pairwise fun l r => l.HoldsProse → r.HoldsProse → l.stop ≤ r.start := by
  induction ns using forest_induction with
  | nil => exact .nil
  | cons n ns below behind =>
    have covered : n.Covers := covers n (mem_preorder_cons.2 (.inl rfl))
    have coversBelow : ∀ k ∈ preorder n.children, k.Covers := fun k inside =>
      covers k (mem_preorder_cons.2 (.inr (.inl inside)))
    have coversBehind : ∀ k ∈ preorder ns, k.Covers := fun k inside =>
      covers k (mem_preorder_cons.2 (.inr (.inr inside)))
    have childrenOrdered : ∀ c ∈ n.children, c.start ≤ c.stop := by
      intro c child
      have inPreorder : c ∈ preorder n.children := mem_preorder_of_mem child
      exact (coversBelow c inPreorder).ordered
    have startsBehind : ∀ k ∈ preorder ns, n.stop ≤ k.start :=
      le_start_of_mem_preorder coversBehind fun k later => List.rel_of_pairwise_cons siblings later
    have stopsBelow : ∀ k ∈ preorder n.children, k.stop ≤ n.stop :=
      stop_le_of_mem_preorder coversBelow fun c child => (covered.inside c child).2
    rw [preorder_cons]
    refine .cons ?_ (List.pairwise_append.2 ⟨?_, ?_, ?_⟩)
    · intro k membership holdsN holdsK
      rcases List.mem_append.1 membership with under | later
      · -- Under prose there is no other.
        rw [← descendants_eq] at under
        exact absurd holdsK (apart n (mem_preorder_cons.2 (.inl rfl)) holdsN k under)
      · exact startsBehind k later
    · exact below coversBelow (pairwise_of_isChain childrenOrdered covered.inOrder) fun k inside =>
        apart k (mem_preorder_cons.2 (.inr (.inl inside)))
    · exact behind coversBehind (List.Pairwise.of_cons siblings) fun k inside =>
        apart k (mem_preorder_cons.2 (.inr (.inr inside)))
    · intro l under r later _ _
      exact Nat.le_trans (stopsBelow l under) (startsBehind r later)

theorem WellNested.covers_below (nested : root.WellNested) :
    ∀ m ∈ preorder root.children, m.Covers := by
  intro m inside
  rw [← descendants_eq] at inside
  exact nested m (List.mem_cons_of_mem _ inside)

theorem WellNested.pairwise_descendants (nested : root.WellNested) (apart : root.ProseApart) :
    root.descendants.Pairwise fun l r => l.HoldsProse → r.HoldsProse → l.stop ≤ r.start := by
  have covered : root.Covers := nested root List.mem_cons_self
  have covers := nested.covers_below
  rw [ProseApart, descendants_eq] at apart
  rw [descendants_eq]
  exact pairwise_preorder covers
    (pairwise_of_isChain (fun c child => (covers c (mem_preorder_of_mem child)).ordered)
      covered.inOrder) apart

/-- All nodes under the root of a well nested tree lie within it. -/
theorem WellNested.within (nested : root.WellNested) (h : m ∈ root.descendants) :
    root.start ≤ m.start ∧ m.start ≤ m.stop ∧ m.stop ≤ root.stop := by
  have covered : root.Covers := nested root List.mem_cons_self
  have covers := nested.covers_below
  have ordered := (nested m (List.mem_cons_of_mem _ h)).ordered
  rw [descendants_eq] at h
  exact ⟨le_start_of_mem_preorder covers (fun c child => (covered.inside c child).1) m h, ordered,
    stop_le_of_mem_preorder covers (fun c child => (covered.inside c child).2) m h⟩

end SyntaxNode

/-! ## The order of a document -/

namespace Document

open Text

variable {text : String} {tree : SyntaxTree} {c : TextNode}

/-- A child of a document comes from a node under the root that holds prose. -/
theorem exists_node_of_mem_children (h : c ∈ (ofTree text tree).children) :
    ∃ n ∈ tree.root.descendants, textNode? tree.lineTable n = some c :=
  List.mem_filterMap.1 h

/-- Offsets in order have positions in order in a text. -/
theorem position_ofText_mono (text : String) {a b : Nat} (h : a ≤ b) :
    (LineTable.ofText text).position a ≤ (LineTable.ofText text).position b :=
  LineTable.position_mono (LineTable.increasing_ofChars _) (LineTable.startsAtZero_ofChars _) h

/-- The children of a document of a well nested tree follow one another and lie inside it. -/
theorem document_inSourceOrder (parse : SourceParser) (text : String) (tree : SyntaxTree)
    (parsed : parse text = .ok tree) (table : tree.lineTable = LineTable.ofText text)
    (bounds : tree.root.stop ≤ text.utf8ByteSize) (nested : tree.root.WellNested)
    (apart : tree.root.ProseApart) :
    ∃ doc, parse.document text = .ok doc ∧
      doc.children.Pairwise (fun c d =>
        c.range.stop ≤ d.range.start ∧ c.span.stop ≤ d.span.start) ∧
      ∀ c ∈ doc.children,
        c.range.start ≤ c.range.stop ∧ c.span.start ≤ c.span.stop ∧
        doc.range.start ≤ c.range.start ∧ c.range.stop ≤ doc.range.stop ∧
        doc.span.start ≤ c.span.start ∧ c.span.stop ≤ doc.span.stop := by
  have mono {a b : Nat} (h : a ≤ b) := position_ofText_mono text h
  refine ⟨ofTree text tree, by rw [SourceParser.document, parsed]; rfl, ?_, ?_⟩
  · refine List.pairwise_filterMap.2 ((nested.pairwise_descendants apart).imp ?_)
    intro l r follows c fromL d fromR
    obtain ⟨holdsL, rangeL, spanL⟩ := of_textNode?_eq_some fromL
    obtain ⟨holdsR, rangeR, spanR⟩ := of_textNode?_eq_some fromR
    rw [rangeL, rangeR, spanL, spanR, table]
    exact ⟨follows holdsL holdsR, mono (follows holdsL holdsR)⟩
  · intro c membership
    obtain ⟨n, inTree, fromN⟩ := exists_node_of_mem_children membership
    obtain ⟨-, range, span⟩ := of_textNode?_eq_some fromN
    obtain ⟨-, ordered, inRoot⟩ := nested.within inTree
    have inText : n.stop ≤ text.utf8ByteSize := Nat.le_trans inRoot bounds
    rw [span_ofTree, range, span, table]
    exact ⟨ordered, mono ordered, Nat.zero_le _, inText, mono (Nat.zero_le _), mono inText⟩

/-- A tree with prose under a node without, and with more prose behind that node. -/
def outline : SyntaxNode :=
  ⟨"program", 0, 21, none,
    [⟨"function", 0, 11, none, [⟨"comment", 2, 4, some "first", []⟩]⟩,
      ⟨"comment", 12, 15, some "second", []⟩]⟩

/-- The texts of the outline follow one another, in two lines. -/
theorem document_inSourceOrder_outline :
    outline.WellNested ∧ outline.ProseApart ∧
      ∃ doc, SourceParser.document (fun text => .ok ⟨outline, LineTable.ofText text⟩)
          "abcdefghij\nklmnopqrst" = .ok doc ∧
        doc.children.Pairwise (fun c d =>
          c.range.stop ≤ d.range.start ∧ c.span.stop ≤ d.span.start) ∧
        ∀ c ∈ doc.children,
          c.range.start ≤ c.range.stop ∧ c.span.start ≤ c.span.stop ∧
          doc.range.start ≤ c.range.start ∧ c.range.stop ≤ doc.range.stop ∧
          doc.span.start ≤ c.span.start ∧ c.span.stop ≤ doc.span.stop := by
  have nested : outline.WellNested := by decide
  have apart : outline.ProseApart := by decide
  exact ⟨nested, apart, document_inSourceOrder _ _ _ rfl rfl (by decide) nested apart⟩

end Document

end DocProse
