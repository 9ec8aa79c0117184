import DocProse.LineTable

/-!
# Syntax trees

What a document is built from: a tree of nodes, each with a kind, a byte range
and, where it is a documentation comment with prose, that prose, together with
the line table of the parsed text.  `SyntaxNode.descendants` visits the nodes
under a node in preorder.

A tree may also be given by *rows*, one per node, each naming the row of its
parent.  `SyntaxNode.ofRows` hangs every row under its parent, in the order of
the rows.  A parent comes before its children, which is why the tree is finite.
-/

namespace DocProse

/-- A node of a syntax tree. -/
structure SyntaxNode where
  /-- What the grammar calls it. -/
  kind : String
  /-- The byte where it starts. -/
  start : Nat
  /-- The byte behind it. -/
  stop : Nat
  /-- The prose of a documentation comment. -/
  comment : Option String
  /-- The nodes right under it, in source order. -/
  children : List SyntaxNode
  deriving Inhabited

namespace SyntaxNode

mutual

/-- The nodes under a node, each before the nodes under it. -/
def descendants : SyntaxNode → List SyntaxNode
  | ⟨_, _, _, _, children⟩ => preorder children

/-- The nodes of several trees in a row, each before the nodes under it. -/
def preorder : List SyntaxNode → List SyntaxNode
  | [] => []
  | n :: ns => n :: (n.descendants ++ preorder ns)

end

/-! ## Trees given by rows -/

/-- A node without its children, with the index of its parent. -/
structure Row where
  /-- The index of the parent; the root has none. -/
  parent : Option Nat
  /-- What the grammar calls it. -/
  kind : String
  /-- The byte where it starts. -/
  start : Nat
  /-- The byte behind it. -/
  stop : Nat
  /-- The prose of a documentation comment. -/
  comment : Option String
  deriving DecidableEq, Repr, Inhabited

/-- The later rows whose parent is row `i`, in order. -/
def childRows (rows : Array Row) (i : Nat) : List Nat :=
  (List.range rows.size).filter fun j => i < j && (rows[j]?.bind Row.parent) == some i

/-- A child has a later row. -/
theorem lt_of_mem_childRows {rows : Array Row} {i j : Nat} (h : j ∈ childRows rows i) :
    i < j ∧ j < rows.size := by
  simp only [childRows, List.mem_filter, List.mem_range, Bool.and_eq_true, decide_eq_true_eq] at h
  exact ⟨h.2.1, h.1⟩

/-- The tree under a row. -/
def ofRow (rows : Array Row) (i : Nat) : SyntaxNode :=
  let row := rows.getD i default
  { kind := row.kind, start := row.start, stop := row.stop, comment := row.comment,
    children := (childRows rows i).attach.map fun ⟨j, _⟩ => ofRow rows j }
termination_by rows.size - i
decreasing_by
  have := lt_of_mem_childRows ‹j ∈ childRows rows i›
  omega

/-- The tree of all rows, under the first. -/
def ofRows (rows : Array Row) : SyntaxNode := ofRow rows 0

end SyntaxNode

/-- A parsed text. -/
structure SyntaxTree where
  /-- The node of the whole text. -/
  root : SyntaxNode
  /-- Where the lines of the text start. -/
  lineTable : LineTable

end DocProse
