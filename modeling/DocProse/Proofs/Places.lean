import DocProse.Proofs.SourceOrder
import Mathlib.Data.List.Forall2

/-!
# Places in a tree

A node of a tree is told by its *place*: the number of the child to go to, at
each step down from the root (`SyntaxNode.node?`).  Two nodes may look the same,
but they have different places.  In preorder the nodes under the root come in the
order of their places, compared like words in a dictionary (`pairwise_places`,
`forall₂_places_descendants`).

So the children of a document stand for the places at which there is prose, in
that order (`Document.document_keepsProse`).  This asks nothing of the tree: its
ranges may lie outside the text, its line table may be that of another text, and
prose may stand under prose.  Only the root itself does not count.
-/

namespace DocProse

namespace SyntaxNode

variable {n m root : SyntaxNode} {ns : List SyntaxNode} {place : List Nat} {first : Nat}

/-- The node at a place. -/
def node? (n : SyntaxNode) : List Nat → Option SyntaxNode
  | [] => some n
  | i :: place => n.children[i]?.bind fun child => child.node? place

/-! ## Places in several trees -/

/-- A place leads to a node among trees in a row, the first of which has some number. -/
def LeadsTo (first : Nat) (ns : List SyntaxNode) (place : List Nat) (m : SyntaxNode) : Prop :=
  ∃ i rest n, place = (first + i) :: rest ∧ ns[i]? = some n ∧ n.node? rest = some m

theorem not_leadsTo_nil : ¬ LeadsTo first [] place m := by
  rintro ⟨i, rest, n, -, none, -⟩
  cases none

/-- A place leads to a node under another one when it goes at least one step down. -/
theorem leadsTo_children_iff :
    LeadsTo 0 n.children place m ↔ place ≠ [] ∧ n.node? place = some m := by
  cases place with
  | nil => simp [LeadsTo]
  | cons i rest =>
    simp only [LeadsTo, Nat.zero_add, List.cons.injEq, node?, Option.bind_eq_some_iff]
    constructor
    · rintro ⟨i, rest, child, ⟨rfl, rfl⟩, found, leads⟩
      exact ⟨List.cons_ne_nil _ _, child, found, leads⟩
    · rintro ⟨-, child, found, leads⟩
      exact ⟨i, rest, child, ⟨rfl, rfl⟩, found, leads⟩

/-- A place leads to the first tree, or to a node under it, or to one in a later tree. -/
theorem leadsTo_cons_iff :
    LeadsTo first (n :: ns) place m ↔
      (place = [first] ∧ m = n) ∨ (∃ rest, place = first :: rest ∧ LeadsTo 0 n.children rest m) ∨
        LeadsTo (first + 1) ns place m := by
  constructor
  · rintro ⟨i, rest, k, rfl, found, leads⟩
    cases i with
    | zero =>
      obtain rfl := Option.some.inj found
      cases rest with
      | nil => exact .inl ⟨rfl, (Option.some.inj leads).symm⟩
      | cons i rest =>
        exact .inr (.inl ⟨i :: rest, rfl, leadsTo_children_iff.2 ⟨List.cons_ne_nil _ _, leads⟩⟩)
    | succ i => exact .inr (.inr ⟨i, rest, k, by rw [Nat.add_assoc, Nat.add_comm 1], found, leads⟩)
  · rintro (⟨rfl, rfl⟩ | ⟨rest, rfl, under⟩ | ⟨i, rest, k, rfl, found, leads⟩)
    · exact ⟨0, [], m, rfl, rfl, rfl⟩
    · exact ⟨0, rest, n, rfl, rfl, (leadsTo_children_iff.1 under).2⟩
    · exact ⟨i + 1, rest, k, by rw [Nat.add_assoc, Nat.add_comm 1], found, leads⟩

/-! ## Places in preorder -/

mutual

/-- The places of the nodes under a node, each before those under it. -/
def places : SyntaxNode → List (List Nat)
  | ⟨_, _, _, _, children⟩ => placesFrom 0 children

/-- The places in trees in a row, the first of which has some number. -/
def placesFrom (first : Nat) : List SyntaxNode → List (List Nat)
  | [] => []
  | n :: ns => [first] :: (n.places.map (first :: ·) ++ placesFrom (first + 1) ns)

end

theorem places_eq (n : SyntaxNode) : n.places = placesFrom 0 n.children := by
  cases n
  rw [places]

theorem placesFrom_cons (first : Nat) (n : SyntaxNode) (ns : List SyntaxNode) :
    placesFrom first (n :: ns) =
      [first] :: ((placesFrom 0 n.children).map (first :: ·) ++ placesFrom (first + 1) ns) := by
  rw [placesFrom, places_eq]

/-- The listed places are those that lead somewhere. -/
theorem mem_placesFrom_iff : place ∈ placesFrom first ns ↔ ∃ m, LeadsTo first ns place m := by
  induction ns using forest_induction generalizing first place with
  | nil => simp [placesFrom, not_leadsTo_nil]
  | cons n ns below behind =>
    simp only [placesFrom_cons, List.mem_cons, List.mem_append, List.mem_map, below, behind,
      leadsTo_cons_iff]
    constructor
    · rintro (here | ⟨rest, ⟨m, under⟩, rfl⟩ | ⟨m, later⟩)
      · exact ⟨n, .inl ⟨here, rfl⟩⟩
      · exact ⟨m, .inr (.inl ⟨rest, rfl, under⟩)⟩
      · exact ⟨m, .inr (.inr later)⟩
    · rintro ⟨m, ⟨here, -⟩ | ⟨rest, rfl, under⟩ | later⟩
      · exact .inl here
      · exact .inr (.inl ⟨rest, ⟨m, under⟩, rfl⟩)
      · exact .inr (.inr ⟨m, later⟩)

/-- The nodes of trees in a row, in preorder, are those that their places lead to. -/
theorem forall₂_placesFrom_preorder (first : Nat) (ns : List SyntaxNode) :
    List.Forall₂ (LeadsTo first ns) (placesFrom first ns) (preorder ns) := by
  induction ns using forest_induction generalizing first with
  | nil => exact .nil
  | cons n ns below behind =>
    rw [placesFrom_cons, preorder_cons]
    refine .cons (leadsTo_cons_iff.2 (.inl ⟨rfl, rfl⟩)) (List.rel_append ?_ ?_)
    · refine List.forall₂_map_left_iff.2 ((below 0).imp ?_)
      intro rest m under
      exact leadsTo_cons_iff.2 (.inr (.inl ⟨rest, rfl, under⟩))
    · refine (behind (first + 1)).imp ?_
      intro place m later
      exact leadsTo_cons_iff.2 (.inr (.inr later))

theorem pairwise_placesFrom (first : Nat) (ns : List SyntaxNode) :
    (placesFrom first ns).Pairwise (· < ·) := by
  induction ns using forest_induction generalizing first with
  | nil => exact .nil
  | cons n ns below behind =>
    -- A later tree has a greater number, with which all places in it start.
    have later (rest place : List Nat) (inLater : place ∈ placesFrom (first + 1) ns) :
        first :: rest < place := by
      obtain ⟨m, i, rest', n, rfl, -⟩ := mem_placesFrom_iff.1 inLater
      exact List.cons_lt_cons_iff.2 (.inl (by omega))
    rw [placesFrom_cons]
    refine .cons ?_ (List.pairwise_append.2 ⟨?_, behind (first + 1), ?_⟩)
    · intro place membership
      rcases List.mem_append.1 membership with under | inLater
      · obtain ⟨rest, inside, rfl⟩ := List.mem_map.1 under
        obtain ⟨m, i, rest', n, rfl, -⟩ := mem_placesFrom_iff.1 inside
        exact List.cons_lt_cons_iff.2 (.inr ⟨rfl, List.nil_lt_cons _ _⟩)
      · exact later [] place inLater
    · refine List.pairwise_map.2 ((below 0).imp ?_)
      intro rest rest' less
      exact List.cons_lt_cons_iff.2 (.inr ⟨rfl, less⟩)
    · intro place under place' inLater
      obtain ⟨rest, -, rfl⟩ := List.mem_map.1 under
      exact later rest place' inLater

/-! ## Places under a node -/

theorem mem_places_iff : place ∈ n.places ↔ place ≠ [] ∧ ∃ m, n.node? place = some m := by
  simp only [places_eq, mem_placesFrom_iff, leadsTo_children_iff, exists_and_left]

theorem pairwise_places (n : SyntaxNode) : n.places.Pairwise (· < ·) := by
  rw [places_eq]
  exact pairwise_placesFrom 0 n.children

theorem forall₂_places_descendants (n : SyntaxNode) :
    List.Forall₂ (fun place m => n.node? place = some m) n.places n.descendants := by
  rw [places_eq, descendants_eq]
  exact (forall₂_placesFrom_preorder 0 n.children).imp fun _ _ leads =>
    (leadsTo_children_iff.1 leads).2

end SyntaxNode

/-! ## The places of prose -/

namespace Document

variable {n : SyntaxNode} {place : List Nat}

/-- The places under a node at which there is prose, in the order of a dictionary. -/
def prosePlaces (n : SyntaxNode) : List (List Nat) :=
  n.places.filter fun place => (n.node? place).any fun m => m.HoldsProse

theorem mem_prosePlaces_iff :
    place ∈ prosePlaces n ↔ place ≠ [] ∧ ∃ m, n.node? place = some m ∧ m.HoldsProse := by
  rw [prosePlaces, List.mem_filter, SyntaxNode.mem_places_iff]
  simp only [Option.any_eq_true, decide_eq_true_eq]
  constructor
  · rintro ⟨⟨below, -⟩, holds⟩
    exact ⟨below, holds⟩
  · rintro ⟨below, m, found, holds⟩
    exact ⟨⟨below, m, found⟩, m, found, holds⟩

/-- The text nodes under a node, in preorder, are those of the places of prose. -/
theorem forall₂_prosePlaces (table : LineTable) (n : SyntaxNode) :
    List.Forall₂ (fun place c => ∃ m, n.node? place = some m ∧ textNode? table m = some c)
      (prosePlaces n) (n.descendants.filterMap (textNode? table)) := by
  rw [prosePlaces, ← List.filterMap_eq_filter]
  refine List.rel_filterMap ?_ n.forall₂_places_descendants
  intro place m found
  cases text : textNode? table m with
  | none =>
    have silent : ¬ m.HoldsProse := by
      intro holds
      obtain ⟨c, some⟩ := exists_textNode?_iff.2 holds
      rw [text] at some
      cases some
    simp [Option.guard, found, silent]
  | some c =>
    have holds : m.HoldsProse := exists_textNode?_iff.1 ⟨c, text⟩
    have kept : Option.guard (fun place => (n.node? place).any fun m => m.HoldsProse) place =
        some place := by
      simp [Option.guard, found, holds]
    rw [kept]
    exact .some ⟨m, found, text⟩

/-- The document of a text keeps the prose of its syntax tree, and nothing else of it.  There is
one text node for each place below the root at which there is prose, in the order of the places,
with that prose, the range of the node as it is, and its span by the line table of the tree.
The prose of the root has no part in it.  All else in the document is told by the text.  When the
parser fails, the document fails with the same cause. -/
theorem document_keepsProse (parse : SourceParser) (text : String) :
    (∀ cause, parse text = .error cause → parse.document text = .error cause) ∧
    ∀ tree, parse text = .ok tree →
      ∃ (children : List TextNode) (places : List (List Nat)),
        parse.document text = .ok
          ⟨.document, text, ⟨0, text.utf8ByteSize⟩, ⟨⟨1, 0⟩, endPosition text⟩, children⟩ ∧
        places.Pairwise (· < ·) ∧
        (∀ place, place ∈ places ↔
          place ≠ [] ∧ ∃ n, tree.root.node? place = some n ∧ n.HoldsProse) ∧
        List.Forall₂ (fun place c => ∃ n prose, tree.root.node? place = some n ∧
            n.comment = some prose ∧
            c = ⟨.str, prose, prose, ⟨n.start, n.stop⟩, tree.lineTable.span n.start n.stop⟩)
          places children ∧
        ∀ comment, SourceParser.document
            (fun _ => .ok ⟨{ tree.root with comment := comment }, tree.lineTable⟩) text =
          parse.document text := by
  constructor
  · intro cause failed
    rw [SourceParser.document, failed]
    rfl
  · intro tree parsed
    have built : parse.document text = .ok (ofTree text tree) := by
      rw [SourceParser.document, parsed]
      rfl
    refine ⟨_, prosePlaces tree.root, built, ?_, fun place => mem_prosePlaces_iff, ?_, ?_⟩
    · exact tree.root.pairwise_places.filter _
    · refine (forall₂_prosePlaces tree.lineTable tree.root).imp ?_
      rintro place c ⟨n, found, fromN⟩
      obtain ⟨prose, comment, -, same⟩ := textNode?_eq_some_iff.1 fromN
      exact ⟨n, prose, found, comment, same⟩
    · intro comment
      rw [built, SourceParser.document]
      refine congrArg Except.ok ?_
      rw [ofTree, ofTree, SyntaxNode.descendants_eq, SyntaxNode.descendants_eq]

/-- A tree with prose at the root and under prose, an empty comment, and ranges that are too
long. -/
def nestedProse : SyntaxNode :=
  ⟨"program", 0, 90, some "root",
    [⟨"comment", 2, 40, some "outer", [⟨"comment", 3, 35, some "inner", []⟩]⟩,
      ⟨"comment", 5, 1, some "", []⟩]⟩

/-- Of the nested prose that at the root is left out, with a line table of another text. -/
theorem document_keepsProse_nested :
    SourceParser.document (fun _ => .error (.parse "no tree")) "ab" = .error (.parse "no tree") ∧
    ∃ (children : List TextNode) (places : List (List Nat)),
      SourceParser.document (fun _ => .ok ⟨nestedProse, ⟨#[4, 9]⟩⟩) "ab" = .ok
        ⟨.document, "ab", ⟨0, 2⟩, ⟨⟨1, 0⟩, endPosition "ab"⟩, children⟩ ∧
      places.Pairwise (· < ·) ∧ [0] ∈ places ∧ [0, 0] ∈ places ∧ [1] ∉ places ∧ [] ∉ places := by
  obtain ⟨fails, -⟩ := document_keepsProse (fun _ => .error (.parse "no tree")) "ab"
  obtain ⟨-, keeps⟩ := document_keepsProse (fun _ => .ok ⟨nestedProse, ⟨#[4, 9]⟩⟩) "ab"
  obtain ⟨children, places, built, ordered, prose, -⟩ := keeps _ rfl
  refine ⟨fails _ rfl, children, places, built, ordered, ?_, ?_, ?_, ?_⟩
  · exact (prose [0]).2 ⟨by decide, _, rfl, by decide⟩
  · exact (prose [0, 0]).2 ⟨by decide, _, rfl, by decide⟩
  · intro kept
    obtain ⟨-, n, found, holds⟩ := (prose [1]).1 kept
    cases found
    exact absurd holds (by decide)
  · intro kept
    exact ((prose []).1 kept).1 rfl

end Document

end DocProse
