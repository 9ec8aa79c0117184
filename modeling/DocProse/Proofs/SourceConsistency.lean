import DocProse.Proofs.BlockComments

/-!
# Documents and their source text

A text node *quotes* a text when it tells the truth about what stands at its
range: a documentation comment between two characters of the text, whose
description is the value of the node, at the span that the line table gives
(`TextNode.Quotes`).

A document is *consistent* with a text and the places of its comments when all
its children quote the text, follow one another, and stand for the comments that
have a description, each comment once (`Document.Consistent`).  Every document
by a grammar is, provided that the comments which the grammar sees follow one
another (`preProcess_consistent`).  A comment may be anywhere.  One that lies
partly outside the text, or ends inside a character, has no description.
-/

namespace DocProse

open Text

/-- A text node that repeats what stands at its range in a text. -/
structure TextNode.Quotes (c : TextNode) (text : String) : Prop where
  /-- There is room for an opening and a closing. -/
  long : c.range.start + 5 ≤ c.range.stop
  /-- The range lies in the text. -/
  inside : c.range.stop ≤ text.utf8ByteSize
  /-- It does not start inside a character. -/
  start_boundary : IsBoundary c.range.start text.toList
  /-- It does not end inside a character. -/
  stop_boundary : IsBoundary c.range.stop text.toList
  /-- A documentation comment stands there, and the value is its description. -/
  described : ∃ part, slice? c.range.start c.range.stop text.toList = some part ∧
    Comment.isDoc part = true ∧ Comment.description (String.ofList part) = some c.value
  /-- The raw text is the value. -/
  raw_eq : c.raw = c.value
  /-- There is something. -/
  value_ne : c.value ≠ ""
  /-- The span is that of the range. -/
  span_eq : c.span = (LineTable.ofText text).span c.range.start c.range.stop

/-- A document that tells the truth about the comments of a text. -/
structure Document.Consistent (doc : Document) (text : String) (comments : List ByteRange) :
    Prop where
  /-- The raw text is the whole text. -/
  raw_eq : doc.raw = text
  /-- The range is that of the whole text. -/
  range_eq : doc.range = ⟨0, text.utf8ByteSize⟩
  /-- Each child stands for a comment and quotes the text. -/
  quotes : ∀ c ∈ doc.children, c.Quotes text ∧ c.range ∈ comments
  /-- Each comment with a description is one child, and only one. -/
  complete : ∀ r ∈ comments, ∀ part d, slice? r.start r.stop text.toList = some part →
    Comment.description (String.ofList part) = some d →
    doc.children.countP (fun c => c.range = r) = 1
  /-- The children follow one another. -/
  apart : doc.children.Pairwise fun c d => c.range.stop ≤ d.range.start

variable {text : String} {range : ByteRange} {c : TextNode} {cs : List TextNode}

/-! ## One comment -/

theorem of_textAt?_eq_some {source : List Char} {table : LineTable}
    (h : textAt? source table range = some c) :
    c.range = range ∧ c.raw = c.value ∧ c.span = table.span range.start range.stop ∧
      GrammarNode.proseAt? source range = some c.value := by
  obtain ⟨prose, found, rfl⟩ := Option.map_eq_some_iff.1 h
  exact ⟨rfl, rfl, rfl, found⟩

theorem quotes_of_textAt?_eq_some
    (h : textAt? text.toList (LineTable.ofText text) range = some c) : c.Quotes text := by
  obtain ⟨rfl, raw, span, found⟩ := of_textAt?_eq_some h
  obtain ⟨part, sliced, described⟩ := GrammarNode.proseAt?_eq_some_iff.1 found
  obtain ⟨before, behind, whole, start, stop⟩ := (slice?_eq_some_iff _ _ _ _).1 sliced
  obtain ⟨-, body, comment, -⟩ := Comment.describe_eq_some_iff.1 described
  have size : byteSize part = byteSize body + 5 := by
    rw [comment, Comment.byteSize_whole]
  have total : text.utf8ByteSize = byteSize before + byteSize part + byteSize behind := by
    rw [utf8ByteSize_eq, whole, byteSize_append, byteSize_append]
  constructor
  case long => omega
  case inside => omega
  case start_boundary => exact (boundaries_of_slice? sliced).2.1
  case stop_boundary => exact (boundaries_of_slice? sliced).2.2
  case described =>
    refine ⟨part, sliced, Comment.isDoc_iff.2 ⟨body, comment⟩, ?_⟩
    rw [Comment.description, String.toList_ofList, described, Option.map_some,
      String.ofList_toList]
  case raw_eq => exact raw
  case value_ne => exact GrammarNode.proseAt?_ne_empty found
  case span_eq => exact span

/-- A comment whose slice has a description gives a text node. -/
theorem textAt?_isSome {table : LineTable} {part : List Char} {d : String}
    (sliced : slice? range.start range.stop text.toList = some part)
    (described : Comment.description (String.ofList part) = some d) :
    ∃ c, textAt? text.toList table range = some c ∧ c.range = range := by
  obtain ⟨cs, found, rfl⟩ := Option.map_eq_some_iff.1 described
  rw [String.toList_ofList] at found
  have prose : GrammarNode.proseAt? text.toList range = some (String.ofList cs) :=
    GrammarNode.proseAt?_eq_some_iff.2 ⟨part, sliced, by rw [found, String.toList_ofList]⟩
  exact ⟨_, by rw [textAt?, prose, Option.map_some], rfl⟩

/-! ## All comments -/

/-- Among text nodes that follow one another and are not empty, the range of one is that of no
other. -/
theorem countP_range_eq_one (apart : cs.Pairwise fun a b => a.range.stop ≤ b.range.start)
    (long : c.range.start < c.range.stop) (h : c ∈ cs) :
    cs.countP (fun d => d.range = c.range) = 1 := by
  induction cs with
  | nil => cases h
  | cons d ds ih =>
    rcases List.mem_cons.1 h with first | later
    · subst first
      have others : ds.countP (fun d => d.range = c.range) = 0 := by
        rw [List.countP_eq_zero]
        intro e membership
        have follows := List.rel_of_pairwise_cons apart membership
        simp only [decide_eq_true_eq]
        intro same
        rw [same] at follows
        omega
      rw [List.countP_cons_of_pos (by simp), others]
    · have follows := List.rel_of_pairwise_cons apart later
      have different : d.range ≠ c.range := by
        intro same
        rw [same] at follows
        omega
      rw [List.countP_cons, ih (List.Pairwise.of_cons apart) later]
      simp [different]

/-- The document of places that follow one another is consistent with them. -/
theorem consistent_documentOf (text : String) {comments : List ByteRange}
    (inOrder : comments.Pairwise fun r s => r.stop ≤ s.start) :
    (Grammar.documentOf text comments).Consistent text comments := by
  have apart : (Grammar.documentOf text comments).children.Pairwise
      fun c d => c.range.stop ≤ d.range.start := by
    refine List.pairwise_filterMap.2 (inOrder.imp ?_)
    intro r s follows c fromR d fromS
    rw [(of_textAt?_eq_some fromR).1, (of_textAt?_eq_some fromS).1]
    exact follows
  have quotes : ∀ c ∈ (Grammar.documentOf text comments).children,
      c.Quotes text ∧ c.range ∈ comments := by
    intro c membership
    obtain ⟨r, inComments, fromR⟩ := List.mem_filterMap.1 membership
    refine ⟨quotes_of_textAt?_eq_some fromR, ?_⟩
    rw [(of_textAt?_eq_some fromR).1]
    exact inComments
  refine ⟨rfl, rfl, quotes, ?_, apart⟩
  intro r inComments part d sliced described
  obtain ⟨c, fromR, rfl⟩ := textAt?_isSome sliced described
  have membership : c ∈ (Grammar.documentOf text comments).children :=
    List.mem_filterMap.2 ⟨c.range, inComments, fromR⟩
  have long := (quotes c membership).1.long
  exact countP_range_eq_one apart (by omega) membership

/-- Every document of the hooks is consistent with its text, if the comments that the grammar sees
follow one another. -/
theorem preProcess_consistent (g : Grammar) (extension text : String) (path : Option String)
    (doc : Document)
    (inOrder : (g.comments (Dialect.ofExtension extension) text).Pairwise
      fun r s => r.stop ≤ s.start)
    (returned : (g.hooks extension).preProcess text path = .ok doc) :
    doc.Consistent text (g.comments (Dialect.ofExtension extension) text) := by
  have built : doc = Grammar.documentOf text (g.comments (Dialect.ofExtension extension) text) :=
    Grammar.eq_documentOf returned
  rw [built]
  exact consistent_documentOf text inOrder

/-- Characters of several bytes, before a comment and in it, shift no child. -/
theorem preProcess_consistent_umlauts :
    (Source.scanner.comments .typeScript "é /** über */ x\n/** b */").Pairwise
        (fun r s => r.stop ≤ s.start) ∧
      ∃ doc,
        (Source.scanner.hooks ".ts").preProcess "é /** über */ x\n/** b */" none = .ok doc ∧
          doc.Consistent "é /** über */ x\n/** b */"
            (Source.scanner.comments .typeScript "é /** über */ x\n/** b */") := by
  have inOrder := Source.pairwise_comments_scanner .typeScript "é /** über */ x\n/** b */"
  have dialect : Dialect.ofExtension ".ts" = .typeScript := by decide
  refine ⟨inOrder, _, rfl, ?_⟩
  rw [← dialect] at inOrder ⊢
  exact preProcess_consistent Source.scanner ".ts" _ none _ inOrder rfl

end DocProse
