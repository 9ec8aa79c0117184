import DocProse.Proofs.BlockComments
import Mathlib.Data.List.Infix

/-!
# Comments in a row

A text of documentation comments with white space between them is given by
*passages*: the white space before a comment, and the body of the comment
(`Passage`).  Its document has one child for each passage whose comment has a
description, in the order of the passages, and no others.  The child has the
place of the comment, which `Passage.texts` computes from the characters before
it (`preProcess_passages`).

A body is any text, as long as the comment does not end inside it.  A star stands
before the body, so a slash cannot come first, and stars at the end do no harm.
-/

namespace DocProse

open Text

/-- White space, and the body of the documentation comment behind it. -/
structure Passage where
  /-- The white space. -/
  gap : List Char
  /-- The body. -/
  body : List Char
  deriving DecidableEq, Repr

namespace Passage

/-- The comment of a passage. -/
def comment (p : Passage) : List Char := Comment.opening ++ p.body ++ Comment.closing

/-- White space without anything else, and a body in which the comment does not end. -/
structure WellFormed (p : Passage) : Prop where
  /-- There is only white space before the comment. -/
  gap : ∀ c ∈ p.gap, c ∈ gapChars
  /-- The comment does not end in its body, the star of its opening included. -/
  opened : ¬ ['*', '/'] <:+: '*' :: p.body
  /-- There is no NUL. -/
  noNul : '\x00' ∉ p.body

instance (p : Passage) : Decidable p.WellFormed :=
  decidable_of_iff
    (p.gap.all (· ∈ gapChars) = true ∧ ¬ ['*', '/'] <:+: '*' :: p.body ∧ '\x00' ∉ p.body)
    ⟨fun h => ⟨by simpa using h.1, h.2.1, h.2.2⟩,
      fun h => ⟨by simpa using h.gap, h.opened, h.noNul⟩⟩

/-- A text of passages, and white space at its end. -/
def layOut : List Passage → List Char → List Char
  | [], last => last
  | p :: ps, last => p.gap ++ p.comment ++ layOut ps last

/-- The text nodes of passages behind a text. -/
def texts (before : List Char) : List Passage → List TextNode
  | [] => []
  | p :: ps =>
    let start := before ++ p.gap
    let stop := start ++ p.comment
    ((Comment.description (String.ofList p.comment)).map fun d =>
      { kind := .str
        raw := d
        value := d
        range := ⟨byteSize start, byteSize start + byteSize p.body + 5⟩
        span := ⟨Position.behind start, Position.behind stop⟩ }).toList ++ texts stop ps

/-- The places of the comments of passages behind a text. -/
def ranges (before : List Char) : List Passage → List ByteRange
  | [] => []
  | p :: ps =>
    let start := before ++ p.gap
    ⟨byteSize start, byteSize start + byteSize p.body + 5⟩ :: ranges (start ++ p.comment) ps

variable {p : Passage} {ps : List Passage} {last cs gap : List Char} {places : List ByteRange}
  {offset : Nat}

theorem byteSize_comment (p : Passage) : byteSize p.comment = byteSize p.body + 5 :=
  Comment.byteSize_whole p.body

/-! ## Passages are block comments -/

/-- White space before a text moves its block comments. -/
theorem blockComments_gap (white : ∀ c ∈ gap, c ∈ gapChars)
    (h : BlockComments (offset + byteSize gap) cs places) :
    BlockComments offset (gap ++ cs) places := by
  induction gap generalizing offset with
  | nil => exact h
  | cons c gap ih =>
    have first : c ∈ gapChars := white c List.mem_cons_self
    have size := utf8Size_of_mem_gapChars c first
    refine .gap first (ih (fun d inside => white d (List.mem_cons_of_mem _ inside)) ?_)
    rwa [byteSize, size, ← Nat.add_assoc] at h

/-- A star at the end does not close a comment. -/
theorem opened_concat {inner : List Char} (h : ¬ ['*', '/'] <:+: inner) :
    ¬ ['*', '/'] <:+: inner ++ ['*'] := by
  rw [List.infix_concat_iff, not_or]
  refine ⟨?_, h⟩
  rintro ⟨before, whole⟩
  have ends := congrArg List.getLast? whole
  simp at ends

theorem blockComments_comment (formed : p.WellFormed)
    (h : BlockComments (offset + byteSize p.body + 5) cs places) :
    BlockComments offset (p.comment ++ cs)
      (⟨offset, offset + byteSize p.body + 5⟩ :: places) := by
  have whole : p.comment ++ cs = '/' :: '*' :: (('*' :: p.body) ++ '*' :: '/' :: cs) := by
    simp [comment, Comment.opening, Comment.closing]
  have size : offset + byteSize ('*' :: p.body) + 4 = offset + byteSize p.body + 5 := by
    have star : '*'.utf8Size = 1 := by decide
    rw [byteSize, star]
    omega
  have noNul : '\x00' ∉ '*' :: p.body := by
    rw [List.mem_cons, not_or]
    exact ⟨by decide, formed.noNul⟩
  have found := BlockComments.comment (opened_concat formed.opened) noNul (size ▸ h)
  rwa [size, ← whole] at found

/-- The block comments of passages are their comments. -/
theorem blockComments_layOut (formed : ∀ p ∈ ps, p.WellFormed)
    (white : ∀ c ∈ last, c ∈ gapChars) (before : List Char) :
    BlockComments (byteSize before) (layOut ps last) (ranges before ps) := by
  induction ps generalizing before with
  | nil =>
    have nothing : BlockComments (byteSize before + byteSize last) [] [] := .nil
    have blanks := blockComments_gap white nothing
    rwa [List.append_nil] at blanks
  | cons p ps ih =>
    have first : p.WellFormed := formed p List.mem_cons_self
    have rest := ih (fun q inside => formed q (List.mem_cons_of_mem _ inside))
      (before ++ p.gap ++ p.comment)
    rw [byteSize_append, byteSize_append, byteSize_comment, ← Nat.add_assoc] at rest
    rw [layOut, List.append_assoc, ranges, byteSize_append]
    exact blockComments_gap first.gap (blockComments_comment first rest)

/-! ## Their texts -/

/-- The text node of a comment behind one text and before another. -/
theorem textAt?_comment (start rest : List Char) (p : Passage) :
    textAt? (start ++ p.comment ++ rest) (LineTable.ofChars (start ++ p.comment ++ rest))
        ⟨byteSize start, byteSize start + byteSize p.body + 5⟩ =
      (Comment.description (String.ofList p.comment)).map fun d =>
        { kind := .str
          raw := d
          value := d
          range := ⟨byteSize start, byteSize start + byteSize p.body + 5⟩
          span := ⟨Position.behind start, Position.behind (start ++ p.comment)⟩ } := by
  have size : byteSize start + byteSize p.body + 5 = byteSize start + byteSize p.comment := by
    rw [byteSize_comment, Nat.add_assoc]
  have prose : GrammarNode.proseAt? (start ++ p.comment ++ rest)
      ⟨byteSize start, byteSize start + byteSize p.body + 5⟩ =
        Comment.description (String.ofList p.comment) := by
    rw [GrammarNode.proseAt?, size, slice?_append, Option.bind_some, Comment.description,
      String.toList_ofList]
  have from' : (LineTable.ofChars (start ++ p.comment ++ rest)).position (byteSize start) =
      Position.behind start := by
    rw [List.append_assoc, LineTable.position_ofChars_append]
  have upTo : (LineTable.ofChars (start ++ p.comment ++ rest)).position
      (byteSize start + byteSize p.body + 5) = Position.behind (start ++ p.comment) := by
    rw [size, ← byteSize_append, LineTable.position_ofChars_append]
  rw [textAt?, prose, LineTable.span, from', upTo]
  rfl

/-- The text nodes at the places of passages are those of the passages. -/
theorem filterMap_textAt?_ranges (ps : List Passage) (last before : List Char) :
    (ranges before ps).filterMap
        (textAt? (before ++ layOut ps last) (LineTable.ofChars (before ++ layOut ps last))) =
      texts before ps := by
  induction ps generalizing before with
  | nil => rfl
  | cons p ps ih =>
    have whole : before ++ layOut (p :: ps) last =
        before ++ p.gap ++ p.comment ++ layOut ps last := by
      simp [layOut, List.append_assoc]
    rw [whole, ranges, texts, List.filterMap_cons, textAt?_comment, ih]
    cases Comment.description (String.ofList p.comment) <;> rfl

/-- The children of the document of passages are the text nodes of those passages whose comment has
a description. -/
theorem preProcess_passages (g : Grammar) (reads : g.ReadsBlockComments) (extension : String)
    (path : Option String) (ps : List Passage) (last : List Char)
    (formed : ∀ p ∈ ps, p.WellFormed) (white : ∀ c ∈ last, c ∈ gapChars) :
    ∃ doc,
      (g.hooks extension).preProcess (String.ofList (layOut ps last)) path = .ok doc ∧
        doc.children = texts [] ps := by
  have text : (String.ofList (layOut ps last)).toList = layOut ps last := String.toList_ofList
  have found : BlockComments 0 (String.ofList (layOut ps last)).toList (ranges [] ps) := by
    rw [text]
    exact blockComments_layOut formed white []
  obtain ⟨usable, root, parsed, comments⟩ :=
    reads (Dialect.ofExtension extension) (String.ofList (layOut ps last)) _ found
  have places : g.comments (Dialect.ofExtension extension) (String.ofList (layOut ps last)) =
      ranges [] ps := by
    simp only [Grammar.comments, parsed, comments]
  refine ⟨_, Grammar.document_eq usable parsed, ?_⟩
  have children := filterMap_textAt?_ranges ps last []
  rw [List.nil_append] at children
  rw [places, Grammar.documentOf, LineTable.ofText, text]
  exact children

/-- A comment that closes with three stars, one without a body, and one with lines. -/
def threeComments : List Passage :=
  [⟨[], " One **".toList⟩, ⟨"\r\n\t".toList, []⟩, ⟨['\n'], "\n * über\n *  /* two".toList⟩]

/-- The first and the last comment have a description. -/
theorem preProcess_passages_threeComments :
    Source.scanner.ReadsBlockComments ∧ (∀ p ∈ threeComments, p.WellFormed) ∧
      ∃ doc,
        (Source.scanner.hooks ".ts").preProcess
            (String.ofList (layOut threeComments ['\n'])) none = .ok doc ∧
          doc.children =
            [⟨.str, "One **", "One **", ⟨0, 12⟩, ⟨⟨1, 0⟩, ⟨1, 12⟩⟩⟩,
              ⟨.str, "über\n /* two", "über\n /* two", ⟨21, 46⟩, ⟨⟨3, 0⟩, ⟨5, 12⟩⟩⟩] := by
  have formed : ∀ p ∈ threeComments, p.WellFormed := by decide +kernel
  obtain ⟨doc, returned, children⟩ :=
    preProcess_passages Source.scanner Source.scanner_readsBlockComments ".ts" none threeComments
      ['\n'] formed (by simp [gapChars])
  have nodes : texts [] threeComments =
      [⟨.str, "One **", "One **", ⟨0, 12⟩, ⟨⟨1, 0⟩, ⟨1, 12⟩⟩⟩,
        ⟨.str, "über\n /* two", "über\n /* two", ⟨21, 46⟩, ⟨⟨3, 0⟩, ⟨5, 12⟩⟩⟩] := by decide
  exact ⟨Source.scanner_readsBlockComments, formed, doc, returned, by rw [children, nodes]⟩

end Passage

end DocProse
