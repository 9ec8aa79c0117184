import DocProse.Proofs.CommentPlaces

/-!
# Block comments

A block comment runs from a slash and a star to the first star with a slash
behind it.  `BlockComments` says this of a text that holds nothing else but white
space: it relates the text to the places of its comments.  A grammar *reads*
block comments when it finds exactly these in every such text
(`Grammar.ReadsBlockComments`).

The scanner reads block comments (`scanner_readsBlockComments`).  In code it
steps over white space one character after another, and over a block comment at
once, and comes out of both in the state in which it went in.  Whatever the text
holds, the comments that the scanner finds follow one another
(`pairwise_comments_scanner`).
-/

namespace DocProse

open Text

/-- The white space that stands between comments here. -/
def gapChars : List Char := [' ', '\t', '\r', '\n']

theorem isBlank_of_mem_gapChars : ∀ c ∈ gapChars, isBlank c = true :=
  List.all_eq_true.1 (by decide)

theorem utf8Size_of_mem_gapChars : ∀ c ∈ gapChars, c.utf8Size = 1 := by
  have all : gapChars.all (·.utf8Size == 1) = true := by decide
  simpa using all

/-- The block comments of a text that starts at an offset and holds only them and white space. -/
inductive BlockComments : Nat → List Char → List ByteRange → Prop where
  /-- Nothing is left. -/
  | nil {offset : Nat} : BlockComments offset [] []
  /-- White space, then the rest. -/
  | gap {offset : Nat} {c : Char} {cs : List Char} {ranges : List ByteRange} :
      c ∈ gapChars → BlockComments (offset + 1) cs ranges →
      BlockComments offset (c :: cs) ranges
  /-- A comment up to the first closing, then the rest. -/
  | comment {offset : Nat} {inner cs : List Char} {ranges : List ByteRange} :
      ¬ ['*', '/'] <:+: inner ++ ['*'] → '\x00' ∉ inner →
      BlockComments (offset + byteSize inner + 4) cs ranges →
      BlockComments offset ('/' :: '*' :: (inner ++ '*' :: '/' :: cs))
        (⟨offset, offset + byteSize inner + 4⟩ :: ranges)

/-- A grammar that gives a tree for each text of block comments and white space, with a comment
for each block comment and no others. -/
def Grammar.ReadsBlockComments (g : Grammar) : Prop :=
  ∀ (dialect : Dialect) (text : String) (ranges : List ByteRange),
    BlockComments 0 text.toList ranges →
      g.refusal? dialect = none ∧
        ∃ root, g.root? dialect text = some root ∧ root.comments = ranges

namespace Source

variable {s : State} {before : Before} {c : Char} {cs inner : List Char} {offset : Nat}
  {ps : List Piece} {range : ByteRange}

/-! ## Steps of the scanner -/

theorem blockRest_cons (h : ¬ ['*', '/'] <+: c :: cs) :
    blockRest (c :: cs) = (blockRest cs).map (· + 1) := by
  rw [blockRest]
  intro rest star slash
  subst star slash
  exact h ⟨rest, rfl⟩

/-- A comment ends at its first closing. -/
theorem blockRest_append (first : ¬ ['*', '/'] <:+: inner ++ ['*']) (cs : List Char) :
    blockRest (inner ++ '*' :: '/' :: cs) = some (inner.length + 2) := by
  induction inner with
  | nil => rfl
  | cons c inner ih =>
    rw [List.cons_append, List.infix_cons_iff, not_or] at first
    have notHere : ¬ ['*', '/'] <+: c :: (inner ++ '*' :: '/' :: cs) := by
      rintro ⟨rest, whole⟩
      apply first.1
      cases inner with
      | nil => simp at whole
      | cons d inner =>
        simp only [List.cons_append, List.nil_append, List.cons.injEq] at whole
        obtain ⟨star, slash, -⟩ := whole
        subst star slash
        exact ⟨inner ++ ['*'], rfl⟩
    rw [List.cons_append, blockRest_cons notHere, ih first.2]
    rfl

theorem scanFrom_gap (code : s.mode = .code before) (h : c ∈ gapChars) (cs : List Char) :
    scanFrom s (c :: cs) = ⟨false, [c]⟩ :: scanFrom s cs := by
  have taken : step s c cs = ⟨0, false, s⟩ := by
    simp [step, code, codeStep, isBlank_of_mem_gapChars c h, Step.plain]
  rw [scanFrom, taken]
  rfl

/-- In code the scanner steps over a block comment at once. -/
theorem scanFrom_comment (code : s.mode = .code before)
    (first : ¬ ['*', '/'] <:+: inner ++ ['*']) (cs : List Char) :
    scanFrom s ('/' :: '*' :: (inner ++ '*' :: '/' :: cs)) =
      ⟨true, '/' :: '*' :: (inner ++ ['*', '/'])⟩ :: scanFrom s cs := by
  have ahead : commentAfterSlash ('*' :: (inner ++ '*' :: '/' :: cs)) =
      some (inner.length + 3) := by
    simp [commentAfterSlash, commentRest, blockRest_append first]
  have taken : step s '/' ('*' :: (inner ++ '*' :: '/' :: cs)) =
      ⟨inner.length + 3, true, s⟩ := by
    have visible : isBlank '/' = false := by decide
    simp [step, code, codeStep, visible, ahead]
  have cut : '*' :: (inner ++ '*' :: '/' :: cs) = ('*' :: (inner ++ ['*', '/'])) ++ cs := by
    simp
  have length : inner.length + 3 = ('*' :: (inner ++ ['*', '/'])).length := by
    simp
  rw [scanFrom, taken]
  simp only [cut, length, List.take_left, List.drop_left]

/-! ## Comments of the scanner -/

/-- The comments of pieces, one piece at a time. -/
theorem commentsAmong_commentNodes_cons (offset : Nat) (p : Piece) (ps : List Piece) :
    GrammarNode.commentsAmong (commentNodes offset (p :: ps)) =
      (if p.isComment then [⟨offset, offset + byteSize p.text⟩] else []) ++
        GrammarNode.commentsAmong (commentNodes (offset + byteSize p.text) ps) := by
  rw [commentNodes]
  by_cases comment : p.isComment
  · simp [comment, GrammarNode.commentsAmong, GrammarNode.comments]
  · simp [comment]

/-- In code the scanner finds the block comments of a text that holds only them and white
space. -/
theorem commentsAmong_scanFrom {ranges : List ByteRange} (code : s.mode = .code before)
    (h : BlockComments offset cs ranges) :
    GrammarNode.commentsAmong (commentNodes offset (scanFrom s cs)) = ranges := by
  induction h with
  | nil =>
    rw [scanFrom]
    rfl
  | gap blank _ ih =>
    have size := utf8Size_of_mem_gapChars _ blank
    rw [scanFrom_gap code blank, commentsAmong_commentNodes_cons]
    simpa [byteSize, size] using ih
  | @comment offset inner cs ranges first _ _ ih =>
    have size : byteSize ('/' :: '*' :: (inner ++ ['*', '/'])) = byteSize inner + 4 := by
      have slash : '/'.utf8Size = 1 := by decide
      have star : '*'.utf8Size = 1 := by decide
      simp only [byteSize, byteSize_append, slash, star]
      omega
    rw [scanFrom_comment code first, commentsAmong_commentNodes_cons, size, ← Nat.add_assoc, ih]
    rfl

theorem scanner_readsBlockComments : scanner.ReadsBlockComments := by
  intro dialect text ranges h
  refine ⟨rfl, _, rfl, ?_⟩
  rw [GrammarNode.comments_eq]
  exact commentsAmong_scanFrom (s := .initial dialect) rfl h

/-- The comments of pieces start where the pieces start, or later. -/
theorem le_start_of_mem_commentNodes
    (h : range ∈ GrammarNode.commentsAmong (commentNodes offset ps)) : offset ≤ range.start := by
  induction ps generalizing offset with
  | nil => simp [commentNodes, GrammarNode.commentsAmong] at h
  | cons p ps ih =>
    rw [commentsAmong_commentNodes_cons] at h
    rcases List.mem_append.1 h with here | later
    · split at here
      · rw [List.mem_singleton] at here
        subst here
        exact Nat.le_refl _
      · cases here
    · have := ih later
      omega

/-- The comments of pieces follow one another. -/
theorem pairwise_commentNodes (offset : Nat) (ps : List Piece) :
    (GrammarNode.commentsAmong (commentNodes offset ps)).Pairwise
      fun r s => r.stop ≤ s.start := by
  induction ps generalizing offset with
  | nil => exact .nil
  | cons p ps ih =>
    rw [commentsAmong_commentNodes_cons]
    split
    · refine .cons ?_ (ih _)
      intro s later
      exact le_start_of_mem_commentNodes later
    · exact ih _

theorem pairwise_comments_scanner (dialect : Dialect) (text : String) :
    (scanner.comments dialect text).Pairwise fun r s => r.stop ≤ s.start := by
  have found : scanner.comments dialect text =
      GrammarNode.commentsAmong (commentNodes 0 (scan dialect text.toList)) :=
    GrammarNode.comments_eq _
  rw [found]
  exact pairwise_commentNodes 0 _

end Source

end DocProse
