import DocProse.Proofs.Description
import Mathlib.Data.List.Induction

/-!
# What is a description

A text is the description of some documentation comment exactly when it is
*prose*: it is not empty, it has no blank at either end, and none of its lines
ends with a blank or opens a block tag (`IsProse`).  `write` lays prose out as a
comment whose description it is, so it is a right inverse of the description
(`description_image`).

One half follows the lines of a body.  They can stand in prose one by one, and
trimming the whole keeps this, since it takes one blank after the other from an
end (`isProseLine_of_mem_trimStart`, `isProseLine_of_mem_trimEnd`).  The other
half follows the lines of the layout.  Each gives back the line it was made of,
and the two further ones, which come from the ends, are empty
(`proseLines_layout`).
-/

namespace DocProse.Comment

open Text

variable {cs d : List Char}

/-- A text that can be the description of a comment. -/
structure IsProse (d : List Char) : Prop where
  /-- There is something. -/
  ne_nil : d ≠ []
  /-- It has no blank at either end. -/
  trimmed : trim d = d
  /-- None of its lines ends with a blank or opens a block tag. -/
  lines : ∀ line ∈ pieces d, IsProseLine line

instance (d : List Char) : Decidable (IsProse d) :=
  decidable_of_iff (d ≠ [] ∧ trim d = d ∧ ∀ line ∈ pieces d, IsProseLine line)
    ⟨fun h => ⟨h.1, h.2.1, h.2.2⟩, fun h => ⟨h.ne_nil, h.trimmed, h.lines⟩⟩

/-! ## Trimming keeps lines of prose -/

theorem isProseLine_of_mem_tail {c : Char} (blank : isBlank c = true)
    (all : ∀ line ∈ pieces (c :: cs), IsProseLine line) :
    ∀ line ∈ pieces cs, IsProseLine line := by
  intro line membership
  by_cases newline : c = '\n'
  · subst newline
    rw [pieces_newline] at all
    exact all line (List.mem_cons_of_mem _ membership)
  · obtain ⟨p, ps, cut, cutCons⟩ := pieces_cons newline cs
    rw [cutCons] at all
    rw [cut] at membership
    rcases List.mem_cons.1 membership with first | rest
    · subst first
      exact (all _ List.mem_cons_self).of_cons blank
    · exact all line (List.mem_cons_of_mem _ rest)

theorem isProseLine_of_mem_trimStart (all : ∀ line ∈ pieces cs, IsProseLine line) :
    ∀ line ∈ pieces (trimStart cs), IsProseLine line := by
  induction cs with
  | nil => exact all
  | cons c cs ih =>
    by_cases blank : isBlank c = true
    · rw [trimStart, List.dropWhile_cons_of_pos blank]
      exact ih (isProseLine_of_mem_tail blank all)
    · rw [trimStart, List.dropWhile_cons_of_neg blank]
      exact all

/-- Taking a blank from the end leaves lines of prose.  The blank is a line feed, since no line
of prose ends with any other. -/
theorem isProseLine_of_mem_init {c : Char} (blank : isBlank c = true)
    (all : ∀ line ∈ pieces (cs ++ [c]), IsProseLine line) :
    ∀ line ∈ pieces cs, IsProseLine line := by
  intro line membership
  by_cases newline : c = '\n'
  · subst newline
    rw [pieces_append_newline] at all
    exact all line (List.mem_append_left _ membership)
  · obtain ⟨ps, p, -, cutConcat⟩ := pieces_concat newline cs
    rw [cutConcat] at all
    have last : IsProseLine (p ++ [c]) := all _ (List.mem_append_right ps List.mem_cons_self)
    exact absurd last (not_isProseLine_concat blank)

theorem isProseLine_of_mem_trimEnd (all : ∀ line ∈ pieces cs, IsProseLine line) :
    ∀ line ∈ pieces (trimEnd cs), IsProseLine line := by
  induction cs using List.reverseRecOn with
  | nil => exact all
  | append_singleton cs c ih =>
    by_cases blank : isBlank c = true
    · have only : ∀ x ∈ [c], isBlank x = true := by simpa using blank
      rw [trimEnd_append_of_blank only]
      exact ih (isProseLine_of_mem_init blank all)
    · have kept : trimEnd (cs ++ [c]) = cs ++ [c] := by
        rw [trimEnd_eq_self_iff]
        simpa using blank
      rw [kept]
      exact all

/-! ## Descriptions are prose -/

theorem isProse_of_describe (h : describe text = some d) : IsProse d := by
  obtain ⟨visible, body, -, rfl⟩ := describe_eq_some_iff.1 h
  refine ⟨visible, trim_trim _, ?_⟩
  have nonempty : proseLines body ≠ [] := by
    intro empty
    apply visible
    rw [prose, empty]
    rfl
  have cut : pieces (unpieces (proseLines body)) = proseLines body :=
    pieces_unpieces nonempty fun _ membership => newline_not_mem_of_mem_proseLines membership
  apply isProseLine_of_mem_trimEnd
  apply isProseLine_of_mem_trimStart
  rw [cut]
  intro line membership
  exact isProseLine_of_mem_proseLines membership

/-! ## Prose can be written -/

/-- The body of prose that is laid out as a comment. -/
def layout (d : List Char) : List Char := ['\n'] ++ (pieces d).flatMap gutterLine ++ [' ']

theorem write_eq (d : List Char) : write d = opening ++ layout d ++ closing := by
  simp [write, layout, List.append_assoc]

/-- The pieces of lines behind their gutters. -/
theorem pieces_flatMap_gutterLine {ps : List (List Char)} (whole : ∀ p ∈ ps, '\n' ∉ p)
    (rest : List Char) :
    pieces (ps.flatMap gutterLine ++ rest) = ps.map ([' ', '*', ' '] ++ ·) ++ pieces rest := by
  have ended : ps.flatMap gutterLine =
      (ps.map ([' ', '*', ' '] ++ ·)).flatMap (· ++ ['\n']) := by
    rw [List.flatMap_map]
    rfl
  rw [ended, pieces_flatMap_newline]
  intro line membership
  obtain ⟨p, inPieces, rfl⟩ := List.mem_map.1 membership
  simpa using whole p inPieces

/-- A line of prose behind its gutter does not end with a return. -/
theorem dropReturn_gutter {line : List Char} (h : IsProseLine line) :
    dropReturn ([' ', '*', ' '] ++ line) = [' ', '*', ' '] ++ line := by
  apply dropReturn_eq_self
  intro last
  cases line with
  | nil => simp at last
  | cons c line =>
    have visible := h.visible_end
    rw [List.getLast?_append, List.getLast?_cons, Option.some_or] at last
    rw [List.getLast?_cons, last] at visible
    exact absurd visible (by decide)

/-- The lines of the layout: an empty one, the lines of prose behind their gutters, and the blank
before the closing. -/
theorem lines_layout (h : ∀ line ∈ pieces d, IsProseLine line) :
    lines (layout d) = [] :: (pieces d).map ([' ', '*', ' '] ++ ·) ++ [[' ']] := by
  have whole : ∀ p ∈ pieces d, '\n' ∉ p := fun _ membership =>
    newline_not_mem_of_mem_pieces membership
  have cut : pieces (layout d) =
      ([] :: (pieces d).map ([' ', '*', ' '] ++ ·)) ++ [[' ']] := by
    rw [layout, List.append_assoc, List.singleton_append, pieces_newline,
      pieces_flatMap_gutterLine whole]
    rfl
  have kept : ((pieces d).map ([' ', '*', ' '] ++ ·)).map dropReturn =
      (pieces d).map ([' ', '*', ' '] ++ ·) := by
    rw [List.map_map]
    apply List.map_congr_left
    intro line membership
    exact dropReturn_gutter (h line membership)
  rw [lines, cut, linesOfPieces_concat, List.map_cons, kept]
  rfl

/-- The prose in the layout: its lines, with an empty line at either end. -/
theorem proseLines_layout (h : ∀ line ∈ pieces d, IsProseLine line) :
    proseLines (layout d) = [] :: pieces d ++ [[]] := by
  have stripped : (lines (layout d)).map stripGutter = [] :: pieces d ++ [[]] := by
    rw [lines_layout h]
    simp only [List.map_append, List.map_cons, List.map_map]
    have back : stripGutter ∘ ([' ', '*', ' '] ++ ·) = id := funext stripGutter_gutter
    rw [back, List.map_id]
    rfl
  have all : ∀ line ∈ [] :: pieces d ++ [[]], IsProseLine line := by
    intro line membership
    simp only [List.cons_append, List.mem_cons, List.mem_append, List.not_mem_nil,
      or_false] at membership
    rcases membership with empty | inside | empty
    · exact empty ▸ isProseLine_nil
    · exact h line inside
    · exact empty ▸ isProseLine_nil
  have noTag : ∀ line ∈ [] :: pieces d ++ [[]], (!isTag line) = true := by
    intro line membership
    rw [isTag_eq_false_iff.2 (all line membership).not_tag]
    rfl
  have untrimmed : ([] :: pieces d ++ [[]]).map trimEnd = [] :: pieces d ++ [[]] := by
    conv => rhs; rw [← List.map_id ([] :: pieces d ++ [[]])]
    apply List.map_congr_left
    intro line membership
    exact (trimEnd_eq_self_iff line).2 (all line membership).visible_end
  rw [proseLines, stripped, List.takeWhile_eq_self_iff.2 noTag, untrimmed]

/-- Prose that is written as a comment is read back. -/
theorem describe_write (h : IsProse d) : describe (write d) = some d := by
  refine describe_eq_some_iff.2 ⟨h.ne_nil, layout d, write_eq d, ?_⟩
  have joined : unpieces ([] :: pieces d ++ [[]]) = ['\n'] ++ d ++ ['\n'] := by
    rw [List.cons_append, unpieces_cons [] (by simp), unpieces_concat (pieces_ne_nil d),
      unpieces_pieces]
    rfl
  have blank : ∀ c ∈ ['\n'], isBlank c = true := by simpa using isBlank_newline
  rw [prose, proseLines_layout h.lines, joined, trim_of_blanks blank blank, h.trimmed]

/-! ## The image -/

/-- Exactly prose is the description of some comment, and of the comment it is written as. -/
theorem description_image (d : String) :
    ((∃ text, description text = some d) ↔ IsProse d.toList) ∧
      (IsProse d.toList → description (String.ofList (write d.toList)) = some d) := by
  have written : IsProse d.toList → description (String.ofList (write d.toList)) = some d := by
    intro h
    rw [description, String.toList_ofList, describe_write h, Option.map_some,
      String.ofList_toList]
  refine ⟨⟨?_, fun h => ⟨_, written h⟩⟩, written⟩
  rintro ⟨text, described⟩
  obtain ⟨cs, found, rfl⟩ := Option.map_eq_some_iff.1 described
  rw [String.toList_ofList]
  exact isProse_of_describe found

/-- Indentation, an empty line and a return inside a line are read back. -/
theorem description_image_indented :
    IsProse "One.\n  two\n\nThr\ree @.".toList ∧
      description (String.ofList (write "One.\n  two\n\nThr\ree @.".toList)) =
        some "One.\n  two\n\nThr\ree @." := by
  have prose : IsProse "One.\n  two\n\nThr\ree @.".toList := by decide
  exact ⟨prose, (description_image _).2 prose⟩

end DocProse.Comment
