import DocProse.Proofs.LineContents

/-!
# Comments of one line

The line behind the opening of a comment has a gutter like any other line.  A
comment that holds a text in one line, between two spaces, therefore has this
text as its description, unless the text starts with a star
(`description_oneLine`).  The star is taken for the gutter then, so emphasis
that starts with one loses it (`not_description_oneLine`).
-/

namespace DocProse.Comment

open Text

variable {line rest : List Char}

/-- The prose of a single line without blanks at its ends. -/
theorem proseOf_singleton (trimmed : trim line = line) :
    proseOf [line] = if isTag (stripGutter line) then [] else trim (stripGutter line) := by
  rw [proseOf, contents, List.map_singleton, List.map_singleton, trimmed]
  have nothing : trim (unpieces []) = [] := rfl
  cases tag : isTag (stripGutter line) with
  | false => simp [tag, unpieces_singleton]
  | true => simp [tag, nothing]

/-- A single line between two spaces is a body with its prose. -/
theorem prose_oneLine (oneLine : '\n' ∉ line) :
    prose ([' '] ++ line ++ [' ']) = proseOf [line] := by
  have whole : '\n' ∉ [' '] ++ line ++ [' '] := by simpa using oneLine
  have blank : ∀ c ∈ [' '], isBlank c = true := by simpa using isBlank_space
  rw [prose_eq_proseOf_pieces, pieces_of_not_mem whole]
  apply proseOf_congr
  rw [List.map_singleton, List.map_singleton, trim_of_blanks blank blank]

/-- A line without blanks at its ends that starts neither with a star nor with a tag is prose. -/
theorem proseOf_of_plain (trimmed : trim line = line) (noStar : line.head? ≠ some '*')
    (noTag : line.head? ≠ some '@') : proseOf [line] = line := by
  have start : trimStart line = line :=
    (trimStart_eq_self_iff line).2 (trim_eq_self_iff.1 trimmed).1
  have kept : stripGutter line = line := by
    rw [stripGutter_of_no_star (by rwa [start]), start]
  have plain : isTag line = false := by
    rw [isTag_eq_false_iff, start]
    exact noTag
  rw [proseOf_singleton trimmed, kept, plain, trimmed]
  rfl

/-- Of a line that starts with a star, what is left behind it without the blanks before that is
prose, if it does not start with a tag. -/
theorem proseOf_of_star (trimmed : trim ('*' :: rest) = '*' :: rest) :
    proseOf ['*' :: rest] = if (trimStart rest).head? = some '@' then [] else trimStart rest := by
  have start : trimStart ('*' :: rest) = '*' :: rest := rfl
  have kept : trimEnd rest = rest := by
    rw [trim, start, trimEnd_cons, if_neg (by simp [isBlank_star])] at trimmed
    exact (List.cons.inj trimmed).2
  have tag : isTag (dropSpace rest) = ((trimStart rest).head? == some '@') := by
    rw [isTag, trimStart_dropSpace]
  have left : trim (dropSpace rest) = trimStart rest := by
    rw [trim, trimStart_dropSpace, ← trim, trim_eq_trimStart kept]
  rw [proseOf_singleton trimmed, stripGutter_of_star start, tag, left]
  simp

/-- A comment that holds a text in one line has this text as its description, if the text does not
start with a star.  If it does, the description is what is left behind the star, without the blanks
before that, and there is none where nothing is left or a block tag. -/
theorem description_oneLine (x : String) (nonempty : x ≠ "") (oneLine : '\n' ∉ x.toList)
    (trimmed : trim x.toList = x.toList) (noTag : x.toList.head? ≠ some '@') :
    (x.toList.head? ≠ some '*' → description ("/** " ++ x ++ " */") = some x) ∧
    ∀ rest, x.toList = '*' :: rest →
      description ("/** " ++ x ++ " */") =
        if trimStart rest = [] ∨ (trimStart rest).head? = some '@' then none
        else some (String.ofList (trimStart rest)) := by
  have whole : ("/** " ++ x ++ " */").toList =
      opening ++ ([' '] ++ x.toList ++ [' ']) ++ closing := by
    simp [opening, closing, String.toList_append]
  rw [description_of_body whole, prose_oneLine oneLine]
  constructor
  · intro noStar
    have shown : x.toList ≠ [] := by simpa using nonempty
    rw [proseOf_of_plain trimmed noStar noTag, if_neg shown, String.ofList_toList]
  · intro rest star
    rw [star] at trimmed ⊢
    rw [proseOf_of_star trimmed]
    by_cases tag : (trimStart rest).head? = some '@'
    · simp [tag]
    · simp [tag]

/-- A star inside of a text and a return are kept.  Of a list item the star goes. -/
theorem description_oneLine_stars :
    (∀ x ∈ ["a *b*\r@c", "* **b**"], x ≠ "" ∧ '\n' ∉ x.toList ∧ trim x.toList = x.toList ∧
      x.toList.head? ≠ some '@') ∧
    description ("/** " ++ "a *b*\r@c" ++ " */") = some "a *b*\r@c" ∧
    description ("/** " ++ "* **b**" ++ " */") = some "**b**" := by
  have suited : ∀ x ∈ ["a *b*\r@c", "* **b**"], x ≠ "" ∧ '\n' ∉ x.toList ∧
      trim x.toList = x.toList ∧ x.toList.head? ≠ some '@' := by decide
  obtain ⟨nonempty, oneLine, trimmed, noTag⟩ := suited "a *b*\r@c" (by simp)
  obtain ⟨nonempty', oneLine', trimmed', noTag'⟩ := suited "* **b**" (by simp)
  have plain := (description_oneLine _ nonempty oneLine trimmed noTag).1 (by decide)
  have starred := (description_oneLine _ nonempty' oneLine' trimmed' noTag').2 " **b**".toList rfl
  exact ⟨suited, plain, starred.trans (by decide)⟩

/-- Not every text of one line is the description of the comment that holds it: emphasis loses its
first star. -/
theorem not_description_oneLine :
    ¬ ∀ x : String, x ≠ "" → '\n' ∉ x.toList → trim x.toList = x.toList →
      x.toList.head? ≠ some '@' → description ("/** " ++ x ++ " */") = some x := by
  intro all
  have kept : description ("/** " ++ "*one* two" ++ " */") = some "*one* two" :=
    all "*one* two" (by decide) (by decide) (by decide) (by decide)
  have read : description ("/** " ++ "*one* two" ++ " */") = some "one* two" := by decide
  rw [read] at kept
  exact absurd kept (by decide)

end DocProse.Comment
