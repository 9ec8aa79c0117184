import DocProse.Proofs.LineContents

/-!
# From the first block tag on

A description ends before the first line that opens a block tag, and what stands
in that line and in all lines behind it has no influence
(`description_before_tag`).  The line may start with blanks, a star and more
blanks.

The rest of the line does not hide the tag (`startsTag_append`), so the lines of
the body are those before it, the line itself, and others that are not looked at
(`prose_tag`).  The line feed before the tag leaves an empty line at most, which
adds nothing (`prose_newline`).
-/

namespace DocProse.Comment

open Text

variable {line : List Char}

/-- A tag stays a tag, whatever follows it in its line. -/
theorem startsTag_append (tag : startsTag line = true) (rest : List Char) :
    startsTag (line ++ rest) = true := by
  simp only [startsTag, Bool.or_eq_true, List.isPrefixOf_iff_prefix, visible_append] at tag ⊢
  rcases tag with bare | gutter
  · exact .inl (bare.trans (List.prefix_append _ _))
  · exact .inr (gutter.trans (List.prefix_append _ _))

/-- A line feed at the end of a body adds nothing. -/
theorem prose_newline (cs : List Char) : prose (cs ++ ['\n']) = prose cs := by
  have blank : trim [] = [] := rfl
  have last : pieces (cs ++ ['\n']) = pieces cs ++ [[]] := pieces_append_newline cs []
  rw [prose_eq_proseOf_pieces, last, proseOf_concat_of_blank blank, ← prose_eq_proseOf_pieces]

/-- The start of a line that opens a block tag ends the prose, whatever follows it. -/
theorem prose_tag (tag : startsTag line = true) (oneLine : '\n' ∉ line) (cs rest : List Char) :
    prose (cs ++ '\n' :: (line ++ rest)) = prose cs := by
  obtain ⟨q, qs, -, cut⟩ := pieces_append_of_not_mem oneLine rest
  rw [prose_eq_proseOf_pieces, pieces_append_newline, cut,
    proseOf_append_of_startsTag (startsTag_append tag q), ← prose_eq_proseOf_pieces]

/-- A line of blanks opens a block tag with `@`, behind a star or not. -/
theorem startsTag_of_blanks {ws vs gutter : List Char} (before : ∀ c ∈ ws, isBlank c = true)
    (behind : ∀ c ∈ vs, isBlank c = true) (star : gutter = [] ∨ gutter = ['*']) :
    startsTag (ws ++ gutter ++ vs ++ ['@']) = true := by
  simp only [startsTag, visible_append, visible_of_blank before, visible_of_blank behind]
  rcases star with rfl | rfl <;> decide

/-- Nothing from the first block tag on has an influence on the description: a comment that goes on
behind a tag has the description of the comment that ends before the line of the tag. -/
theorem description_before_tag (front rest w w' gutter : String)
    (before : ∀ c ∈ w.toList, isBlank c = true ∧ c ≠ '\n')
    (behind : ∀ c ∈ w'.toList, isBlank c = true ∧ c ≠ '\n')
    (star : gutter = "" ∨ gutter = "*") :
    description ("/**" ++ front ++ "\n" ++ w ++ gutter ++ w' ++ "@" ++ rest ++ "*/") =
      description ("/**" ++ front ++ "\n*/") := by
  have gutter_eq : gutter.toList = [] ∨ gutter.toList = ['*'] := by
    rcases star with rfl | rfl
    · exact .inl rfl
    · exact .inr rfl
  have tag : startsTag (w.toList ++ gutter.toList ++ w'.toList ++ ['@']) = true :=
    startsTag_of_blanks (fun c inside => (before c inside).1) (fun c inside => (behind c inside).1)
      gutter_eq
  have oneLine : '\n' ∉ w.toList ++ gutter.toList ++ w'.toList ++ ['@'] := by
    have noFeed : '\n' ∉ w.toList := fun inside => (before _ inside).2 rfl
    have noFeed' : '\n' ∉ w'.toList := fun inside => (behind _ inside).2 rfl
    rcases gutter_eq with empty | single
    · simp [noFeed, noFeed', empty]
    · simp [noFeed, noFeed', single]
  have whole : ("/**" ++ front ++ "\n" ++ w ++ gutter ++ w' ++ "@" ++ rest ++ "*/").toList =
      opening ++ (front.toList ++ '\n' ::
        (w.toList ++ gutter.toList ++ w'.toList ++ ['@'] ++ rest.toList)) ++ closing := by
    simp [opening, closing, String.toList_append]
  have short : ("/**" ++ front ++ "\n*/").toList =
      opening ++ (front.toList ++ ['\n']) ++ closing := by
    simp [opening, closing, String.toList_append]
  rw [description_of_body whole, description_of_body short, prose_tag tag oneLine, prose_newline]

/-- A tag behind blanks that are not spaces, a star and a return, with more tags and prose in the
rest. -/
theorem description_before_tag_starred :
    (∀ c ∈ "\u3000\t".toList, isBlank c = true ∧ c ≠ '\n') ∧
      (∀ c ∈ "\r ".toList, isBlank c = true ∧ c ≠ '\n') ∧
      description ("/**" ++ " One.\r\n *" ++ "\n" ++ "\u3000\t" ++ "*" ++ "\r " ++ "@" ++
          "a *\nmore\n * @b" ++ "*/") =
        description ("/**" ++ " One.\r\n *" ++ "\n*/") := by
  have before : ∀ c ∈ "\u3000\t".toList, isBlank c = true ∧ c ≠ '\n' := by
    simp [isBlank, blankRanges]
  have behind : ∀ c ∈ "\r ".toList, isBlank c = true ∧ c ≠ '\n' := by
    simp [isBlank, blankRanges]
  exact ⟨before, behind, description_before_tag _ _ _ _ _ before behind (.inr rfl)⟩

end DocProse.Comment
