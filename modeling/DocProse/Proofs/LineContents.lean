import DocProse.Proofs.VisibleText

/-!
# What the lines of a body contain

A line contains what stands behind its gutter.  Blanks at the ends of the line
have no part in this: the gutter may as well be taken from the line without them
(`stripGutter_trim`), and it is seen then whether the line opens a block tag.  So
the prose of a body is put together from its lines without the blanks at their
ends (`contents`, `proseOf`).

A return at the end of a line is such a blank, and a last line of blanks adds
nothing (`proseOf_concat_of_blank`).  Hence it does not matter how lines are told
apart: the prose of a body is that of its pieces between line feeds
(`prose_eq_proseOf_pieces`).
-/

namespace DocProse.Comment

open Text

variable {line rest q : List Char} {ps qs : List (List Char)}

/-! ## One line -/

/-- A text without the space it starts with, if it does. -/
def dropSpace : List Char → List Char
  | ' ' :: cs => cs
  | cs => cs

theorem dropSpace_of_ne {c : Char} (h : c ≠ ' ') (cs : List Char) :
    dropSpace (c :: cs) = c :: cs := by
  rw [dropSpace]
  intro rest same
  exact h (List.cons.inj same).1

theorem dropSpace_trimEnd (cs : List Char) : dropSpace (trimEnd cs) = trimEnd (dropSpace cs) := by
  cases cs with
  | nil => rfl
  | cons c cs =>
    by_cases space : c = ' '
    · subst space
      have behind : dropSpace (' ' :: cs) = cs := rfl
      rw [trimEnd_cons, behind]
      by_cases empty : trimEnd cs = []
      · rw [if_pos ⟨isBlank_space, empty⟩, empty]
        rfl
      · rw [if_neg fun h => empty h.2]
        rfl
    · rw [dropSpace_of_ne space, trimEnd_cons]
      split
      · rfl
      · exact dropSpace_of_ne space _

theorem trimStart_dropSpace (cs : List Char) : trimStart (dropSpace cs) = trimStart cs := by
  cases cs with
  | nil => rfl
  | cons c cs =>
    by_cases space : c = ' '
    · subst space
      rfl
    · rw [dropSpace_of_ne space]

theorem stripGutter_of_star (h : trimStart line = '*' :: rest) :
    stripGutter line = dropSpace rest := by
  rw [stripGutter, h]
  cases rest with
  | nil => rfl
  | cons c rest =>
    by_cases space : c = ' '
    · subst space
      rfl
    · rw [dropSpace_of_ne space]
      split <;> simp_all

theorem stripGutter_of_no_star (h : (trimStart line).head? ≠ some '*') :
    stripGutter line = trimStart line := by
  rw [stripGutter]
  split
  · next gutter => simp [gutter] at h
  · next gutter => simp [gutter] at h
  · rfl

/-- Blanks at the end of a line go with those at the end of what it contains. -/
theorem stripGutter_trim (line : List Char) :
    stripGutter (trim line) = trimEnd (stripGutter line) := by
  have kept : trimStart (trim line) = trim line := (trimStart_eq_self_iff _).2 (head?_trim line)
  by_cases star : (trimStart line).head? = some '*'
  · obtain ⟨rest, start⟩ := List.head?_eq_some_iff.1 star
    have whole : trimStart (trim line) = '*' :: trimEnd rest := by
      rw [kept, trim, start, trimEnd_cons, if_neg (by simp [isBlank_star])]
    rw [stripGutter_of_star start, stripGutter_of_star whole, dropSpace_trimEnd]
  · have starless : (trimStart (trim line)).head? ≠ some '*' := by
      rw [kept, trim]
      by_cases empty : trimEnd (trimStart line) = []
      · simp [empty]
      · rwa [head?_trimEnd empty]
    rw [stripGutter_of_no_star starless, stripGutter_of_no_star star, kept, trim]

/-! ## Several lines -/

/-- What lines contain, up to the first one that opens a block tag. -/
def contents (ls : List (List Char)) : List (List Char) :=
  ((ls.map trim).map stripGutter).takeWhile (!isTag ·)

/-- The prose that lines hold together. -/
def proseOf (ls : List (List Char)) : List Char := trim (unpieces (contents ls))

theorem proseLines_eq (body : List Char) : proseLines body = contents (lines body) := by
  have trimmed : ((!isTag ·) : List Char → Bool) = (!isTag ·) ∘ trimEnd := by
    funext line
    rw [Function.comp, isTag_trimEnd]
  have each : trimEnd ∘ stripGutter = stripGutter ∘ trim := funext fun line =>
    (stripGutter_trim line).symm
  rw [proseLines, trimmed, ← List.takeWhile_map, List.map_map, each, contents, List.map_map]

theorem prose_eq_proseOf_lines (body : List Char) : prose body = proseOf (lines body) := by
  rw [prose, proseLines_eq, proseOf]

/-- Lines hold the same prose when they are the same but for blanks at their ends. -/
theorem proseOf_congr (same : ps.map trim = qs.map trim) : proseOf ps = proseOf qs := by
  rw [proseOf, proseOf, contents, contents, same]

/-- Further lines add what they contain, or nothing where a block tag stands before them. -/
theorem contents_append (ps qs : List (List Char)) :
    contents (ps ++ qs) = contents ps ∨ contents (ps ++ qs) = contents ps ++ contents qs := by
  rw [contents, contents, contents, List.map_append, List.map_append, List.takeWhile_append]
  split
  · next all =>
    rw [(List.takeWhile_sublist _).eq_of_length all]
    exact .inr rfl
  · exact .inl rfl

/-- Nothing from a line with a block tag on adds to the prose. -/
theorem proseOf_append_of_startsTag (tag : startsTag line = true) :
    proseOf (ps ++ line :: qs) = proseOf ps := by
  have noMore : contents (line :: qs) = [] := by
    have first : isTag (stripGutter (trim line)) = true := by
      rw [isTag_stripGutter, startsTag, visible_trim, ← startsTag, tag]
    simp [contents, first]
  rcases contents_append ps (line :: qs) with same | both
  · rw [proseOf, same, proseOf]
  · rw [proseOf, both, noMore, List.append_nil, proseOf]

/-- A last line of blanks adds nothing to the prose. -/
theorem proseOf_concat_of_blank (blank : trim q = []) : proseOf (ps ++ [q]) = proseOf ps := by
  have empty : contents [q] = [[]] := by
    rw [contents, List.map_singleton, blank]
    rfl
  rcases contents_append ps [q] with same | both
  · rw [proseOf, same, proseOf]
  · rw [proseOf, both, empty, proseOf]
    cases contents ps with
    | nil => rfl
    | cons p ps =>
      have newline : ∀ c ∈ ['\n'], isBlank c = true := by simpa using isBlank_newline
      rw [unpieces_concat (List.cons_ne_nil p ps), trim_append_of_blank newline]

/-! ## Pieces as lines -/

theorem trim_dropReturn (p : List Char) : trim (dropReturn p) = trim p := by
  by_cases last : p.getLast? = some '\r'
  · obtain ⟨line, rfl⟩ := List.getLast?_eq_some_iff.1 last
    have blank : ∀ c ∈ ['\r'], isBlank c = true := by simpa using isBlank_return
    rw [dropReturn_concat, trim_append_of_blank blank]
  · rw [dropReturn_eq_self last]

/-- The prose of a body, put together from the pieces between its line feeds. -/
theorem prose_eq_proseOf_pieces (body : List Char) : prose body = proseOf (pieces body) := by
  obtain ⟨ps, q, cut⟩ := exists_pieces_concat body
  have returns : (ps.map dropReturn).map trim = ps.map trim := by
    rw [List.map_map]
    exact List.map_congr_left fun p _ => trim_dropReturn p
  rw [prose_eq_proseOf_lines, lines, cut, linesOfPieces_concat]
  cases q with
  | nil =>
    have blank : trim [] = [] := rfl
    rw [proseOf_concat_of_blank blank, List.isEmpty_nil, if_pos rfl, List.append_nil]
    exact proseOf_congr returns
  | cons c q =>
    apply proseOf_congr
    rw [List.map_append, List.map_append, returns]
    rfl

end DocProse.Comment
