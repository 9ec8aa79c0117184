import DocProse.Comment.Description
import DocProse.Proofs.Lines
import DocProse.Proofs.Trimming

/-!
# Documentation comments and their lines

A text is a documentation comment exactly when something stands between an
opening and a closing (`isDoc_iff`), and then that is its body
(`body?_eq_some_iff`).  So `describe` is the prose of that body, where there is
any (`describe_eq_some_iff`).

A line of prose holds no line feed, does not end with a blank and opens no block
tag (`isProseLine_of_mem_proseLines`).
-/

namespace DocProse.Comment

open Text

variable {text body line d : List Char}

/-! ## The body -/

/-- A comment is five bytes longer than its body. -/
theorem byteSize_whole (b : List Char) : byteSize (opening ++ b ++ closing) = byteSize b + 5 := by
  have three : byteSize opening = 3 := rfl
  have two : byteSize closing = 2 := rfl
  rw [byteSize_append, byteSize_append]
  omega

/-- A closing behind an opening that does not overlap it leaves a body. -/
theorem exists_body (long : 5 ≤ byteSize text) (opened : opening <+: text)
    (closed : closing <:+ text) : ∃ b, text = opening ++ b ++ closing := by
  obtain ⟨rest, rfl⟩ := opened
  have size : 2 ≤ byteSize rest := by
    have sum := byteSize_append opening rest
    have three : byteSize opening = 3 := rfl
    omega
  have room : closing.length ≤ rest.length := by
    match rest with
    | [] => simp [byteSize] at size
    | [c] =>
      -- A single character behind the opening is the slash, which is too small.
      obtain ⟨before, whole⟩ := closed
      have last := congrArg List.getLast? whole
      simp [opening, closing] at last
      subst last
      exact absurd size (by decide)
    | _ :: _ :: rest => simp [closing]
  obtain ⟨b, whole⟩ :=
    List.suffix_of_suffix_length_le closed (List.suffix_append opening rest) room
  exact ⟨b, by rw [← whole, List.append_assoc]⟩

/-- A documentation comment is a body between an opening and a closing. -/
theorem isDoc_iff : isDoc text = true ↔ ∃ b, text = opening ++ b ++ closing := by
  constructor
  · intro doc
    simp only [isDoc, Bool.and_eq_true, decide_eq_true_eq, List.isPrefixOf_iff_prefix,
      List.isSuffixOf_iff_suffix] at doc
    obtain ⟨⟨long, opened⟩, closed⟩ := doc
    exact exists_body long opened closed
  · rintro ⟨b, rfl⟩
    have long : 5 ≤ byteSize (opening ++ b ++ closing) := by
      rw [byteSize_whole]
      exact Nat.le_add_left 5 _
    have opened : opening <+: opening ++ b ++ closing := by
      rw [List.append_assoc]
      exact List.prefix_append opening (b ++ closing)
    have closed : closing <:+ opening ++ b ++ closing := List.suffix_append _ _
    simp only [isDoc, Bool.and_eq_true, decide_eq_true_eq, List.isPrefixOf_iff_prefix,
      List.isSuffixOf_iff_suffix]
    exact ⟨⟨long, opened⟩, closed⟩

/-- The body is what is sliced out of a comment. -/
theorem slice?_whole (b : List Char) :
    slice? 3 (byteSize (opening ++ b ++ closing) - 2) (opening ++ b ++ closing) = some b := by
  have three : byteSize opening = 3 := rfl
  have size : byteSize (opening ++ b ++ closing) - 2 = byteSize opening + byteSize b := by
    rw [byteSize_whole]
    omega
  rw [size, ← three]
  exact slice?_append opening b closing

/-- The body is what stands between opening and closing. -/
theorem body?_eq_some_iff : body? text = some body ↔ text = opening ++ body ++ closing := by
  have sliced : ∀ b, body? (opening ++ b ++ closing) = some b := by
    intro b
    rw [body?, if_pos (isDoc_iff.2 ⟨b, rfl⟩), slice?_whole]
  constructor
  · intro found
    have doc : isDoc text = true := by
      rw [body?] at found
      split at found
      · assumption
      · cases found
    obtain ⟨b, rfl⟩ := isDoc_iff.1 doc
    rw [sliced b] at found
    cases found
    rfl
  · rintro rfl
    exact sliced body

/-- The description is the prose of the body, where there is any. -/
theorem describe_eq_some_iff :
    describe text = some d ↔
      d ≠ [] ∧ ∃ b, text = opening ++ b ++ closing ∧ prose b = d := by
  constructor
  · intro described
    refine ⟨describe_ne_nil described, ?_⟩
    rw [describe] at described
    cases found : body? text with
    | none => simp [found] at described
    | some b =>
      refine ⟨b, body?_eq_some_iff.1 found, ?_⟩
      simp only [found, Option.bind_eq_bind, Option.bind_some] at described
      split at described
      · cases described
      · exact Option.some.inj described
  · rintro ⟨visible, b, whole, rfl⟩
    rw [describe, body?_eq_some_iff.2 whole]
    simpa using visible

/-- A documentation comment has the prose of its body as its description, if there is any. -/
theorem description_of_body {text : String} (whole : text.toList = opening ++ body ++ closing) :
    description text = if prose body = [] then none else some (String.ofList (prose body)) := by
  rw [description, describe, body?_eq_some_iff.2 whole]
  by_cases empty : prose body = [] <;> simp [empty]

/-! ## The gutter -/

theorem stripGutter_isSuffix (line : List Char) : stripGutter line <:+ line := by
  refine List.IsSuffix.trans ?_ (trimStart_isSuffix line)
  rw [stripGutter]
  split
  · next rest gutter =>
    rw [gutter]
    exact (List.suffix_cons ' ' rest).trans (List.suffix_cons '*' (' ' :: rest))
  · next rest _ gutter =>
    rw [gutter]
    exact List.suffix_cons '*' rest
  · exact List.suffix_rfl

/-- Behind blank, star and space a line is kept as it is. -/
theorem stripGutter_gutter (line : List Char) : stripGutter ([' ', '*', ' '] ++ line) = line :=
  rfl

/-! ## Block tags -/

theorem isTag_eq_false_iff : isTag line = false ↔ (trimStart line).head? ≠ some '@' := by
  simp [isTag]

/-- Whether a line opens a block tag is seen without the blanks at its end. -/
theorem isTag_trimEnd (line : List Char) : isTag (trimEnd line) = isTag line := by
  rw [isTag, isTag, head?_trimStart_trimEnd]

/-! ## Lines of prose -/

/-- A line as it can stand in prose. -/
structure IsProseLine (line : List Char) : Prop where
  /-- It does not end with a blank. -/
  visible_end : line.getLast?.all (!isBlank ·) = true
  /-- It opens no block tag. -/
  not_tag : (trimStart line).head? ≠ some '@'

instance (line : List Char) : Decidable (IsProseLine line) :=
  decidable_of_iff
    (line.getLast?.all (!isBlank ·) = true ∧ (trimStart line).head? ≠ some '@')
    ⟨fun h => ⟨h.1, h.2⟩, fun h => ⟨h.visible_end, h.not_tag⟩⟩

theorem isProseLine_nil : IsProseLine [] :=
  ⟨rfl, by decide⟩

/-- The first character of a line does not matter, if it is blank. -/
theorem IsProseLine.of_cons {c : Char} (h : IsProseLine (c :: line)) (blank : isBlank c = true) :
    IsProseLine line := by
  constructor
  · cases line with
    | nil => rfl
    | cons x line =>
      have last := h.visible_end
      rwa [List.getLast?_cons_cons] at last
  · have tag := h.not_tag
    rwa [trimStart, List.dropWhile_cons_of_pos blank] at tag

/-- A line of prose does not end with a given blank. -/
theorem not_isProseLine_concat {c : Char} (blank : isBlank c = true) :
    ¬ IsProseLine (line ++ [c]) := by
  intro h
  have last := h.visible_end
  simp [blank] at last

/-- What is left of the lines of a body can stand in prose. -/
theorem isProseLine_of_mem_proseLines (h : line ∈ proseLines body) : IsProseLine line := by
  simp only [proseLines, List.mem_map] at h
  obtain ⟨whole, taken, rfl⟩ := h
  have noTag : isTag whole = false := by
    simpa using List.mem_takeWhile_imp taken
  rw [← isTag_trimEnd] at noTag
  exact ⟨getLast?_trimEnd whole, isTag_eq_false_iff.1 noTag⟩

theorem newline_not_mem_of_mem_proseLines (h : line ∈ proseLines body) : '\n' ∉ line := by
  simp only [proseLines, List.mem_map] at h
  obtain ⟨stripped, taken, rfl⟩ := h
  have inLines := (List.takeWhile_prefix _).subset taken
  obtain ⟨whole, inBody, rfl⟩ := List.mem_map.1 inLines
  intro newline
  have inStripped := (trimEnd_isPrefix (stripGutter whole)).subset newline
  exact newline_not_mem_of_mem_lines inBody ((stripGutter_isSuffix whole).subset inStripped)

end DocProse.Comment
