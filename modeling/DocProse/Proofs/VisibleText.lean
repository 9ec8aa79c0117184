import DocProse.Proofs.Description

/-!
# Visible characters of a description

The visible characters of a text are those that are not blank, in order.
Trimming keeps all of them, and so does joining lines (`visible_trim`,
`visible_unpieces`).  Taking the gutter from a line takes one star, if the first
visible character is one (`visible_stripGutter`), and whether the rest opens a
block tag can be seen from the visible characters of the line
(`isTag_stripGutter`).

So the visible characters of the prose are those of the lines before the first
block tag, but for one star per line (`visible_prose`), and a description loses
none of them and has no others (`description_visible`).
-/

namespace DocProse.Text

variable {c : Char} {cs rest : List Char}

/-! ## Visible characters -/

/-- The characters of a text that are not blank. -/
def visible (cs : List Char) : List Char := cs.filter (!isBlank ·)

/-- The first character of a text that was trimmed is visible. -/
theorem visible_cons (first : (c :: rest).head?.all (!isBlank ·) = true) :
    visible (c :: rest) = c :: visible rest := by
  have shown : isBlank c = false := by simpa using first
  simp [visible, shown]

theorem visible_append (xs ys : List Char) : visible (xs ++ ys) = visible xs ++ visible ys :=
  List.filter_append xs ys

theorem visible_of_blank (blank : ∀ c ∈ cs, isBlank c = true) : visible cs = [] := by
  rw [visible, List.filter_eq_nil_iff]
  intro c membership
  simp [blank c membership]

theorem visible_trimStart (cs : List Char) : visible (trimStart cs) = visible cs := by
  induction cs with
  | nil => rfl
  | cons c cs ih =>
    cases blank : isBlank c with
    | true =>
      rw [trimStart, List.dropWhile_cons_of_pos blank, ← trimStart, ih]
      simp [visible, blank]
    | false => simp [trimStart, blank]

theorem visible_trimEnd (cs : List Char) : visible (trimEnd cs) = visible cs := by
  -- At the end the same characters go as at the start of the reversed text.
  have reversed := visible_trimStart cs.reverse
  rw [trimEnd, visible, List.filter_reverse, ← visible, ← trimStart, reversed, visible,
    List.filter_reverse, List.reverse_reverse, visible]

theorem visible_trim (cs : List Char) : visible (trim cs) = visible cs := by
  rw [trim, visible_trimEnd, visible_trimStart]

theorem visible_unpieces (ps : List (List Char)) : visible (unpieces ps) = ps.flatMap visible := by
  induction ps with
  | nil => rfl
  | cons p ps ih =>
    cases ps with
    | nil => rw [unpieces_singleton, List.flatMap_singleton]
    | cons q ps =>
      -- The line feed between two pieces is blank.
      rw [unpieces_cons p (by simp), List.flatMap_cons, ← ih]
      simp [visible, isBlank_newline]

theorem head?_trimStart_eq (cs : List Char) : (trimStart cs).head? = (visible cs).head? := by
  have first := head?_trimStart cs
  rw [← visible_trimStart]
  cases kept : trimStart cs with
  | nil => rfl
  | cons c rest =>
    rw [kept] at first
    rw [visible_cons first]
    rfl

/-- Trimming leaves nothing exactly where nothing is visible. -/
theorem trim_eq_nil_iff : trim cs = [] ↔ visible cs = [] := by
  have first := head?_trim cs
  rw [← visible_trim]
  cases kept : trim cs with
  | nil => exact ⟨fun _ => rfl, fun _ => rfl⟩
  | cons c rest =>
    rw [kept] at first
    rw [visible_cons first]
    simp

end DocProse.Text

namespace DocProse.Comment

open Text

/-! ## Gutters and tags -/

/-- A text without the star it starts with, if it does. -/
def dropStar : List Char → List Char
  | '*' :: cs => cs
  | cs => cs

/-- Whether the visible characters of a line start with `@`, or with a star and `@`. -/
def startsTag (line : List Char) : Bool :=
  ['@'].isPrefixOf (visible line) || ['*', '@'].isPrefixOf (visible line)

theorem dropStar_of_ne {c : Char} (h : c ≠ '*') (cs : List Char) :
    dropStar (c :: cs) = c :: cs := by
  rw [dropStar]
  intro rest same
  exact h (List.cons.inj same).1

/-- The gutter of a line has one visible character at most, which is a star. -/
theorem visible_stripGutter (line : List Char) :
    visible (stripGutter line) = dropStar (visible line) := by
  have first := head?_trimStart line
  rw [← visible_trimStart line, stripGutter]
  split
  · next rest gutter =>
    rw [gutter]
    rfl
  · next rest _ gutter =>
    rw [gutter]
    rfl
  · next noStar =>
    cases kept : trimStart line with
    | nil => rfl
    | cons c rest =>
      rw [kept] at first
      have other : c ≠ '*' := by
        rintro rfl
        exact noStar rest kept
      rw [visible_cons first, dropStar_of_ne other]

theorem head?_dropStar (cs : List Char) :
    ((dropStar cs).head? == some '@') = (['@'].isPrefixOf cs || ['*', '@'].isPrefixOf cs) := by
  cases cs with
  | nil => rfl
  | cons c cs =>
    by_cases star : c = '*'
    · subst star
      have behind : dropStar ('*' :: cs) = cs := rfl
      rw [behind]
      cases cs with
      | nil => rfl
      | cons d cs => simp [List.isPrefixOf, Bool.beq_comm]
    · rw [dropStar_of_ne star]
      simp [List.isPrefixOf, star, Bool.beq_comm]

/-- Blanks between the star and what follows it hide no tag. -/
theorem isTag_stripGutter (line : List Char) : isTag (stripGutter line) = startsTag line := by
  rw [isTag, head?_trimStart_eq, visible_stripGutter, head?_dropStar, startsTag]

/-! ## The prose of a body -/

/-- The visible characters of the lines before the first one with a tag, but for one star at the
start of each. -/
def visibleProse (body : List Char) : List Char :=
  ((lines body).takeWhile (!startsTag ·)).flatMap fun line => dropStar (visible line)

theorem visible_prose (body : List Char) : visible (prose body) = visibleProse body := by
  have untagged : (fun line => !isTag line) ∘ stripGutter = fun line => !startsTag line := by
    funext line
    rw [Function.comp, isTag_stripGutter]
  have shown : ∀ line, visible (trimEnd (stripGutter line)) = dropStar (visible line) := by
    intro line
    rw [visible_trimEnd, visible_stripGutter]
  rw [prose, visible_trim, visible_unpieces, proseLines, List.takeWhile_map, untagged,
    List.map_map, List.flatMap_map]
  simp only [Function.comp, shown]
  rfl

/-- The description of a documentation comment has the visible characters of the lines before the
first block tag, but for one star at the start of each line, and no others.  There is none exactly
when there are no such characters. -/
theorem description_visible (t : String) (doc : isDoc t.toList = true) :
    ∃ body, body? t.toList = some body ∧ t.toList = opening ++ body ++ closing ∧
      (description t = none ↔ visibleProse body = []) ∧
      (visibleProse body ≠ [] →
        ∃ d, description t = some d ∧ visible d.toList = visibleProse body) := by
  obtain ⟨body, whole⟩ := isDoc_iff.1 doc
  have found : body? t.toList = some body := body?_eq_some_iff.2 whole
  have described : description t =
      if prose body = [] then none else some (String.ofList (prose body)) := by
    rw [description, describe, found]
    by_cases empty : prose body = [] <;> simp [empty]
  have empty_iff : prose body = [] ↔ visibleProse body = [] := by
    rw [← visible_prose, prose, visible_trim, trim_eq_nil_iff]
  refine ⟨body, found, whole, ?_, ?_⟩
  · rw [described, ← empty_iff]
    simp
  · intro shown
    have nonempty : prose body ≠ [] := fun empty => shown (empty_iff.1 empty)
    refine ⟨String.ofList (prose body), ?_, ?_⟩
    · rw [described, if_neg nonempty]
    · rw [String.toList_ofList, visible_prose]

/-- Stars that are text, blanks that are not spaces, and a tag behind a star and a blank. -/
theorem description_visible_starred :
    isDoc "/** *One*\n * * two\n\u3000*\t@tag three */".toList = true ∧
    ∃ d, description "/** *One*\n * * two\n\u3000*\t@tag three */" = some d ∧
      visible d.toList = "One**two".toList := by
  have doc : isDoc "/** *One*\n * * two\n\u3000*\t@tag three */".toList = true := by decide
  obtain ⟨body, found, -, -, shown⟩ :=
    description_visible "/** *One*\n * * two\n\u3000*\t@tag three */" doc
  have inside : body = " *One*\n * * two\n\u3000*\t@tag three ".toList :=
    Option.some.inj (found.symm.trans (by decide))
  subst inside
  exact ⟨doc, shown (by decide)⟩

end DocProse.Comment
