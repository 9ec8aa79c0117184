import DocProse.Listing
import Mathlib.Data.List.Infix

/-!
# Reading the lines of a listing

A listing can be read again, line by line: a header names a file, and a comment
starts with its place (`Listing.headerPath?`, `Listing.place?`).  The places on
the lines below a header go with it (`Listing.sections`).  A style does not get in
the way, because it puts the same before and behind every text
(`Style.paint_eq`).
-/

namespace DocProse

/-! ## Styles -/

namespace Style

/-- What a style puts before a text. -/
def opening (style : Style) : String :=
  if style.isEmpty then "" else "\x1b[" ++ ";".intercalate (style.map toString) ++ "m"

/-- What a style puts behind a text. -/
def closing (style : Style) : String := if style.isEmpty then "" else resetAttributes

theorem paint_eq (style : Style) (text : String) :
    style.paint text = style.opening ++ text ++ style.closing := by
  cases style with
  | nil => simp [paint, opening, closing]
  | cons n ns => simp [paint, opening, closing]

theorem toList_opening_cons (n : Nat) (ns : List Nat) :
    ∃ rest, (opening (n :: ns)).toList = '\x1b' :: rest := by
  simp [opening]

theorem toList_closing_cons (n : Nat) (ns : List Nat) :
    ∃ rest, (closing (n :: ns)).toList = '\x1b' :: rest := by
  simp [closing, resetAttributes]

end Style

/-! ## Places in writing -/

/-- Whether a character can stand in a place. -/
def isPlaceChar (c : Char) : Bool := c.isDigit || c == ':' || c == '-'

theorem isPlaceChar_of_mem_toString {n : Nat} {c : Char} (h : c ∈ (toString n).toList) :
    isPlaceChar c = true := by
  have written : toString n = String.ofList (Nat.toDigits 10 n) := Nat.repr_eq_ofList_toDigits
  rw [written, String.toList_ofList] at h
  have digit := Nat.isDigit_of_mem_toDigits (by decide) (by decide) h
  simp [isPlaceChar, digit]

theorem Position.isPlaceChar_of_mem_text {p : Position} {c : Char} (h : c ∈ p.text.toList) :
    isPlaceChar c = true := by
  simp only [Position.text, String.toList_append, List.mem_append] at h
  rcases h with (line | colon) | column
  · exact isPlaceChar_of_mem_toString line
  · obtain rfl : c = ':' := by simpa using colon
    rfl
  · exact isPlaceChar_of_mem_toString column

theorem Span.isPlaceChar_of_mem_text {s : Span} {c : Char} (h : c ∈ s.text.toList) :
    isPlaceChar c = true := by
  simp only [Span.text, String.toList_append, List.mem_append] at h
  rcases h with (start | dash) | stop
  · exact Position.isPlaceChar_of_mem_text start
  · obtain rfl : c = '-' := by simpa using dash
    rfl
  · exact Position.isPlaceChar_of_mem_text stop

/-- A place is all that stands before the next space or escape character. -/
theorem Span.takeWhile_text_append (s : Span) {behind : List Char}
    (stop : behind.head?.all (!isPlaceChar ·) = true) :
    (s.text.toList ++ behind).takeWhile isPlaceChar = s.text.toList := by
  rw [List.takeWhile_append_of_pos fun c inside => Span.isPlaceChar_of_mem_text inside]
  cases behind with
  | nil => simp
  | cons c behind =>
    have other : isPlaceChar c = false := by simpa using stop
    simp [other]

/-! ## Reading lines -/

namespace Listing

variable {theme : Theme} {line path : String} {behind : List Char}

/-- The path that a line names, if the line is a header. -/
def headerPath? (theme : Theme) (line : String) : Option String := do
  let behind ← ("📄 " ++ theme.header.opening).toList.isPrefixOf? line.toList
  let path ← theme.header.closing.toList.isSuffixOf? behind
  return String.ofList path

/-- The place that a line starts with, if it does. -/
def place? (theme : Theme) (line : String) : Option String := do
  let behind ← ("  " ++ theme.location.opening).toList.isPrefixOf? line.toList
  let place := behind.takeWhile isPlaceChar
  if place.isEmpty then none else some (String.ofList place)

/-- The places on the lines before the first header, and each header with the places on the lines
below it. -/
def sections (theme : Theme) : List String → List String × List (String × List String)
  | [] => ([], [])
  | line :: lines =>
    let below := sections theme lines
    match headerPath? theme line with
    | some path => ([], (path, below.1) :: below.2)
    | none => ((place? theme line).toList ++ below.1, below.2)

/-- The headers are the lines that are shown for files. -/
theorem headerPath?_eq_some_iff :
    headerPath? theme line = some path ↔ line = fileHeader theme path := by
  rw [fileHeader, Style.paint_eq, ← String.toList_inj]
  simp only [headerPath?, Option.bind_eq_bind, Option.bind_eq_some_iff,
    List.isPrefixOf?_eq_some_iff_append_eq, List.isSuffixOf?_eq_some_iff_append_eq,
    String.toList_append]
  constructor
  · rintro ⟨behind, whole, inside, rfl, same⟩
    cases same
    simp only [← whole, String.toList_ofList, List.append_assoc]
  · intro whole
    refine ⟨path.toList ++ theme.header.closing.toList, ?_, path.toList, rfl, ?_⟩
    · simp only [whole, List.append_assoc]
    · rw [String.ofList_toList]
      rfl

theorem headerPath?_of_space (h : line.toList.head? = some ' ') :
    headerPath? theme line = none := by
  cases found : headerPath? theme line with
  | none => rfl
  | some path =>
    rw [headerPath?_eq_some_iff.1 found] at h
    simp [fileHeader] at h

theorem place?_of_toList (whole : ("  " ++ theme.location.opening).toList ++ behind = line.toList) :
    place? theme line =
      if (behind.takeWhile isPlaceChar).isEmpty then none
      else some (String.ofList (behind.takeWhile isPlaceChar)) := by
  rw [place?, List.isPrefixOf?_eq_some_iff_append_eq.2 whole]
  rfl

/-- A line that is indented further than a place has none. -/
theorem place?_of_spaces (h : ∃ rest, line.toList = ' ' :: ' ' :: ' ' :: rest) :
    place? theme line = none := by
  obtain ⟨rest, spaces⟩ := h
  cases found : ("  " ++ theme.location.opening).toList.isPrefixOf? line.toList with
  | none =>
    rw [place?, found]
    rfl
  | some behind =>
    have whole := List.isPrefixOf?_eq_some_iff_append_eq.1 found
    rw [place?_of_toList whole]
    rw [spaces] at whole
    -- Behind the two spaces stands a third one, or the attributes of a style would.
    cases style : theme.location with
    | nil =>
      rw [style] at whole
      obtain rfl : behind = ' ' :: rest := by simpa [Style.opening] using whole
      rfl
    | cons n ns =>
      obtain ⟨codes, escape⟩ := Style.toList_opening_cons n ns
      rw [style, String.toList_append, escape] at whole
      simp at whole

/-! ## The lines of a comment -/

/-- Behind the text of a place stands padding, the end of its attributes, or the next space. -/
theorem head?_padding (style : Style) (n : Nat) (rest : List Char) :
    (List.replicate n ' ' ++ (style.closing.toList ++ ' ' :: rest)).head?.all
      (!isPlaceChar ·) = true := by
  cases n with
  | succ n => rfl
  | zero =>
    cases style with
    | nil => rfl
    | cons n ns =>
      obtain ⟨codes, escape⟩ := Style.toList_closing_cons n ns
      rw [escape]
      rfl

/-- The line on which a comment starts has its place. -/
theorem place?_location (theme : Theme) (span : Span) (text : String) :
    place? theme ("  " ++ location theme span ++ " " ++ text) = some span.text := by
  have whole : ("  " ++ theme.location.opening).toList ++
      (span.text.toList ++ (List.replicate (spanWidth - span.text.length) ' ' ++
        (theme.location.closing.toList ++ ' ' :: text.toList))) =
      ("  " ++ location theme span ++ " " ++ text).toList := by
    simp [location, Style.paint_eq, padEnd]
  have shown : span.text.toList ≠ [] := by simp [Span.text]
  rw [place?_of_toList whole, span.takeWhile_text_append (head?_padding _ _ _)]
  simp [shown]

theorem headerPath?_of_mem_comment {span : Span} {prose : String}
    (h : line ∈ comment theme span prose) : headerPath? theme line = none := by
  rw [comment, List.mem_cons, List.mem_map] at h
  rcases h with rfl | ⟨text, -, rfl⟩
  · exact headerPath?_of_space (by simp)
  · exact headerPath?_of_space (by simp)

/-- A comment shows its place once, however many lines it has. -/
theorem filterMap_place?_comment (theme : Theme) (span : Span) (prose : String) :
    (comment theme span prose).filterMap (place? theme) = [span.text] := by
  have further : ∀ lines : List String,
      (lines.map fun line => "  " ++ padEnd spanWidth "" ++ " " ++ theme.text.paint line).filterMap
        (place? theme) = [] := by
    intro lines
    rw [List.filterMap_map, List.filterMap_eq_nil_iff]
    intro line _
    exact place?_of_spaces (by simp [padEnd, spanWidth, List.replicate_succ])
  rw [comment, List.filterMap_cons, place?_location, further]

/-! ## The lines of files -/

theorem sections_append_of_no_header {lines : List String}
    (h : ∀ line ∈ lines, headerPath? theme line = none) (more : List String) :
    sections theme (lines ++ more) =
      (lines.filterMap (place? theme) ++ (sections theme more).1, (sections theme more).2) := by
  induction lines with
  | nil => rfl
  | cons line lines ih =>
    have first := h line List.mem_cons_self
    have rest := ih fun other behind => h other (List.mem_cons_of_mem line behind)
    rw [List.cons_append, sections, List.filterMap_cons]
    simp only [first, rest]
    cases place? theme line with
    | none => rfl
    | some place => rfl

end Listing

end DocProse
