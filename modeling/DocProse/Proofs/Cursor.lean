import DocProse.Proofs.ByteCursor

/-!
# Reading along a text

A cursor may also read a text character by character.  A line feed takes it to
the start of the next line, and any other character moves it on by its bytes.
`behind` gives its position behind a text that it reads from the start.

It stands where the cursor over the bytes stands (`behindBytes_bytes`), and so
the line table gives the same positions: the offset between two parts of a text
is where the cursor stands behind the first (`position_ofChars_append`).  And so
does the count of line breaks (`endOfChars_eq_behind`).  A cursor knows of no
returns, so neither do these.
-/

namespace DocProse

open Text

/-- The position behind a character that starts at a position. -/
def Position.advance (p : Position) (c : Char) : Position :=
  if c = '\n' then ⟨p.line + 1, 0⟩ else ⟨p.line, p.column + c.utf8Size⟩

/-- The position behind a text, read from its start. -/
def Position.behind (cs : List Char) : Position := cs.foldl Position.advance Position.first

theorem Position.advance_newline (p : Position) : p.advance '\n' = ⟨p.line + 1, 0⟩ := if_pos rfl

theorem Position.advance_of_ne {c : Char} (h : c ≠ '\n') (p : Position) :
    p.advance c = ⟨p.line, p.column + c.utf8Size⟩ := if_neg h

/-! ## Cursor and bytes -/

/-- A cursor reads a character like its bytes. -/
theorem foldl_step_utf8EncodeChar (p : Position) (c : Char) :
    (String.utf8EncodeChar c).foldl Position.step p = p.advance c := by
  by_cases newline : c = '\n'
  · subst newline
    rw [Position.advance_newline]
    rfl
  · have none : newlineByte ∉ String.utf8EncodeChar c :=
      fun membership => newline (newlineByte_mem_utf8EncodeChar.1 membership)
    rw [Position.advance_of_ne newline, foldl_step_of_not_mem none, String.length_utf8EncodeChar]

theorem behindBytes_bytes (cs : List Char) :
    Position.behindBytes (bytes cs) = Position.behind cs := by
  rw [Position.behindBytes, Position.behind]
  generalize Position.first = p
  induction cs generalizing p with
  | nil => rfl
  | cons c cs ih =>
    rw [bytes_cons, List.foldl_append, foldl_step_utf8EncodeChar, ih, List.foldl_cons]

namespace LineTable

/-- The offset between two parts of a text has the position of the cursor behind the first. -/
theorem position_ofChars_append (xs ys : List Char) :
    (ofChars (xs ++ ys)).position (byteSize xs) = Position.behind xs := by
  have inText : (bytes xs).length ≤ (bytes (xs ++ ys)).length := by
    rw [bytes_append, List.length_append]
    omega
  rw [← length_bytes, position_ofChars_eq_behindBytes inText, bytes_append, List.take_left,
    behindBytes_bytes]

theorem position_byteSize (cs : List Char) :
    (ofChars cs).position (byteSize cs) = Position.behind cs := by
  have whole := position_ofChars_append cs []
  rwa [List.append_nil] at whole

end LineTable

/-! ## Cursor and line breaks -/

/-- Pieces read from the start of the next line. -/
theorem position_next_line (line : Nat) (q : List Char) (qs : List (List Char)) :
    (if qs = [] then ⟨line + 1, 0 + byteSize q⟩
      else ⟨line + 1 + qs.length, byteSize (qs.getLastD [])⟩ : Position) =
      ⟨line + (q :: qs).length, byteSize ((q :: qs).getLastD [])⟩ := by
  cases qs with
  | nil => simp
  | cons r rs => simp [Nat.add_assoc, Nat.add_comm 1]

/-- A cursor that reads on.  Without a line break it stays in its line, and otherwise its column
is the size of the last piece. -/
theorem foldl_advance_brokenPieces (p : Position) (cs : List Char) :
    ∃ q qs, brokenPieces cs = q :: qs ∧
      cs.foldl Position.advance p =
        if qs = [] then ⟨p.line, p.column + byteSize q⟩
        else ⟨p.line + qs.length, byteSize (qs.getLastD [])⟩ := by
  fun_induction brokenPieces cs generalizing p with
  | case1 => exact ⟨[], [], rfl, rfl⟩
  | case2 cs ih =>
    obtain ⟨q, qs, cut, read⟩ := ih ⟨p.line + 1, 0⟩
    refine ⟨[], q :: qs, by rw [cut], ?_⟩
    have kept : (p.advance '\r').line = p.line := by
      rw [Position.advance_of_ne (by decide)]
    rw [List.foldl_cons, List.foldl_cons, Position.advance_newline, kept, read,
      if_neg (List.cons_ne_nil q qs)]
    exact position_next_line p.line q qs
  | case3 cs ih =>
    obtain ⟨q, qs, cut, read⟩ := ih ⟨p.line + 1, 0⟩
    refine ⟨[], q :: qs, by rw [cut], ?_⟩
    rw [List.foldl_cons, Position.advance_newline, read, if_neg (List.cons_ne_nil q qs)]
    exact position_next_line p.line q qs
  | case4 c cs _ newline ih =>
    obtain ⟨q, qs, cut, read⟩ := ih ⟨p.line, p.column + c.utf8Size⟩
    refine ⟨c :: q, qs, by rw [cut]; rfl, ?_⟩
    rw [List.foldl_cons, Position.advance_of_ne newline, read]
    cases qs with
    | nil => simp [byteSize, Nat.add_assoc]
    | cons r rs => simp

/-- The position behind a text, counted from its line breaks. -/
theorem endOfChars_eq_behind (cs : List Char) : endOfChars cs = Position.behind cs := by
  obtain ⟨q, qs, cut, read⟩ := foldl_advance_brokenPieces Position.first cs
  rw [endOfChars, cut, Position.behind, read]
  cases qs with
  | nil => simp [Position.first]
  | cons r rs => simp [Position.first, Nat.add_comm 1]

end DocProse
