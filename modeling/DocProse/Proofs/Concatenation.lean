import DocProse.Proofs.Cursor

/-!
# Positions in a text of two parts

The position behind a text tells how far the text reaches, in lines and in bytes
of the last one.  When a second text follows, both reaches add up: one that stays
in its first line goes on in the last line of the other, and any other leaves
that line behind.

A cursor adds up in this way byte by byte (`Position.foldl_step_add`), and it
knows of no returns.  So positions compose also where a line break is cut in two
(`positions_compose`): offsets of the first text keep their positions, those of
the second are reached from the end of the first, and the span between two
offsets ends where the text between them reaches from its start.
-/

namespace DocProse

open Text

namespace Position

variable {p q : Position}

/-- The position that `q` tells from the start of a text, told from `p`. -/
instance : Add Position :=
  ⟨fun p q =>
    if q.line = 1 then ⟨p.line, p.column + q.column⟩ else ⟨p.line + q.line - 1, q.column⟩⟩

/-- In the first line of a text columns add up. -/
theorem add_one (p : Position) (column : Nat) : p + ⟨1, column⟩ = ⟨p.line, p.column + column⟩ :=
  if_pos rfl

/-- In a later line only lines do. -/
theorem add_later (p : Position) (line column : Nat) :
    p + ⟨line + 2, column⟩ = ⟨p.line + line + 1, column⟩ := if_neg (by simp)

theorem add_first (p : Position) : p + first = p := rfl

theorem step_newline (p : Position) : p.step newlineByte = ⟨p.line + 1, 0⟩ := if_pos rfl

theorem step_of_ne {b : UInt8} (h : b ≠ newlineByte) (p : Position) :
    p.step b = ⟨p.line, p.column + 1⟩ := if_neg h

theorem line_step_pos (h : 0 < q.line) (b : UInt8) : 0 < (q.step b).line := by
  rw [step]
  split
  · exact Nat.succ_pos _
  · exact h

/-- A cursor that reads on from a sum reads on in the second text. -/
theorem step_add (h : 0 < q.line) (p : Position) (b : UInt8) :
    (p + q).step b = p + q.step b := by
  obtain ⟨line, column⟩ := q
  by_cases newline : b = newlineByte
  · subst newline
    rw [step_newline, step_newline]
    match line, h with
    | 1, _ => rw [add_one, add_later p 0]
    | line + 2, _ => rw [add_later, add_later p (line + 1), Nat.add_assoc p.line]
  · rw [step_of_ne newline, step_of_ne newline]
    match line, h with
    | 1, _ => rw [add_one, add_one, Nat.add_assoc]
    | line + 2, _ => rw [add_later, add_later]

theorem foldl_step_add (h : 0 < q.line) (p : Position) (bs : List UInt8) :
    bs.foldl step (p + q) = p + bs.foldl step q := by
  induction bs generalizing q with
  | nil => rfl
  | cons b bs ih =>
    rw [List.foldl_cons, List.foldl_cons, step_add h, ih (line_step_pos h b)]

theorem behindBytes_append (xs ys : List UInt8) :
    behindBytes (xs ++ ys) = behindBytes xs + behindBytes ys := by
  have start := foldl_step_add (q := first) Nat.one_pos (behindBytes xs) ys
  rw [add_first] at start
  rw [behindBytes, List.foldl_append, ← behindBytes, start, ← behindBytes]

end Position

variable {xs ys : List Char} {offset : Nat}

theorem endOfChars_eq_behindBytes (cs : List Char) :
    endOfChars cs = Position.behindBytes (bytes cs) := by
  rw [endOfChars_eq_behind, behindBytes_bytes]

theorem endOfChars_append (xs ys : List Char) :
    endOfChars (xs ++ ys) = endOfChars xs + endOfChars ys := by
  simp only [endOfChars_eq_behindBytes, bytes_append, Position.behindBytes_append]

namespace LineTable

/-- An offset of the first text keeps its position. -/
theorem position_append_left (inText : offset ≤ byteSize xs) (ys : List Char) :
    (ofChars (xs ++ ys)).position offset = (ofChars xs).position offset := by
  rw [← length_bytes] at inText
  have inBoth : offset ≤ (bytes (xs ++ ys)).length := by
    rw [bytes_append, List.length_append]
    omega
  rw [position_ofChars_eq_behindBytes inBoth, position_ofChars_eq_behindBytes inText,
    bytes_append, List.take_append_of_le_length inText]

/-- An offset of the second text is reached from the end of the first. -/
theorem position_append_right (inText : offset ≤ byteSize ys) (xs : List Char) :
    (ofChars (xs ++ ys)).position (byteSize xs + offset) =
      endOfChars xs + (ofChars ys).position offset := by
  rw [← length_bytes] at inText
  have inBoth : (bytes xs).length + offset ≤ (bytes (xs ++ ys)).length := by
    rw [bytes_append, List.length_append]
    omega
  rw [← length_bytes xs, position_ofChars_eq_behindBytes inBoth,
    position_ofChars_eq_behindBytes inText, bytes_append, List.take_length_add_append,
    Position.behindBytes_append, endOfChars_eq_behindBytes]

/-- A span ends where the text in it reaches from its start. -/
theorem stop_span_eq {start stop : Nat} {cs part : List Char}
    (sliced : slice? start stop cs = some part) :
    ((ofChars cs).span start stop).stop =
      ((ofChars cs).span start stop).start + endOfChars part := by
  obtain ⟨before, behind, rfl, rfl, rfl⟩ := (slice?_eq_some_iff _ _ _ _).1 sliced
  have start : (ofChars (before ++ part ++ behind)).position (byteSize before) =
      Position.behind before := by
    rw [List.append_assoc, position_ofChars_append]
  rw [span, start, ← byteSize_append, position_ofChars_append, ← endOfChars_eq_behind,
    ← endOfChars_eq_behind, endOfChars_append]

end LineTable

open LineTable

/-- Positions compose when texts are put together, also where a return and the line feed behind it
come from different texts.  The position behind both texts is the sum of those behind each, an
offset of the first keeps its position, and one of the second has its own position, told from behind
the first.  So a span between two characters ends where the text in it reaches from its start. -/
theorem positions_compose (t s : String) :
    endPosition (t ++ s) = endPosition t + endPosition s ∧
    (∀ o ≤ t.utf8ByteSize, (ofText (t ++ s)).position o = (ofText t).position o) ∧
    (∀ o ≤ s.utf8ByteSize, (ofText (t ++ s)).position (t.utf8ByteSize + o) =
      endPosition t + (ofText s).position o) ∧
    ∀ a b, a ≤ b → IsBoundary a t.toList → IsBoundary b t.toList →
      ∃ part, slice? a b t.toList = some part ∧
        ((ofText t).span a b).stop =
          ((ofText t).span a b).start + endPosition (String.ofList part) := by
  simp only [endPosition, ofText, utf8ByteSize_eq, String.toList_append, String.toList_ofList]
  refine ⟨endOfChars_append _ _, ?_, ?_, ?_⟩
  · intro o inText
    exact position_append_left inText _
  · intro o inText
    exact position_append_right inText _
  · intro a b ordered first second
    obtain ⟨part, sliced⟩ := exists_slice? ordered first second
    exact ⟨part, sliced, stop_span_eq sliced⟩

/-- A line break cut in two, an offset inside a character, and a span over a line feed. -/
theorem positions_compose_cutBreak :
    endPosition ("a\r" ++ "\nbé") = endPosition "a\r" + endPosition "\nbé" ∧
    (1 ≤ "a\r".utf8ByteSize ∧ (ofText ("a\r" ++ "\nbé")).position 1 = (ofText "a\r").position 1) ∧
    (3 ≤ "\nbé".utf8ByteSize ∧ (ofText ("a\r" ++ "\nbé")).position ("a\r".utf8ByteSize + 3) =
      endPosition "a\r" + (ofText "\nbé").position 3) ∧
    IsBoundary 0 "\nbé".toList ∧ IsBoundary 2 "\nbé".toList ∧
      ∃ part, slice? 0 2 "\nbé".toList = some part ∧
        ((ofText "\nbé").span 0 2).stop =
          ((ofText "\nbé").span 0 2).start + endPosition (String.ofList part) := by
  have first : 1 ≤ "a\r".utf8ByteSize := by decide
  have second : 3 ≤ "\nbé".utf8ByteSize := by decide
  have start : IsBoundary 0 "\nbé".toList := ⟨[], "\nbé".toList, rfl, rfl⟩
  have stop : IsBoundary 2 "\nbé".toList := ⟨"\nb".toList, "é".toList, rfl, rfl⟩
  obtain ⟨ends, left, right, -⟩ := positions_compose "a\r" "\nbé"
  obtain ⟨-, -, -, spans⟩ := positions_compose "\nbé" ""
  exact ⟨ends, ⟨first, left 1 first⟩, ⟨second, right 3 second⟩, start, stop,
    spans 0 2 (by decide) start stop⟩

end DocProse
