import DocProse.Proofs.ByteCursor
import DocProse.Proofs.Pieces
import Mathlib.Data.Set.Function

/-!
# Offsets and positions

The offsets of a text, from zero up to its size, and the places in its lines
correspond one to one (`position_bijOn`).  A place is the number of a line with
a column up to the size of the line.  The lines are the pieces between the bytes
of line feeds, so a text has as many of them as its table has entries.

Both ways go through the bytes before an offset.  Cut into pieces they are some
whole lines and the start of the next one, and the cursor behind them is told by
the number of these lines and by the size of that start (`behindBytes_eq`).
-/

namespace DocProse

open Text

/-! ## The cursor behind pieces -/

/-- A cursor at the start of a line that reads whole lines and the start of one more. -/
theorem foldl_step_intercalate {ls : List (List UInt8)} {l : List UInt8}
    (whole : ∀ p ∈ ls ++ [l], newlineByte ∉ p) (line : Nat) :
    ([newlineByte].intercalate (ls ++ [l])).foldl Position.step ⟨line, 0⟩ =
      ⟨line + ls.length, l.length⟩ := by
  induction ls generalizing line with
  | nil =>
    rw [List.nil_append, List.intercalate_singleton, foldl_step_of_not_mem (whole l (by simp)),
      Nat.zero_add]
    rfl
  | cons p ls ih =>
    have first : newlineByte ∉ p := whole p List.mem_cons_self
    have rest := ih (fun q inside => whole q (List.mem_cons_of_mem _ inside)) (line + 1)
    have next : Position.step ⟨line, 0 + p.length⟩ newlineByte = ⟨line + 1, 0⟩ := if_pos rfl
    rw [List.cons_append, List.intercalate_cons_of_ne_nil (by simp), List.foldl_append,
      List.foldl_append, foldl_step_of_not_mem first, List.foldl_cons, List.foldl_nil, next, rest,
      List.length_cons, Nat.add_assoc, Nat.add_comm 1]

/-- The cursor behind some bytes: the whole lines before it, and the bytes before it in its
line. -/
theorem behindBytes_eq {xs : List UInt8} {ls : List (List UInt8)} {l : List UInt8}
    (cut : xs.splitOn newlineByte = ls ++ [l]) :
    Position.behindBytes xs = ⟨ls.length + 1, l.length⟩ := by
  have joined : xs = [newlineByte].intercalate (ls ++ [l]) := by
    rw [← cut, List.intercalate_splitOn]
  have whole : ∀ p ∈ ls ++ [l], newlineByte ∉ p := fun p inside =>
    not_mem_of_mem_splitOn (l := xs) (by rwa [cut])
  rw [joined, Position.behindBytes, Position.first, foldl_step_intercalate whole, Nat.add_comm]

/-- A cursor counts the line feeds. -/
theorem line_foldl_step (p : Position) (xs : List UInt8) :
    (xs.foldl Position.step p).line = p.line + xs.count newlineByte := by
  induction xs generalizing p with
  | nil => rfl
  | cons b xs ih =>
    rw [List.foldl_cons, ih, List.count_cons, Position.step]
    by_cases newline : b = newlineByte
    · simp [newline]
      omega
    · simp [newline]

theorem line_behindBytes (xs : List UInt8) :
    (Position.behindBytes xs).line = xs.count newlineByte + 1 := by
  rw [Position.behindBytes, line_foldl_step, Nat.add_comm]
  rfl

/-- There is one piece more than there are line feeds. -/
theorem length_splitOn (xs : List UInt8) :
    (xs.splitOn newlineByte).length = xs.count newlineByte + 1 := by
  obtain ⟨ls, l, cut⟩ := exists_splitOn_concat newlineByte xs
  rw [← line_behindBytes, behindBytes_eq cut, cut, List.length_append]
  rfl

namespace LineTable

variable {cs : List Char} {offset : Nat}

/-! ## Offsets and places -/

/-- The places in lines: the number of a line and a column up to its size. -/
def places (lines : List (List UInt8)) : Set Position :=
  {p | 1 ≤ p.line ∧ ∃ line, lines[p.line - 1]? = some line ∧ p.column ≤ line.length}

/-- A table has an entry for each piece. -/
theorem size_ofChars (cs : List Char) :
    (ofChars cs).starts.size = ((bytes cs).splitOn newlineByte).length := by
  have last : ∀ s ∈ (ofChars cs).starts, s ≤ (bytes cs).length := by
    intro s membership
    cases s with
    | zero => exact Nat.zero_le _
    | succ i =>
      have byte := succ_mem_starts_ofChars_iff.1 (Array.mem_toList_iff.2 membership)
      exact (List.getElem?_eq_some_iff.1 byte).1
  rw [← line_position_of_forall_le (increasing_ofChars cs) (Nat.succ_pos _)
      (startsAtZero_ofChars cs) last,
    position_ofChars_eq_behindBytes (Nat.le_refl _), List.take_length, line_behindBytes,
    length_splitOn]

/-- The position of an offset is a place in the lines. -/
theorem position_mapsTo (cs : List Char) :
    Set.MapsTo (ofChars cs).position {offset | offset ≤ (bytes cs).length}
      (places ((bytes cs).splitOn newlineByte)) := by
  intro offset inText
  obtain ⟨ls, l, before⟩ := exists_splitOn_concat newlineByte ((bytes cs).take offset)
  obtain ⟨r, rs, behind⟩ :=
    List.exists_cons_of_ne_nil (List.splitOn_ne_nil newlineByte ((bytes cs).drop offset))
  have whole := splitOn_append before behind
  rw [List.take_append_drop] at whole
  rw [position_ofChars_eq_behindBytes inText, behindBytes_eq before, whole]
  refine ⟨Nat.succ_pos _, l ++ r, ?_, ?_⟩
  · simp
  · simp

/-- Every place in the lines is the position of an offset. -/
theorem position_surjOn (cs : List Char) :
    Set.SurjOn (ofChars cs).position {offset | offset ≤ (bytes cs).length}
      (places ((bytes cs).splitOn newlineByte)) := by
  rintro ⟨line, column⟩ ⟨positive, l, found, inLine⟩
  obtain ⟨k, rfl⟩ : ∃ k, line = k + 1 := ⟨line - 1, by simp at positive; omega⟩
  simp only [Nat.add_sub_cancel] at found inLine
  obtain ⟨bound, entry⟩ := List.getElem?_eq_some_iff.1 found
  have pieces : (bytes cs).splitOn newlineByte =
      ((bytes cs).splitOn newlineByte).take k ++
        (l.take column ++ l.drop column) :: ((bytes cs).splitOn newlineByte).drop (k + 1) := by
    rw [List.take_append_drop, ← entry, ← List.drop_eq_getElem_cons bound, List.take_append_drop]
  -- The offset is the number of bytes before the place.
  obtain ⟨before, behind, whole, cut⟩ := exists_cut_of_splitOn pieces
  have inText : before.length ≤ (bytes cs).length := by
    rw [whole, List.length_append]
    omega
  refine ⟨before.length, inText, ?_⟩
  have above : (((bytes cs).splitOn newlineByte).take k).length = k := by
    rw [List.length_take]
    omega
  rw [position_ofChars_eq_behindBytes inText, whole, List.take_left, behindBytes_eq cut, above,
    List.length_take, Nat.min_eq_left inLine]

/-- The offsets of a text, up to its size, correspond to the places in its lines: the line counts
the line feeds before the offset, and the column is what is left behind the entry of the line. -/
theorem position_bijOn (text : String) :
    let bytes := text.toByteArray.data.toList
    let lines := bytes.splitOn '\n'.toUInt8
    let table := ofText text
    lines.length = table.starts.size ∧
    Set.BijOn table.position {offset | offset ≤ text.utf8ByteSize} (places lines) ∧
    ∀ offset ≤ text.utf8ByteSize,
      (table.position offset).line - 1 = (bytes.take offset).count '\n'.toUInt8 ∧
      ∃ start, table.starts[(table.position offset).line - 1]? = some start ∧
        start + (table.position offset).column = offset := by
  have size : text.utf8ByteSize = (bytes text.toList).length := by
    rw [utf8ByteSize_eq, length_bytes]
  simp only [toByteArray_toList, size]
  have increasing := increasing_ofChars text.toList
  have zero := startsAtZero_ofChars text.toList
  have injOn : Set.InjOn (ofText text).position {offset | offset ≤ (bytes text.toList).length} :=
    fun _ _ _ _ same => position_injective increasing zero same
  refine ⟨(size_ofChars text.toList).symm,
    ⟨position_mapsTo text.toList, injOn, position_surjOn text.toList⟩, ?_⟩
  intro offset inText
  refine ⟨?_, entry_add_column increasing (Nat.succ_pos _) zero offset⟩
  rw [ofText, position_ofChars_eq_behindBytes inText, line_behindBytes, Nat.add_sub_cancel]
  rfl

/-- An offset inside the character of the second line. -/
theorem position_bijOn_insideCharacter :
    3 ≤ "a\né".utf8ByteSize ∧ ((ofText "a\né").position 3).line - 1 = 1 ∧
      ∃ start, (ofText "a\né").starts[((ofText "a\né").position 3).line - 1]? = some start ∧
        start + ((ofText "a\né").position 3).column = 3 := by
  have inText : 3 ≤ "a\né".utf8ByteSize := by decide
  have before : ("a\né".toByteArray.data.toList.take 3).count '\n'.toUInt8 = 1 := by decide
  obtain ⟨-, -, found⟩ := position_bijOn "a\né"
  obtain ⟨line, column⟩ := found 3 inText
  exact ⟨inText, line.trans before, column⟩

end LineTable

end DocProse
