import DocProse.Proofs.Concatenation
import DocProse.Proofs.Lines

/-!
# The style of line endings

A return before each line feed moves no position (`position_lineEndings`).  The
offsets behind a line feed grow by the returns before them, one for each line
feed, and with them grows the entry of the table that their line starts at.

A cursor that reads a return is one column further, and the line feed behind it
takes the cursor to where it would have gone without (`step_return_newline`).  So
it stands at the same position behind any bytes, with these returns or without
(`foldl_step_returnBytes`).  That holds for all bytes, those of returns that were
there before included.
-/

namespace DocProse

open Text

namespace Text

variable {bs : List UInt8}

/-- The byte of a return. -/
def returnByte : UInt8 := '\r'.toUInt8

/-- Bytes with that of a return before each line feed. -/
def returnBytes (bs : List UInt8) : List UInt8 :=
  bs.flatMap fun b => if b = newlineByte then [returnByte, newlineByte] else [b]

theorem returnBytes_append (xs ys : List UInt8) :
    returnBytes (xs ++ ys) = returnBytes xs ++ returnBytes ys := List.flatMap_append

theorem returnBytes_newline (bs : List UInt8) :
    returnBytes (newlineByte :: bs) = returnByte :: newlineByte :: returnBytes bs := rfl

theorem returnBytes_of_ne {b : UInt8} (h : b ≠ newlineByte) (bs : List UInt8) :
    returnBytes (b :: bs) = b :: returnBytes bs := by
  rw [returnBytes, List.flatMap_cons, if_neg h]
  rfl

theorem returnBytes_of_not_mem (h : newlineByte ∉ bs) : returnBytes bs = bs := by
  induction bs with
  | nil => rfl
  | cons b bs ih =>
    rw [List.mem_cons, not_or] at h
    rw [returnBytes_of_ne (Ne.symm h.1), ih h.2]

theorem length_returnBytes (bs : List UInt8) :
    (returnBytes bs).length = bs.length + bs.count newlineByte := by
  induction bs with
  | nil => rfl
  | cons b bs ih =>
    by_cases newline : b = newlineByte
    · subst newline
      rw [returnBytes_newline, List.count_cons_self]
      simp only [List.length_cons, ih]
      omega
    · rw [returnBytes_of_ne newline, List.count_cons_of_ne newline]
      simp only [List.length_cons, ih]
      omega

/-- What is put before the characters of line feeds is put before their bytes. -/
theorem bytes_withReturns (cs : List Char) : bytes (withReturns cs) = returnBytes (bytes cs) := by
  induction cs with
  | nil => rfl
  | cons c cs ih =>
    by_cases newline : c = '\n'
    · subst newline
      rw [withReturns_newline, bytes_cons, bytes_cons, bytes_cons, ih, returnBytes_append]
      rfl
    · have none : newlineByte ∉ String.utf8EncodeChar c :=
        fun membership => newline (newlineByte_mem_utf8EncodeChar.1 membership)
      rw [withReturns_of_ne newline, bytes_cons, bytes_cons, ih, returnBytes_append,
        returnBytes_of_not_mem none]

end Text

namespace Position

/-- A return before a line feed makes no difference behind it. -/
theorem step_return_newline (p : Position) :
    (p.step returnByte).step newlineByte = p.step newlineByte := by
  have sameLine : p.step returnByte = ⟨p.line, p.column + 1⟩ := step_of_ne (by decide) p
  rw [step_newline, step_newline, sameLine]

theorem foldl_step_returnBytes (p : Position) (bs : List UInt8) :
    (returnBytes bs).foldl step p = bs.foldl step p := by
  induction bs generalizing p with
  | nil => rfl
  | cons b bs ih =>
    by_cases newline : b = newlineByte
    · subst newline
      rw [returnBytes_newline, List.foldl_cons, List.foldl_cons, step_return_newline, ih,
        List.foldl_cons]
    · rw [returnBytes_of_ne newline, List.foldl_cons, ih, List.foldl_cons]

theorem behindBytes_returnBytes (bs : List UInt8) :
    behindBytes (returnBytes bs) = behindBytes bs := foldl_step_returnBytes first bs

end Position

variable {bs : List UInt8} {offset : Nat}

theorem endOfChars_withReturns (cs : List Char) : endOfChars (withReturns cs) = endOfChars cs := by
  rw [endOfChars_eq_behindBytes, endOfChars_eq_behindBytes, bytes_withReturns,
    Position.behindBytes_returnBytes]

/-- The bytes before an offset and those before the offset it becomes. -/
theorem take_returnBytes (inText : offset ≤ bs.length) :
    (returnBytes bs).take (offset + (bs.take offset).count newlineByte) =
      returnBytes (bs.take offset) := by
  have size : (returnBytes (bs.take offset)).length =
      offset + (bs.take offset).count newlineByte := by
    rw [length_returnBytes, List.length_take, Nat.min_eq_left inText]
  have whole : returnBytes bs = returnBytes (bs.take offset) ++ returnBytes (bs.drop offset) := by
    rw [← returnBytes_append, List.take_append_drop]
  rw [whole, ← size, List.take_left]

/-- The offset that an offset becomes is one of the text with returns. -/
theorem add_count_le_length_returnBytes (inText : offset ≤ bs.length) :
    offset + (bs.take offset).count newlineByte ≤ (returnBytes bs).length := by
  have before : (bs.take offset).count newlineByte ≤ bs.count newlineByte :=
    (List.take_sublist offset bs).count_le newlineByte
  rw [length_returnBytes]
  omega

namespace LineTable

/-- A return before each line feed of a text moves no position: each offset has the position that
it had, at the offset that the returns before it take it to, and so has the end of the text. -/
theorem position_lineEndings (text : String) :
    let returned := String.ofList (withReturns text.toList)
    (∀ offset ≤ text.utf8ByteSize,
      let moved := offset + (text.toByteArray.data.toList.take offset).count '\n'.toUInt8
      moved ≤ returned.utf8ByteSize ∧
        (ofText returned).position moved = (ofText text).position offset) ∧
    endPosition returned = endPosition text := by
  simp only [utf8ByteSize_eq, toByteArray_toList, ofText, endPosition, String.toList_ofList,
    ← length_bytes, bytes_withReturns]
  refine ⟨?_, endOfChars_withReturns _⟩
  intro offset inText
  have inReturned := add_count_le_length_returnBytes inText
  refine ⟨inReturned, ?_⟩
  rw [← bytes_withReturns] at inReturned
  rw [position_ofChars_eq_behindBytes inText, ← newlineByte,
    position_ofChars_eq_behindBytes inReturned, bytes_withReturns, take_returnBytes inText,
    Position.behindBytes_returnBytes]

/-- An offset inside a character, behind a line feed that had a return already. -/
theorem position_lineEndings_insideCharacter :
    5 ≤ "a\r\n\né".utf8ByteSize ∧
      (ofText (String.ofList (withReturns "a\r\n\né".toList))).position 7 =
        (ofText "a\r\n\né").position 5 ∧
      endPosition (String.ofList (withReturns "a\r\n\né".toList)) = endPosition "a\r\n\né" := by
  have inText : 5 ≤ "a\r\n\né".utf8ByteSize := by decide
  obtain ⟨positions, behind⟩ := position_lineEndings "a\r\n\né"
  exact ⟨inText, (positions 5 inText).2, behind⟩

end LineTable

end DocProse
