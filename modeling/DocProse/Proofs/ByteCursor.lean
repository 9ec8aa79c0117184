import DocProse.Proofs.LineLookup

/-!
# Reading along the bytes of a text

A cursor reads a text byte by byte.  The byte of a line feed takes it to the
start of the next line, and any other byte moves it on by one column.  This
gives a position to every offset, inside characters as well, and it is the
position that the line table gives (`position_ofChars_eq_behindBytes`).

The table meets the bytes in one place: an entry past zero is an offset right
behind the byte of a line feed (`succ_mem_starts_ofChars_iff`).  No other
character has that byte in its UTF-8 form (`newlineByte_mem_utf8EncodeChar`).
-/

namespace DocProse

namespace Text

/-! ## Bytes -/

/-- The byte of a line feed. -/
def newlineByte : UInt8 := '\n'.toUInt8

/-- The bytes of a text in UTF-8. -/
def bytes (cs : List Char) : List UInt8 := cs.flatMap String.utf8EncodeChar

theorem bytes_cons (c : Char) (cs : List Char) :
    bytes (c :: cs) = String.utf8EncodeChar c ++ bytes cs := List.flatMap_cons

theorem bytes_append (xs ys : List Char) : bytes (xs ++ ys) = bytes xs ++ bytes ys :=
  List.flatMap_append

theorem length_bytes (cs : List Char) : (bytes cs).length = byteSize cs := by
  induction cs with
  | nil => rfl
  | cons c cs ih =>
    rw [bytes_cons, List.length_append, String.length_utf8EncodeChar, ih, byteSize]

/-- The bytes that a string is stored as. -/
theorem toByteArray_toList (text : String) :
    text.toByteArray.data.toList = bytes text.toList := by
  rw [← String.utf8Encode_toList, List.utf8Encode, List.toList_data_toByteArray, bytes]

/-- Only the UTF-8 form of a line feed has its byte. -/
theorem newlineByte_mem_utf8EncodeChar {c : Char} :
    newlineByte ∈ String.utf8EncodeChar c ↔ c = '\n' := by
  constructor
  · intro membership
    have byte : newlineByte.toNat = 10 := rfl
    -- A form of several bytes has none below 128.
    have code : c.val.toNat = 10 := by
      simp only [String.utf8EncodeChar] at membership
      generalize c.val.toNat = v at membership ⊢
      repeat' split at membership
      all_goals
        simp only [List.mem_cons, List.not_mem_nil, or_false, ← UInt8.toNat_inj, byte,
          UInt8.toNat_ofNat'] at membership
        omega
    exact Char.ext (UInt32.toNat_inj.1 code)
  · rintro rfl
    decide

end Text

open Text

namespace LineTable

variable {t : LineTable} {offset s i : Nat} {c : Char} {cs : List Char}

/-! ## The table of a text -/

theorem startsAfterBreaks_newline (offset : Nat) (cs : List Char) :
    startsAfterBreaks offset ('\n' :: cs) =
      (offset + '\n'.utf8Size) :: startsAfterBreaks (offset + '\n'.utf8Size) cs := by
  rw [startsAfterBreaks]
  exact if_pos rfl

theorem startsAfterBreaks_of_ne (h : c ≠ '\n') (offset : Nat) (cs : List Char) :
    startsAfterBreaks offset (c :: cs) = startsAfterBreaks (offset + c.utf8Size) cs := if_neg h

/-- A line starts right behind each byte of a line feed. -/
theorem mem_startsAfterBreaks_iff :
    s ∈ startsAfterBreaks offset cs ↔
      ∃ i, (bytes cs)[i]? = some newlineByte ∧ s = offset + i + 1 := by
  induction cs generalizing offset with
  | nil => simp [startsAfterBreaks, bytes]
  | cons c cs ih =>
    by_cases newline : c = '\n'
    · subst newline
      rw [startsAfterBreaks_newline, List.mem_cons, ih]
      constructor
      · rintro (first | ⟨i, byte, rfl⟩)
        · exact ⟨0, rfl, first⟩
        · exact ⟨i + 1, byte, Nat.add_right_comm offset 1 (i + 1)⟩
      · rintro ⟨i, byte, rfl⟩
        cases i with
        | zero => exact .inl rfl
        | succ i => exact .inr ⟨i, byte, Nat.add_right_comm offset (i + 1) 1⟩
    · have none : newlineByte ∉ String.utf8EncodeChar c :=
        fun membership => newline (newlineByte_mem_utf8EncodeChar.1 membership)
      have size := String.length_utf8EncodeChar c
      rw [startsAfterBreaks_of_ne newline, ih]
      constructor
      · rintro ⟨i, byte, rfl⟩
        refine ⟨c.utf8Size + i, ?_, by omega⟩
        rw [bytes_cons, List.getElem?_append_right (by omega), size, Nat.add_sub_cancel_left]
        exact byte
      · rintro ⟨i, byte, rfl⟩
        rw [bytes_cons] at byte
        rcases Nat.lt_or_ge i c.utf8Size with inside | behind
        · rw [List.getElem?_append_left (by omega)] at byte
          exact absurd (List.mem_of_getElem? byte) none
        · rw [List.getElem?_append_right (by omega), size] at byte
          exact ⟨i - c.utf8Size, byte, by omega⟩

/-- Behind a line feed comes an offset past the start of the text. -/
theorem lt_of_mem_startsAfterBreaks (h : s ∈ startsAfterBreaks offset cs) : offset < s := by
  obtain ⟨i, -, rfl⟩ := mem_startsAfterBreaks_iff.1 h
  omega

theorem increasing_ofChars (cs : List Char) : (ofChars cs).Increasing := by
  have ordered : ∀ offset, (startsAfterBreaks offset cs).Pairwise (· < ·) := by
    induction cs with
    | nil => exact fun _ => .nil
    | cons c cs ih =>
      intro offset
      by_cases newline : c = '\n'
      · subst newline
        rw [startsAfterBreaks_newline]
        exact .cons (fun _ membership => lt_of_mem_startsAfterBreaks membership) (ih _)
      · rw [startsAfterBreaks_of_ne newline]
        exact ih _
  exact .cons (fun _ membership => lt_of_mem_startsAfterBreaks membership) (ordered 0)

theorem startsAtZero_ofChars (cs : List Char) : (ofChars cs).StartsAtZero := fun _ => rfl

theorem succ_mem_starts_ofChars_iff :
    i + 1 ∈ (ofChars cs).starts.toList ↔ (bytes cs)[i]? = some newlineByte := by
  have behind : i + 1 ∈ startsAfterBreaks 0 cs ↔
      ∃ j, (bytes cs)[j]? = some newlineByte ∧ i + 1 = 0 + j + 1 := mem_startsAfterBreaks_iff
  rw [ofChars, List.mem_cons, behind]
  constructor
  · rintro (zero | ⟨j, byte, same⟩)
    · cases zero
    · have equal : i = j := by omega
      exact equal ▸ byte
  · intro byte
    exact .inr ⟨i, byte, by omega⟩

/-! ## One offset further -/

/-- The next offset starts a line or is one column further. -/
theorem position_succ (increasing : t.Increasing) (nonempty : 0 < t.starts.size)
    (zero : t.StartsAtZero) (offset : Nat) :
    t.position (offset + 1) =
      if offset + 1 ∈ t.starts.toList then ⟨(t.position offset).line + 1, 0⟩
      else ⟨(t.position offset).line, (t.position offset).column + 1⟩ := by
  by_cases start : offset + 1 ∈ t.starts.toList
  · rw [if_pos start]
    obtain ⟨j, bound, entry⟩ := List.getElem_of_mem start
    simp only [Array.length_toList, Array.getElem_toList] at bound entry
    cases j with
    | zero =>
      have := zero bound
      omega
    | succ k =>
      -- The offset itself belongs to the entry before.
      have before : t.starts[k] < t.starts[k + 1] := increasing.lt (Nat.lt_succ_self k) bound
      have here : t.position offset = ⟨k + 1, offset - t.starts[k]⟩ :=
        position_eq increasing (Nat.lt_of_succ_lt bound) (by omega) (fun _ => by omega)
      have last : ∀ (_ : k + 1 + 1 < t.starts.size), offset + 1 < t.starts[k + 1 + 1] := by
        intro inside
        have further : t.starts[k + 1] < t.starts[k + 1 + 1] := increasing.lt (by omega) inside
        omega
      rw [position_eq increasing bound (by omega) last, here, entry, Nat.sub_self]
  · rw [if_neg start]
    obtain ⟨k, bound, found, before, behind⟩ := exists_position increasing nonempty zero offset
    have last : ∀ (_ : k + 1 < t.starts.size), offset + 1 < t.starts[k + 1] := by
      intro inside
      have later := behind inside
      have different : t.starts[k + 1] ≠ offset + 1 := by
        intro same
        exact start (same ▸ Array.getElem_mem_toList inside)
      omega
    rw [position_eq increasing bound (by omega) last, found, Nat.sub_add_comm before]

end LineTable

/-! ## The cursor -/

/-- The position behind a byte that is at a position. -/
def Position.step (p : Position) (b : UInt8) : Position :=
  if b = newlineByte then ⟨p.line + 1, 0⟩ else ⟨p.line, p.column + 1⟩

/-- The position behind some bytes, read from the start of a text. -/
def Position.behindBytes (bs : List UInt8) : Position := bs.foldl Position.step Position.first

/-- Bytes without a line feed move the cursor along its line. -/
theorem foldl_step_of_not_mem {line : List UInt8} (h : newlineByte ∉ line) (p : Position) :
    line.foldl Position.step p = ⟨p.line, p.column + line.length⟩ := by
  induction line generalizing p with
  | nil => rfl
  | cons b line ih =>
    rw [List.mem_cons, not_or] at h
    have stepped : p.step b = ⟨p.line, p.column + 1⟩ := if_neg (Ne.symm h.1)
    rw [List.foldl_cons, stepped, ih h.2, List.length_cons, Nat.add_assoc, Nat.add_comm 1]

/-- The table of a text gives an offset the position of the cursor behind the bytes before it. -/
theorem LineTable.position_ofChars_eq_behindBytes {cs : List Char} {offset : Nat}
    (inText : offset ≤ (bytes cs).length) :
    (ofChars cs).position offset = Position.behindBytes ((bytes cs).take offset) := by
  induction offset with
  | zero => exact position_zero (increasing_ofChars cs)
  | succ offset ih =>
    have bound : offset < (bytes cs).length := inText
    have start : offset + 1 ∈ (ofChars cs).starts.toList ↔ (bytes cs)[offset] = newlineByte := by
      rw [succ_mem_starts_ofChars_iff, List.getElem?_eq_getElem bound, Option.some.injEq]
    rw [position_succ (increasing_ofChars cs) (Nat.succ_pos _) (startsAtZero_ofChars cs),
      ih (Nat.le_of_succ_le inText), List.take_succ_eq_append_getElem bound,
      Position.behindBytes, Position.behindBytes, List.foldl_append, List.foldl_cons,
      List.foldl_nil, Position.step]
    simp only [start]

end DocProse
