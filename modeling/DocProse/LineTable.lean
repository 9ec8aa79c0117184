import DocProse.Position
import DocProse.Text.Bytes
import DocProse.Text.Lines

/-!
# Line tables

A line table lists the byte offsets at which the lines of a text start, in
strictly increasing order.  The line of an offset is the number of entries at
or before it, found by bisection, and its column is what is left after the last
of these entries.  Offsets before the first entry count as line one, with the
offset itself as the column.

A table is made of a text, or of entries that come from elsewhere and are checked
to be in order (`ofStarts?`).

`countUpTo` is the same number by a linear count.  `endPosition` computes the
position behind a text without a table, from the pieces between its line breaks.
-/

namespace DocProse

open Text

/-- The offsets at which lines start. -/
structure LineTable where
  /-- The offsets, in order. -/
  starts : Array Nat
  deriving DecidableEq, Repr, Inhabited

namespace LineTable

/-- A table is in order when each entry is below all that follow. -/
def Increasing (t : LineTable) : Prop := t.starts.toList.Pairwise (· < ·)

instance (t : LineTable) : Decidable t.Increasing :=
  inferInstanceAs (Decidable (List.Pairwise _ _))

/-! ## Entries from elsewhere -/

/-- Whether each entry is below the one behind it. -/
def isAscending : List Nat → Bool
  | a :: b :: rest => a < b && isAscending (b :: rest)
  | _ => true

/-- The table of entries that were made elsewhere.  It takes none that are out of order. -/
def ofStarts? (starts : Array Nat) : Option LineTable :=
  if isAscending starts.toList then some ⟨starts⟩ else none

/-! ## The table of a text -/

/-- The offsets behind the line feeds of a text that itself starts at `offset`. -/
def startsAfterBreaks (offset : Nat) : List Char → List Nat
  | [] => []
  | c :: cs =>
      let next := offset + c.utf8Size
      if c = '\n' then next :: startsAfterBreaks next cs else startsAfterBreaks next cs

/-- The table of a text: zero, and the offset behind each line feed. -/
def ofChars (cs : List Char) : LineTable := ⟨(0 :: startsAfterBreaks 0 cs).toArray⟩

/-- The table of a text. -/
def ofText (text : String) : LineTable := ofChars text.toList

/-! ## Looking an offset up -/

/-- The least index from `lo` up to `hi` whose entry is past `offset`, by halving the range. -/
def bisect (starts : Array Nat) (offset lo hi : Nat) (hi_le : hi ≤ starts.size) : Nat :=
  if h : lo < hi then
    let mid := (lo + hi) / 2
    have : mid < starts.size := by omega
    if starts[mid] ≤ offset then bisect starts offset (mid + 1) hi hi_le
    else bisect starts offset lo mid (by omega)
  else lo
termination_by hi - lo

/-- Bisection stays in its range. -/
theorem bisect_le {starts : Array Nat} {offset lo hi : Nat} {hi_le : hi ≤ starts.size}
    (lo_le : lo ≤ hi) : bisect starts offset lo hi hi_le ≤ hi := by
  fun_induction bisect starts offset lo hi hi_le with
  | case1 lo hi hi_le h mid _ _ ih => exact ih (by omega)
  | case2 lo hi hi_le h mid _ _ ih => have := ih (by omega); omega
  | case3 => exact lo_le

/-- The number of entries at or before an offset. -/
def entriesUpTo (t : LineTable) (offset : Nat) : Nat :=
  bisect t.starts offset 0 t.starts.size (Nat.le_refl _)

/-- There are no more of them than entries. -/
theorem entriesUpTo_le (t : LineTable) (offset : Nat) : t.entriesUpTo offset ≤ t.starts.size :=
  bisect_le (Nat.zero_le _)

/-- The number of entries at or before an offset, counted one by one. -/
def countUpTo (t : LineTable) (offset : Nat) : Nat := t.starts.toList.countP (· ≤ offset)

/-- The position of an offset. -/
def position (t : LineTable) (offset : Nat) : Position :=
  match h : t.entriesUpTo offset with
  | 0 => ⟨1, offset⟩
  | k + 1 =>
    have : k < t.starts.size := by have := t.entriesUpTo_le offset; omega
    ⟨k + 1, offset - t.starts[k]⟩

/-- The span between two offsets. -/
def span (t : LineTable) (start stop : Nat) : Span := ⟨t.position start, t.position stop⟩

end LineTable

/-! ## The end of a text -/

/-- The position behind the last character: the number of lines and the size of the last one. -/
def endOfChars (cs : List Char) : Position :=
  let ps := brokenPieces cs
  ⟨max ps.length 1, byteSize (ps.getLastD [])⟩

/-- The position behind the last character of a text. -/
def endPosition (text : String) : Position := endOfChars text.toList

end DocProse
