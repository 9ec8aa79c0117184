import DocProse.Proofs.LineLookup

/-!
# Counting entries

Bisection finds the number of entries at or before an offset without looking at
all of them.  In a table in order, wherever it starts, this is what counting them
one by one gives (`entriesUpTo_eq_countUpTo`), because the counted entries are
those in front: the table falls into a front at or before the offset and a back
past it (`exists_front`).

So the position of an offset can be said with the count alone
(`position_by_count`).  The last counted entry is there whenever one is counted,
it is not past the offset, and the entry behind it is.
-/

namespace DocProse.LineTable

variable {t : LineTable} {offset : Nat}

/-- A table in order is a front that is at or before an offset and a back that is past it. -/
theorem exists_front (increasing : t.Increasing) (offset : Nat) :
    ∃ front back, t.starts.toList = front ++ back ∧ front.length = t.entriesUpTo offset ∧
      (∀ s ∈ front, s ≤ offset) ∧ ∀ s ∈ back, offset < s := by
  obtain ⟨before, behind⟩ := entriesUpTo_spec increasing offset
  have inTable := t.entriesUpTo_le offset
  refine ⟨t.starts.toList.take (t.entriesUpTo offset), t.starts.toList.drop (t.entriesUpTo offset),
    (List.take_append_drop _ _).symm, ?_, ?_, ?_⟩
  · rw [List.length_take, Array.length_toList, Nat.min_eq_left inTable]
  · intro s membership
    obtain ⟨i, bound, rfl⟩ := List.mem_take_iff_getElem.1 membership
    rw [Array.getElem_toList]
    exact before i _ (by omega)
  · intro s membership
    obtain ⟨i, bound, rfl⟩ := List.mem_drop_iff_getElem.1 membership
    rw [Array.getElem_toList]
    exact behind _ _ (Nat.le_add_right _ i)

/-- Bisection counts the entries at or before an offset. -/
theorem entriesUpTo_eq_countUpTo (increasing : t.Increasing) (offset : Nat) :
    t.entriesUpTo offset = t.countUpTo offset := by
  obtain ⟨front, back, whole, size, before, behind⟩ := exists_front increasing offset
  have allOfFront : front.countP (· ≤ offset) = front.length :=
    List.countP_eq_length.2 fun s membership => decide_eq_true (before s membership)
  have noneOfBack : back.countP (· ≤ offset) = 0 :=
    List.countP_eq_zero.2 fun s membership => by simpa using behind s membership
  rw [countUpTo, whole, List.countP_append, allOfFront, noneOfBack, Nat.add_zero, size]

/-- An offset with no entry at or before it is on line one, with itself as the column.  Any other
offset is on the line whose number is the count of these entries: the last of them is in the table
and not past the offset, and what is left behind it is the column.  The entry after these, if the
table goes on, is past the offset.  The count is one by one, and bisection comes to the same. -/
theorem position_by_count (t : LineTable) (increasing : t.Increasing) (offset : Nat) :
    t.entriesUpTo offset = t.countUpTo offset ∧
    (t.countUpTo offset = 0 → t.position offset = ⟨1, offset⟩) ∧
    (0 < t.countUpTo offset → ∃ start, t.starts[t.countUpTo offset - 1]? = some start ∧
      start ≤ offset ∧ t.position offset = ⟨t.countUpTo offset, offset - start⟩) ∧
    ∀ next, t.starts[t.countUpTo offset]? = some next → offset < next := by
  have counted := entriesUpTo_eq_countUpTo increasing offset
  obtain ⟨before, behind⟩ := entriesUpTo_spec increasing offset
  have inTable := t.entriesUpTo_le offset
  rw [← counted]
  refine ⟨rfl, ?_, ?_, ?_⟩
  · intro noEntry
    rw [position]
    split
    · rfl
    · next k entries => omega
  · intro entries
    obtain ⟨k, last⟩ := Nat.exists_eq_add_one.2 entries
    have bound : k < t.starts.size := by omega
    have upTo : t.starts[k] ≤ offset := before k bound (by omega)
    have found : t.position offset = ⟨k + 1, offset - t.starts[k]⟩ :=
      position_eq increasing bound upTo fun next => behind (k + 1) next (by omega)
    rw [last, Nat.add_sub_cancel]
    exact ⟨t.starts[k], Array.getElem?_eq_getElem bound, upTo, found⟩
  · intro next there
    obtain ⟨bound, rfl⟩ := Array.getElem?_eq_some_iff.1 there
    exact behind _ bound (Nat.le_refl _)

/-- A table that does not start at zero and ends at the last offset of 64 bits. -/
def farTable : LineTable := ⟨#[4, 9, 18446744073709551615]⟩

/-- Offsets before the first entry, between two entries, and on the last entry. -/
theorem position_by_count_far :
    farTable.Increasing ∧ farTable.countUpTo 3 = 0 ∧ farTable.position 3 = ⟨1, 3⟩ ∧
    0 < farTable.countUpTo 18446744073709551614 ∧
    farTable.position 18446744073709551614 = ⟨2, 18446744073709551605⟩ ∧
    farTable.position 18446744073709551615 = ⟨3, 0⟩ := by
  have increasing : farTable.Increasing := by decide
  obtain ⟨-, onLineOne, -, -⟩ := position_by_count farTable increasing 3
  obtain ⟨-, -, onLineTwo, -⟩ := position_by_count farTable increasing 18446744073709551614
  obtain ⟨-, -, onLineThree, -⟩ := position_by_count farTable increasing 18446744073709551615
  have two : farTable.countUpTo 18446744073709551614 = 2 := by decide
  have three : farTable.countUpTo 18446744073709551615 = 3 := by decide
  obtain ⟨start, second, -, found⟩ := onLineTwo (by decide)
  obtain ⟨last, third, -, found'⟩ := onLineThree (by decide)
  rw [two] at second found
  rw [three] at third found'
  cases second
  cases third
  exact ⟨increasing, by decide, onLineOne (by decide), by decide, found, found'⟩

end DocProse.LineTable
