import DocProse.LineTable

/-!
# Looking offsets up

Bisection finds where the entries past an offset begin (`bisect_spec`).  So the
position of an offset is given by the last entry at or before it, and by the
offset itself when there is none (`position_cases`).  In a table in order that
entry is the only one with the next one past the offset (`position_eq`).

In a table that starts at zero an offset can be found again from its position
(`entry_add_column`), so that no two have the same (`position_injective`).
Offsets in order have positions in order then (`position_mono`).
-/

namespace DocProse.LineTable

variable {t : LineTable} {a b offset : Nat}

/-! ## Entries in order -/

theorem Increasing.lt (h : t.Increasing) {i j : Nat} (less : i < j) (bound : j < t.starts.size) :
    t.starts[i] < t.starts[j] := by
  have pairs := List.pairwise_iff_getElem.1 h i j
    (by simpa using Nat.lt_trans less bound) (by simpa using bound) less
  simpa using pairs

theorem Increasing.le (h : t.Increasing) {i j : Nat} (least : i ≤ j)
    (bound : j < t.starts.size) : t.starts[i] ≤ t.starts[j] := by
  rcases Nat.lt_or_eq_of_le least with less | equal
  · exact Nat.le_of_lt (h.lt less bound)
  · subst equal
    exact Nat.le_refl _

/-! ## Bisection -/

/-- Bisection ends where the entries past the offset begin, when it starts with all entries below
its range at or before the offset and all entries above it past the offset. -/
theorem bisect_spec (increasing : t.Increasing) {lo hi : Nat} {hi_le : hi ≤ t.starts.size}
    (lo_le : lo ≤ hi)
    (before : ∀ i (_ : i < t.starts.size), i < lo → t.starts[i] ≤ offset)
    (behind : ∀ i (_ : i < t.starts.size), hi ≤ i → offset < t.starts[i]) :
    (∀ i (_ : i < t.starts.size), i < bisect t.starts offset lo hi hi_le →
      t.starts[i] ≤ offset) ∧
    (∀ i (_ : i < t.starts.size), bisect t.starts offset lo hi hi_le ≤ i →
      offset < t.starts[i]) := by
  fun_induction bisect t.starts offset lo hi hi_le with
  | case1 lo hi hi_le nonempty mid inside found ih =>
    -- The middle entry and all below it are at or before the offset.
    refine ih (by omega) ?_ behind
    intro i bound below
    have upToMid : t.starts[i] ≤ t.starts[mid] := increasing.le (by omega) inside
    omega
  | case2 lo hi hi_le nonempty mid inside missed ih =>
    -- The middle entry and all above it are past the offset.
    refine ih (by omega) before ?_
    intro i bound above
    have fromMid : t.starts[mid] ≤ t.starts[i] := increasing.le above bound
    omega
  | case3 lo hi hi_le empty =>
    have equal : lo = hi := by omega
    subst equal
    exact ⟨before, behind⟩

/-- The counted entries are at or before the offset, and the others are past it. -/
theorem entriesUpTo_spec (increasing : t.Increasing) (offset : Nat) :
    (∀ i (_ : i < t.starts.size), i < t.entriesUpTo offset → t.starts[i] ≤ offset) ∧
    (∀ i (_ : i < t.starts.size), t.entriesUpTo offset ≤ i → offset < t.starts[i]) :=
  bisect_spec increasing (Nat.zero_le _) (fun _ _ below => absurd below (Nat.not_lt_zero _))
    (fun _ bound above => absurd bound (Nat.not_lt.2 above))

/-! ## Positions -/

/-- Either all entries are past the offset, and its position is the offset on line one, or the
position is given by the last entry at or before the offset. -/
theorem position_cases (increasing : t.Increasing) (offset : Nat) :
    (t.position offset = ⟨1, offset⟩ ∧
      ∀ i (_ : i < t.starts.size), offset < t.starts[i]) ∨
    ∃ k, ∃ (_ : k < t.starts.size),
      t.position offset = ⟨k + 1, offset - t.starts[k]⟩ ∧ t.starts[k] ≤ offset ∧
        ∀ (_ : k + 1 < t.starts.size), offset < t.starts[k + 1] := by
  obtain ⟨before, behind⟩ := entriesUpTo_spec increasing offset
  rw [position]
  split
  · next none =>
    left
    refine ⟨rfl, ?_⟩
    intro i bound
    exact behind i bound (by omega)
  · next k counted =>
    right
    have bound : k < t.starts.size := by
      have := t.entriesUpTo_le offset
      omega
    refine ⟨k, bound, rfl, before k bound (by omega), ?_⟩
    intro next
    exact behind (k + 1) next (by omega)

/-- The last entry at or before an offset gives its position. -/
theorem position_eq (increasing : t.Increasing) {k : Nat} (bound : k < t.starts.size)
    (before : t.starts[k] ≤ offset)
    (behind : ∀ (_ : k + 1 < t.starts.size), offset < t.starts[k + 1]) :
    t.position offset = ⟨k + 1, offset - t.starts[k]⟩ := by
  rcases position_cases increasing offset with ⟨-, past⟩ | ⟨l, bound', found, before', behind'⟩
  · have := past k bound
    omega
  · -- Of two such entries neither can come first.
    have same : l = k := by
      rcases Nat.lt_trichotomy l k with less | equal | more
      · have next : l + 1 < t.starts.size := by omega
        have upToK : t.starts[l + 1] ≤ t.starts[k] := increasing.le less bound
        have := behind' next
        omega
      · exact equal
      · have next : k + 1 < t.starts.size := by omega
        have upToL : t.starts[k + 1] ≤ t.starts[l] := increasing.le more bound'
        have := behind next
        omega
    subst same
    exact found

/-- The start of a text is the first position, wherever the first entry is. -/
theorem position_zero (increasing : t.Increasing) : t.position 0 = Position.first := by
  rcases position_cases increasing 0 with ⟨found, -⟩ | ⟨k, bound, found, before, -⟩
  · exact found
  · -- No entry can come before one that is at zero.
    have first : k = 0 := by
      rcases Nat.eq_zero_or_pos k with first | later
      · exact first
      · have := increasing.lt later bound
        omega
    subst first
    rw [found, Nat.zero_sub]
    rfl

/-! ## Order -/

/-- A table that starts at zero, if it has entries. -/
def StartsAtZero (t : LineTable) : Prop := ∀ (_ : 0 < t.starts.size), t.starts[0] = 0

/-- In a table that starts at zero, every position is given by an entry. -/
theorem exists_position (increasing : t.Increasing) (nonempty : 0 < t.starts.size)
    (zero : t.StartsAtZero) (offset : Nat) :
    ∃ k, ∃ (_ : k < t.starts.size),
      t.position offset = ⟨k + 1, offset - t.starts[k]⟩ ∧ t.starts[k] ≤ offset ∧
        ∀ (_ : k + 1 < t.starts.size), offset < t.starts[k + 1] := by
  rcases position_cases increasing offset with ⟨-, past⟩ | found
  · have first := past 0 nonempty
    have := zero nonempty
    omega
  · exact found

/-- An offset that no entry is past is in the last line. -/
theorem line_position_of_forall_le (increasing : t.Increasing) (nonempty : 0 < t.starts.size)
    (zero : t.StartsAtZero) (last : ∀ s ∈ t.starts, s ≤ offset) :
    (t.position offset).line = t.starts.size := by
  obtain ⟨k, bound, found, -, behind⟩ := exists_position increasing nonempty zero offset
  have noNext : ¬ k + 1 < t.starts.size := by
    intro next
    have := behind next
    have := last t.starts[k + 1] (Array.getElem_mem next)
    omega
  have line : (t.position offset).line = k + 1 := by rw [found]
  omega

/-- In a table that starts at zero, an offset is found behind the entry of its line. -/
theorem entry_add_column (increasing : t.Increasing) (nonempty : 0 < t.starts.size)
    (zero : t.StartsAtZero) (offset : Nat) :
    ∃ start, t.starts[(t.position offset).line - 1]? = some start ∧
      start + (t.position offset).column = offset := by
  obtain ⟨k, bound, found, before, -⟩ := exists_position increasing nonempty zero offset
  refine ⟨t.starts[k], ?_, ?_⟩
  · rw [found, Nat.add_sub_cancel, Array.getElem?_eq_getElem bound]
  · rw [found, Nat.add_sub_cancel' before]

/-- Offsets with the same position are the same. -/
theorem position_injective (increasing : t.Increasing) (zero : t.StartsAtZero)
    (same : t.position a = t.position b) : a = b := by
  rcases Nat.eq_zero_or_pos t.starts.size with empty | nonempty
  · have onLineOne (offset : Nat) : t.position offset = ⟨1, offset⟩ := by
      rcases position_cases increasing offset with ⟨found, -⟩ | ⟨k, bound, -⟩
      · exact found
      · omega
    rw [onLineOne, onLineOne] at same
    exact congrArg Position.column same
  · obtain ⟨start, entry, sum⟩ := entry_add_column increasing nonempty zero a
    obtain ⟨start', entry', sum'⟩ := entry_add_column increasing nonempty zero b
    rw [← same] at entry' sum'
    have equal : start = start' := Option.some.inj (entry.symm.trans entry')
    omega

/-- Offsets in order have positions in order. -/
theorem position_mono (increasing : t.Increasing) (zero : t.StartsAtZero) (h : a ≤ b) :
    t.position a ≤ t.position b := by
  rw [Position.le_def]
  rcases position_cases increasing a with ⟨atA, past⟩ | ⟨k, boundK, atA, beforeA, -⟩
  · -- The first entry is not past any offset, so there is none.
    have empty : t.starts.size = 0 := by
      rcases Nat.eq_zero_or_pos t.starts.size with none | some
      · exact none
      · have := past 0 some
        have := zero some
        omega
    rcases position_cases increasing b with ⟨atB, -⟩ | ⟨l, boundL, -⟩
    · rw [atA, atB]
      exact .inr ⟨rfl, h⟩
    · omega
  · rcases position_cases increasing b with ⟨-, past⟩ | ⟨l, boundL, atB, -, behindB⟩
    · have := past k boundK
      omega
    · rw [atA, atB]
      rcases Nat.lt_trichotomy k l with less | equal | more
      · exact .inl (Nat.succ_lt_succ less)
      · subst equal
        exact .inr ⟨rfl, Nat.sub_le_sub_right h _⟩
      · have next : l + 1 < t.starts.size := by omega
        have upToK : t.starts[l + 1] ≤ t.starts[k] := increasing.le more boundK
        have := behindB next
        omega

end DocProse.LineTable
