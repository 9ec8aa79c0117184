import DocProse.Proofs.LineLookup

/-!
# The order of positions

Positions compare as their offsets do, for all offsets that fit into 64 bits,
exactly when the table has no entries or starts at zero (`compare_position_iff`).
In a table that starts further behind, the first entry shares its position with
the start of the text (`position_first_entry`).
-/

namespace DocProse

namespace Position

variable {p q : Position}

theorem compare_swap (p q : Position) : (p.compare q).swap = q.compare p := by
  rw [compare, compare, Ordering.swap_then, Nat.compare_swap, Nat.compare_swap]

theorem eq_of_compare_eq (h : p.compare q = .eq) : p = q := by
  obtain ⟨line, column⟩ := Ordering.then_eq_eq.1 h
  have sameLine : p.line = q.line := Nat.compare_eq_eq.1 line
  have sameColumn : p.column = q.column := Nat.compare_eq_eq.1 column
  cases p
  cases q
  subst sameLine
  subst sameColumn
  rfl

theorem compare_self (p : Position) : p.compare p = .eq :=
  Ordering.then_eq_eq.2 ⟨Nat.compare_eq_eq.2 rfl, Nat.compare_eq_eq.2 rfl⟩

end Position

namespace LineTable

variable {t : LineTable} {a b : Nat}

/-- Different offsets in order have positions that compare as less. -/
theorem compare_position_of_lt (increasing : t.Increasing) (zero : t.StartsAtZero) (h : a < b) :
    (t.position a).compare (t.position b) = .lt := by
  have notGreater : (t.position a).compare (t.position b) ≠ .gt :=
    Position.le_iff_compare.1 (position_mono increasing zero (Nat.le_of_lt h))
  cases order : (t.position a).compare (t.position b) with
  | lt => rfl
  | eq =>
    have same := position_injective increasing zero (Position.eq_of_compare_eq order)
    omega
  | gt => exact absurd order notGreater

/-- In a table that starts at zero, positions compare as offsets. -/
theorem compare_position (increasing : t.Increasing) (zero : t.StartsAtZero) (a b : Nat) :
    (t.position a).compare (t.position b) = compare a b := by
  rcases Nat.lt_trichotomy a b with less | equal | more
  · rw [compare_position_of_lt increasing zero less, Nat.compare_eq_lt.2 less]
  · subst equal
    rw [Position.compare_self, Nat.compare_eq_eq.2 rfl]
  · rw [← Position.compare_swap, compare_position_of_lt increasing zero more,
      Nat.compare_eq_gt.2 more]
    rfl

/-- The first entry has the position of the start of the text, wherever it is. -/
theorem position_first_entry (increasing : t.Increasing) (nonempty : 0 < t.starts.size) :
    t.position t.starts[0] = t.position 0 := by
  have behind : ∀ (_ : 0 + 1 < t.starts.size), t.starts[0] < t.starts[0 + 1] :=
    fun bound => increasing.lt (Nat.lt_succ_self 0) bound
  rw [position_zero increasing, position_eq increasing nonempty (Nat.le_refl _) behind,
    Nat.sub_self]
  rfl

/-- Positions compare as offsets of 64 bits do, by line and then by column, exactly when the table
has no entries or starts at zero.  Otherwise two offsets share a position. -/
theorem compare_position_iff (t : LineTable) (increasing : t.Increasing)
    (fits : ∀ s ∈ t.starts, s < UInt64.size) :
    ((∀ a b, a < UInt64.size → b < UInt64.size →
        (t.position a).compare (t.position b) = compare a b) ↔
      t.starts = #[] ∨ t.starts[0]? = some 0) ∧
    ∀ first, t.starts[0]? = some first → 0 < first →
      ∃ a b, a < UInt64.size ∧ b < UInt64.size ∧ a ≠ b ∧ t.position a = t.position b := by
  have shared {first : Nat} (entry : t.starts[0]? = some first) :
      first < UInt64.size ∧ t.position first = t.position 0 := by
    obtain ⟨nonempty, rfl⟩ := Array.getElem?_eq_some_iff.1 entry
    exact ⟨fits _ (Array.getElem_mem nonempty), position_first_entry increasing nonempty⟩
  refine ⟨⟨?_, ?_⟩, ?_⟩
  · intro agree
    cases entry : t.starts[0]? with
    | none => exact .inl (Array.eq_empty_of_size_eq_zero (by simpa using entry))
    | some first =>
      right
      obtain ⟨bound, same⟩ := shared entry
      have order := agree first 0 bound (by decide)
      rw [same, Position.compare_self] at order
      rw [Nat.compare_eq_eq.1 order.symm]
  · intro start a b _ _
    refine compare_position increasing ?_ a b
    intro nonempty
    rcases start with empty | zero
    · simp [empty] at nonempty
    · exact (Array.getElem?_eq_some_iff.1 zero).2
  · intro first entry positive
    obtain ⟨bound, same⟩ := shared entry
    exact ⟨first, 0, bound, by decide, by omega, same⟩

/-- A table that starts at zero, and one that does not. -/
theorem compare_position_iff_fourEntries :
    (Increasing ⟨#[0, 3, 6, 7]⟩ ∧ (∀ s ∈ #[0, 3, 6, 7], s < UInt64.size) ∧
      ∀ a b, a < UInt64.size → b < UInt64.size →
        (position ⟨#[0, 3, 6, 7]⟩ a).compare (position ⟨#[0, 3, 6, 7]⟩ b) = compare a b) ∧
    Increasing ⟨#[4, 9]⟩ ∧ (∀ s ∈ #[4, 9], s < UInt64.size) ∧
      ∃ a b, a < UInt64.size ∧ b < UInt64.size ∧ a ≠ b ∧
        position ⟨#[4, 9]⟩ a = position ⟨#[4, 9]⟩ b := by
  have increasing : Increasing ⟨#[0, 3, 6, 7]⟩ := by decide
  have fits : ∀ s ∈ #[0, 3, 6, 7], s < UInt64.size := by decide
  have increasing' : Increasing ⟨#[4, 9]⟩ := by decide
  have fits' : ∀ s ∈ #[4, 9], s < UInt64.size := by decide
  exact ⟨⟨increasing, fits, (compare_position_iff _ increasing fits).1.2 (.inr rfl)⟩,
    increasing', fits', (compare_position_iff _ increasing' fits').2 4 rfl (by decide)⟩

end LineTable

end DocProse
