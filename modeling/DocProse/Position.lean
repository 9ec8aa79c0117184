/-!
# Positions and spans

A position is a line, counted from one, and a column, counted in bytes from
zero.  Positions are ordered by line and then by column
(`Position.le_iff_compare`).  A span is a pair of positions.
-/

namespace DocProse

/-- A place in a text. -/
structure Position where
  /-- The line, from one. -/
  line : Nat
  /-- The bytes before it in its line. -/
  column : Nat
  deriving DecidableEq, Repr, Inhabited

namespace Position

/-- The start of a text. -/
def first : Position := ⟨1, 0⟩

/-- Positions compare by line, then by column. -/
def compare (p q : Position) : Ordering :=
  (Ord.compare p.line q.line).then (Ord.compare p.column q.column)

instance : Ord Position := ⟨compare⟩

instance : LE Position := ⟨fun p q => p.line < q.line ∨ p.line = q.line ∧ p.column ≤ q.column⟩

/-- The order of positions, unfolded. -/
theorem le_def {p q : Position} :
    p ≤ q ↔ p.line < q.line ∨ p.line = q.line ∧ p.column ≤ q.column := Iff.rfl

instance (p q : Position) : Decidable (p ≤ q) := decidable_of_iff' _ le_def

/-- A position comes at or before another exactly when it does not compare as greater. -/
theorem le_iff_compare {p q : Position} : p ≤ q ↔ p.compare q ≠ .gt := by
  rw [le_def, compare]
  rcases Nat.lt_trichotomy p.line q.line with h | h | h
  · simp [Nat.compare_eq_lt.2 h, h]
  · simp [h, Nat.compare_eq_gt]
  · simp [Nat.compare_eq_gt.2 h]
    omega

/-- A position as `line:column`. -/
def text (p : Position) : String := toString p.line ++ ":" ++ toString p.column

end Position

/-- The stretch between two positions. -/
structure Span where
  /-- Where it starts. -/
  start : Position
  /-- Where it ends. -/
  stop : Position
  deriving DecidableEq, Repr, Inhabited

/-- A span as `start-stop`. -/
def Span.text (s : Span) : String := s.start.text ++ "-" ++ s.stop.text

end DocProse
