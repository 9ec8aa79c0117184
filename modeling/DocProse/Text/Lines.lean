/-!
# Lines

Three ways to cut a text into lines, which differ in what ends a line and in
what a final line break leaves.

* `pieces` cuts at every line feed.  A text has one piece more than line feeds.
* `lines` takes a line feed as the *end* of a line, so a final one opens no
  further line, and drops one carriage return before it.  A carriage return
  anywhere else stays.
* `brokenPieces` cuts at every line feed, together with a carriage return right
  before it, and keeps the last piece even when it is empty.

`unpieces` puts pieces back together (`unpieces_pieces`).
-/

namespace DocProse.Text

/-- The parts of a text between its line feeds. -/
def pieces : List Char → List (List Char)
  | [] => [[]]
  | c :: cs => if c = '\n' then [] :: pieces cs else (pieces cs).modifyHead (c :: ·)

/-- Parts joined by line feeds. -/
def unpieces (ps : List (List Char)) : List Char := ['\n'].intercalate ps

/-- A line without a carriage return at its end. -/
def dropReturn : List Char → List Char
  | [] => []
  | ['\r'] => []
  | c :: cs => c :: dropReturn cs

/-- The lines that pieces stand for: all but the last were ended by a line feed. -/
def linesOfPieces : List (List Char) → List (List Char)
  | [] => []
  | [p] => if p.isEmpty then [] else [p]
  | p :: q :: ps => dropReturn p :: linesOfPieces (q :: ps)

/-- The lines of a text, without what ends them. -/
def lines (cs : List Char) : List (List Char) := linesOfPieces (pieces cs)

/-- The parts of a text between its line breaks, a line feed with an optional return before it. -/
def brokenPieces : List Char → List (List Char)
  | [] => [[]]
  | '\r' :: '\n' :: cs => [] :: brokenPieces cs
  | '\n' :: cs => [] :: brokenPieces cs
  | c :: cs => (brokenPieces cs).modifyHead (c :: ·)

/-- There is always a piece. -/
theorem pieces_ne_nil (cs : List Char) : pieces cs ≠ [] := by
  induction cs with
  | nil => simp [pieces]
  | cons c cs ih =>
    unfold pieces
    split
    · simp
    · cases h : pieces cs <;> simp_all

/-- Joining the pieces gives the text back. -/
theorem unpieces_pieces (cs : List Char) : unpieces (pieces cs) = cs := by
  induction cs with
  | nil => rfl
  | cons c cs ih =>
    have hne := pieces_ne_nil cs
    unfold pieces
    split
    · rename_i h
      cases hp : pieces cs with
      | nil => exact absurd hp hne
      | cons p ps => rw [hp] at ih; simp_all [unpieces, List.intercalate, List.intersperse]
    · cases hp : pieces cs with
      | nil => exact absurd hp hne
      | cons p ps =>
        rw [hp] at ih
        cases ps <;> simp_all [unpieces, List.intercalate, List.intersperse]

/-- No piece holds a line feed. -/
theorem newline_not_mem_of_mem_pieces {cs p : List Char} (h : p ∈ pieces cs) : '\n' ∉ p := by
  induction cs generalizing p with
  | nil => simp_all [pieces]
  | cons c cs ih =>
    unfold pieces at h
    split at h
    · rcases List.mem_cons.1 h with rfl | h
      · simp
      · exact ih h
    · rename_i hc
      cases hp : pieces cs with
      | nil => exact absurd hp (pieces_ne_nil cs)
      | cons q qs =>
        rw [hp] at h ih
        rcases List.mem_cons.1 h with rfl | h
        · have := ih List.mem_cons_self
          simp [this, Ne.symm hc]
        · exact ih (List.mem_cons_of_mem _ h)

end DocProse.Text
