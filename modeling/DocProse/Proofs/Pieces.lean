import Mathlib.Data.List.Basic

/-!
# Pieces of a list

A list is cut into pieces at each place where some entry stands, and the pieces
are joined with that entry between them again.  The entry is in none of them
(`not_mem_of_mem_splitOn`), and there is always a last one
(`exists_splitOn_concat`).

Joined pieces can be cut inside of one (`intercalate_cut`).  So the last piece of
a list and the first of what follows it are one piece of both together
(`splitOn_append`).
-/

namespace DocProse

variable {α : Type} {a : α} {xs ys u v : List α} {as bs : List (List α)}

/-- Pieces that are joined can be cut inside of one. -/
theorem intercalate_cut (as : List (List α)) (u v : List α) (bs : List (List α)) :
    [a].intercalate (as ++ (u ++ v) :: bs) =
      [a].intercalate (as ++ [u]) ++ [a].intercalate (v :: bs) := by
  induction as with
  | nil => cases bs <;> simp [List.intercalate_cons_cons]
  | cons p as ih =>
    have first (q : List α) (qs : List (List α)) : [a].intercalate (p :: (as ++ q :: qs)) =
        p ++ [a] ++ [a].intercalate (as ++ q :: qs) :=
      List.intercalate_cons_of_ne_nil (by simp)
    rw [List.cons_append, List.cons_append, first, first, ih]
    simp only [List.append_assoc]

variable [BEq α]

/-- There is always a last piece. -/
theorem exists_splitOn_concat (a : α) (l : List α) : ∃ as u, l.splitOn a = as ++ [u] := by
  have nonempty : l.splitOn a ≠ [] := List.splitOn_ne_nil a l
  exact ⟨_, _, (List.dropLast_concat_getLast nonempty).symm⟩

variable [LawfulBEq α]

theorem not_mem_of_mem_splitOn {l p : List α} (h : p ∈ l.splitOn a) : a ∉ p := by
  induction l generalizing p with
  | nil => simp_all
  | cons x l ih =>
    rw [List.splitOn_cons_eq_if_modifyHead] at h
    split at h
    · rcases List.mem_cons.1 h with rfl | later
      · exact List.not_mem_nil
      · exact ih later
    · next different =>
      obtain ⟨q, qs, cut⟩ := List.exists_cons_of_ne_nil (List.splitOn_ne_nil a l)
      rw [cut, List.modifyHead_cons] at h
      rw [cut] at ih
      rcases List.mem_cons.1 h with rfl | later
      · have first := ih List.mem_cons_self
        have other : a ≠ x := fun same => different (by simp [same])
        simp [first, other]
      · exact ih (List.mem_cons_of_mem _ later)

/-- The last piece of a list and the first one behind it are one piece of both together. -/
theorem splitOn_append (first : xs.splitOn a = as ++ [u]) (second : ys.splitOn a = v :: bs) :
    (xs ++ ys).splitOn a = as ++ (u ++ v) :: bs := by
  have whole : xs ++ ys = [a].intercalate (as ++ (u ++ v) :: bs) := by
    rw [intercalate_cut, ← first, ← second, List.intercalate_splitOn, List.intercalate_splitOn]
  have inFirst : ∀ q ∈ as ++ [u], a ∉ q := by
    rw [← first]
    exact fun q => not_mem_of_mem_splitOn
  have inSecond : ∀ q ∈ v :: bs, a ∉ q := by
    rw [← second]
    exact fun q => not_mem_of_mem_splitOn
  have separate : ∀ p ∈ as ++ (u ++ v) :: bs, a ∉ p := by
    intro p membership
    rcases List.mem_append.1 membership with before | behind
    · exact inFirst p (List.mem_append_left _ before)
    · rcases List.mem_cons.1 behind with rfl | later
      · rw [List.mem_append, not_or]
        exact ⟨inFirst u (by simp), inSecond v List.mem_cons_self⟩
      · exact inSecond p (List.mem_cons_of_mem _ later)
  rw [whole, List.splitOn_intercalate a separate (by simp)]

/-- A list can be cut inside of one of its pieces. -/
theorem exists_cut_of_splitOn {l : List α} (whole : l.splitOn a = as ++ (u ++ v) :: bs) :
    ∃ xs ys, l = xs ++ ys ∧ xs.splitOn a = as ++ [u] := by
  have inWhole : ∀ p ∈ as ++ (u ++ v) :: bs, a ∉ p := by
    rw [← whole]
    exact fun p => not_mem_of_mem_splitOn
  have separate : ∀ p ∈ as ++ [u], a ∉ p := by
    intro p membership
    rcases List.mem_append.1 membership with before | last
    · exact inWhole p (List.mem_append_left _ before)
    · obtain rfl := List.mem_singleton.1 last
      have inPiece : a ∉ p ++ v := inWhole (p ++ v) (by simp)
      exact fun found => inPiece (List.mem_append_left _ found)
  refine ⟨[a].intercalate (as ++ [u]), [a].intercalate (v :: bs), ?_,
    List.splitOn_intercalate a separate (by simp)⟩
  rw [← intercalate_cut, ← whole, List.intercalate_splitOn]

end DocProse
