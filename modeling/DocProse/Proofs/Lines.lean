import DocProse.Text.Lines

/-!
# Pieces and lines

Cutting at line feeds and joining by them undo one another: `unpieces_pieces`
says so for every text, and `pieces_unpieces` for all pieces that hold no line
feed.  A line feed between two texts separates their pieces
(`pieces_append_newline`), and any other character at the end of a text goes to
the last piece (`pieces_concat`).

A return that is put before each line feed ends up at the end of a piece
(`pieces_withReturns`).

The lines of a text are its pieces without the returns that stand before line
feeds, and without an empty piece at the end (`linesOfPieces_concat`).
-/

namespace DocProse.Text

variable {c : Char} {cs p : List Char} {ps : List (List Char)}

/-! ## Cutting -/

theorem pieces_newline (cs : List Char) : pieces ('\n' :: cs) = [] :: pieces cs := by
  rw [pieces, if_pos rfl]

/-- A character that is no line feed goes to the first piece. -/
theorem pieces_cons (h : c ≠ '\n') (cs : List Char) :
    ∃ p ps, pieces cs = p :: ps ∧ pieces (c :: cs) = (c :: p) :: ps := by
  rw [pieces, if_neg h]
  cases cut : pieces cs with
  | nil => exact absurd cut (pieces_ne_nil cs)
  | cons p ps => exact ⟨p, ps, rfl, rfl⟩

/-- The pieces of a text are those before a line feed and those behind it. -/
theorem pieces_append_newline (xs ys : List Char) :
    pieces (xs ++ '\n' :: ys) = pieces xs ++ pieces ys := by
  induction xs with
  | nil => exact pieces_newline ys
  | cons x xs ih =>
    by_cases h : x = '\n'
    · subst h
      rw [List.cons_append, pieces_newline, pieces_newline, ih]
      rfl
    · obtain ⟨p, ps, cut, cutCons⟩ := pieces_cons h xs
      rw [List.cons_append, pieces, if_neg h, ih, cut, cutCons]
      rfl

theorem pieces_of_not_mem (h : '\n' ∉ p) : pieces p = [p] := by
  induction p with
  | nil => rfl
  | cons c p ih =>
    rw [List.mem_cons, not_or] at h
    rw [pieces, if_neg (Ne.symm h.1), ih h.2]
    rfl

/-- Texts with a line feed behind each are pieces, and then come those of what follows. -/
theorem pieces_flatMap_newline (whole : ∀ p ∈ ps, '\n' ∉ p) (cs : List Char) :
    pieces (ps.flatMap (· ++ ['\n']) ++ cs) = ps ++ pieces cs := by
  induction ps with
  | nil => rfl
  | cons p ps ih =>
    have first : '\n' ∉ p := whole p List.mem_cons_self
    have rest := ih fun q membership => whole q (List.mem_cons_of_mem _ membership)
    rw [List.flatMap_cons, List.append_assoc, List.append_assoc, List.singleton_append,
      pieces_append_newline, pieces_of_not_mem first, rest]
    rfl

/-- A text without line feeds goes to the first piece of what follows it. -/
theorem pieces_append_of_not_mem (h : '\n' ∉ p) (cs : List Char) :
    ∃ q qs, pieces cs = q :: qs ∧ pieces (p ++ cs) = (p ++ q) :: qs := by
  induction p with
  | nil =>
    obtain ⟨q, qs, cut⟩ := List.exists_cons_of_ne_nil (pieces_ne_nil cs)
    exact ⟨q, qs, cut, cut⟩
  | cons c p ih =>
    rw [List.mem_cons, not_or] at h
    obtain ⟨q, qs, cut, cutBoth⟩ := ih h.2
    refine ⟨q, qs, cut, ?_⟩
    rw [List.cons_append, pieces, if_neg (Ne.symm h.1), cutBoth]
    rfl

/-- There is always a last piece. -/
theorem exists_pieces_concat (cs : List Char) : ∃ ps p, pieces cs = ps ++ [p] :=
  ⟨_, _, (List.dropLast_concat_getLast (pieces_ne_nil cs)).symm⟩

/-- A character at the end that is no line feed goes to the last piece. -/
theorem pieces_concat (h : c ≠ '\n') (cs : List Char) :
    ∃ ps p, pieces cs = ps ++ [p] ∧ pieces (cs ++ [c]) = ps ++ [p ++ [c]] := by
  induction cs with
  | nil => exact ⟨[], [], rfl, pieces_of_not_mem (by simpa using Ne.symm h)⟩
  | cons x cs ih =>
    obtain ⟨ps, p, cut, cutConcat⟩ := ih
    by_cases newline : x = '\n'
    · subst newline
      refine ⟨[] :: ps, p, ?_, ?_⟩
      · rw [pieces_newline, cut]
        rfl
      · rw [List.cons_append, pieces_newline, cutConcat]
        rfl
    · rw [List.cons_append, pieces, pieces, if_neg newline, if_neg newline, cut, cutConcat]
      cases ps with
      | nil => exact ⟨[], x :: p, rfl, rfl⟩
      | cons q ps => exact ⟨(x :: q) :: ps, p, rfl, rfl⟩

/-! ## Joining -/

theorem unpieces_singleton (p : List Char) : unpieces [p] = p :=
  List.intercalate_singleton

theorem unpieces_cons (p : List Char) (h : ps ≠ []) :
    unpieces (p :: ps) = p ++ '\n' :: unpieces ps := by
  cases ps with
  | nil => exact absurd rfl h
  | cons q ps =>
    rw [unpieces, List.intercalate_cons_cons, List.append_assoc]
    rfl

theorem unpieces_concat (h : ps ≠ []) (p : List Char) :
    unpieces (ps ++ [p]) = unpieces ps ++ '\n' :: p := by
  induction ps with
  | nil => exact absurd rfl h
  | cons q ps ih =>
    cases ps with
    | nil =>
      rw [List.singleton_append, unpieces_cons q (by simp), unpieces_singleton,
        unpieces_singleton]
    | cons r ps =>
      rw [List.cons_append, unpieces_cons q (by simp), ih (by simp), unpieces_cons q (by simp),
        List.append_assoc]
      rfl

/-- Cutting gives back the pieces that were joined. -/
theorem pieces_unpieces (h : ps ≠ []) (whole : ∀ p ∈ ps, '\n' ∉ p) :
    pieces (unpieces ps) = ps := by
  induction ps with
  | nil => exact absurd rfl h
  | cons p ps ih =>
    have first : '\n' ∉ p := whole p List.mem_cons_self
    cases ps with
    | nil => rw [unpieces_singleton, pieces_of_not_mem first]
    | cons q ps =>
      have rest := ih (by simp) (fun r membership => whole r (List.mem_cons_of_mem _ membership))
      rw [unpieces_cons p (by simp), pieces_append_newline, pieces_of_not_mem first, rest]
      rfl

/-! ## Returns -/

/-- A text with a return before each line feed. -/
def withReturns (cs : List Char) : List Char :=
  cs.flatMap fun c => if c = '\n' then ['\r', '\n'] else [c]

theorem withReturns_append (xs ys : List Char) :
    withReturns (xs ++ ys) = withReturns xs ++ withReturns ys := List.flatMap_append

theorem withReturns_newline (cs : List Char) :
    withReturns ('\n' :: cs) = '\r' :: '\n' :: withReturns cs := rfl

theorem withReturns_of_ne (h : c ≠ '\n') (cs : List Char) :
    withReturns (c :: cs) = c :: withReturns cs := by
  rw [withReturns, List.flatMap_cons, if_neg h]
  rfl

/-- All pieces but the last end in a return then. -/
theorem pieces_withReturns (cs : List Char) :
    ∃ ps p, pieces cs = ps ++ [p] ∧
      pieces (withReturns cs) = ps.map (· ++ ['\r']) ++ [p] := by
  induction cs with
  | nil => exact ⟨[], [], rfl, rfl⟩
  | cons c cs ih =>
    obtain ⟨ps, p, cut, cutReturns⟩ := ih
    by_cases newline : c = '\n'
    · subst newline
      refine ⟨[] :: ps, p, ?_, ?_⟩
      · rw [pieces_newline, cut]
        rfl
      · have first : pieces ['\r'] = [['\r']] := rfl
        rw [withReturns_newline, ← List.singleton_append, pieces_append_newline, first, cutReturns]
        rfl
    · rw [withReturns_of_ne newline, pieces, pieces, if_neg newline, if_neg newline, cut,
        cutReturns]
      cases ps with
      | nil => exact ⟨[], c :: p, rfl, rfl⟩
      | cons q ps => exact ⟨(c :: q) :: ps, p, rfl, rfl⟩

/-! ## Lines -/

theorem dropReturn_isPrefix (cs : List Char) : dropReturn cs <+: cs := by
  fun_induction dropReturn cs with
  | case1 => exact List.prefix_rfl
  | case2 => exact List.nil_prefix
  | case3 c cs _ ih => exact List.cons_prefix_cons.2 ⟨rfl, ih⟩

theorem dropReturn_eq_self (h : cs.getLast? ≠ some '\r') : dropReturn cs = cs := by
  fun_induction dropReturn cs with
  | case1 => rfl
  | case2 => exact absurd rfl h
  | case3 c cs single ih =>
    cases cs with
    | nil => rfl
    | cons d cs =>
      rw [List.getLast?_cons_cons] at h
      rw [ih h]

theorem dropReturn_concat (p : List Char) : dropReturn (p ++ ['\r']) = p := by
  induction p with
  | nil => rfl
  | cons c p ih =>
    have more : p ++ ['\r'] ≠ [] := by simp
    rw [List.cons_append, dropReturn, ih]
    rintro - empty
    exact more empty

/-- All pieces but the last are lines that ended in a line feed. -/
theorem linesOfPieces_concat (ps : List (List Char)) (q : List Char) :
    linesOfPieces (ps ++ [q]) = ps.map dropReturn ++ if q.isEmpty then [] else [q] := by
  induction ps with
  | nil => rfl
  | cons p ps ih =>
    cases rest : ps ++ [q] with
    | nil => simp at rest
    | cons r rs =>
      rw [rest] at ih
      rw [List.cons_append, rest, linesOfPieces, ih]
      rfl

/-- Every line is the start of a piece. -/
theorem exists_piece_of_mem_lines (h : p ∈ lines cs) : ∃ q ∈ pieces cs, p <+: q := by
  rw [lines] at h
  generalize pieces cs = ps at h ⊢
  fun_induction linesOfPieces ps with
  | case1 => simp at h
  | case2 => simp at h
  | case3 q _ =>
    rw [List.mem_singleton] at h
    exact ⟨q, List.mem_cons_self, h ▸ List.prefix_rfl⟩
  | case4 q r rs ih =>
    rcases List.mem_cons.1 h with first | rest
    · exact ⟨q, List.mem_cons_self, first ▸ dropReturn_isPrefix q⟩
    · obtain ⟨s, membership, isPrefix⟩ := ih rest
      exact ⟨s, List.mem_cons_of_mem _ membership, isPrefix⟩

theorem newline_not_mem_of_mem_lines (h : p ∈ lines cs) : '\n' ∉ p := by
  obtain ⟨q, membership, isPrefix⟩ := exists_piece_of_mem_lines h
  intro newline
  exact newline_not_mem_of_mem_pieces membership (isPrefix.subset newline)

end DocProse.Text
