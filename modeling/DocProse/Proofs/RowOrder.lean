import DocProse.Proofs.SourceOrder

/-!
# The order of rows

Rows give a tree when each of them but the first names an earlier one as its
parent (`ParentsFirst`).  The tree is then walked in the order of the *paths* of
its rows, which lead down from the root, compared like words in a dictionary
(`descendants_ofRows_inPathOrder`).  A row comes before those under it, and
everything under a row comes before everything under a later sibling.

The order is that of a walk over indices (`visits`), and what the rows hold
besides their parents has no part in it (`descendants_ofRow`).  Under a row this
walk meets the rows whose paths lead through it, and no others
(`mem_visits_iff`).  It meets them in the order of their paths
(`pairwise_visits`) and in one stretch (`visits_isInfix`).
-/

namespace DocProse

namespace SyntaxNode

variable {rows : Array Row} {i j k p u v : Nat}

/-! ## Parents and paths -/

/-- The row that a row names as its parent. -/
def parent? (rows : Array Row) (i : Nat) : Option Nat := rows[i]?.bind Row.parent

/-- Rows of which each but the first names an earlier one as its parent. -/
def ParentsFirst (rows : Array Row) : Prop :=
  ∀ i < rows.size, 0 < i → ∃ p < i, parent? rows i = some p

instance (rows : Array Row) : Decidable (ParentsFirst rows) :=
  inferInstanceAs (Decidable (∀ i < rows.size, 0 < i → ∃ p < i, parent? rows i = some p))

/-- The rows that lead down to a row, from the root to the row itself. -/
def path (rows : Array Row) (i : Nat) : List Nat :=
  match parent? rows i with
  | none => [i]
  | some p => if p < i then path rows p ++ [i] else [i]
termination_by i

theorem mem_childRows_iff :
    j ∈ childRows rows i ↔ i < j ∧ j < rows.size ∧ parent? rows j = some i := by
  simp only [childRows, List.mem_filter, List.mem_range, Bool.and_eq_true, decide_eq_true_eq,
    beq_iff_eq, parent?]
  constructor
  · rintro ⟨bound, later, parent⟩
    exact ⟨later, bound, parent⟩
  · rintro ⟨later, bound, parent⟩
    exact ⟨bound, later, parent⟩

theorem pairwise_childRows (rows : Array Row) (i : Nat) : (childRows rows i).Pairwise (· < ·) :=
  List.pairwise_lt_range.filter _

theorem path_of_mem_childRows (h : j ∈ childRows rows i) : path rows j = path rows i ++ [j] := by
  obtain ⟨later, -, parent⟩ := mem_childRows_iff.1 h
  rw [path, parent]
  exact if_pos later

/-- A row starts its own path, or it is a child of an earlier row. -/
theorem path_cases (rows : Array Row) (bound : v < rows.size) :
    path rows v = [v] ∨ ∃ p, p < v ∧ v ∈ childRows rows p := by
  cases parent : parent? rows v with
  | none =>
    left
    rw [path, parent]
  | some p =>
    by_cases earlier : p < v
    · exact .inr ⟨p, earlier, mem_childRows_iff.2 ⟨earlier, bound, parent⟩⟩
    · left
      rw [path, parent]
      exact if_neg earlier

theorem self_mem_path (rows : Array Row) (i : Nat) : i ∈ path rows i := by
  rw [path]
  split
  · exact List.mem_singleton_self i
  · split
    · exact List.mem_append_right _ (List.mem_singleton_self i)
    · exact List.mem_singleton_self i

theorem ParentsFirst.zero_mem_path (first : ParentsFirst rows) (bound : v < rows.size) :
    0 ∈ path rows v := by
  induction v using Nat.strongRecOn with
  | ind v ih =>
    rcases Nat.eq_zero_or_pos v with root | later
    · subst root
      exact self_mem_path rows 0
    · obtain ⟨p, earlier, parent⟩ := first v bound later
      rw [path_of_mem_childRows (mem_childRows_iff.2 ⟨earlier, bound, parent⟩)]
      exact List.mem_append_left _ (ih p earlier (by omega))

/-! ## A walk over indices -/

/-- The rows under a row, each before the rows under it. -/
def visits (rows : Array Row) (i : Nat) : List Nat :=
  (childRows rows i).attach.flatMap fun ⟨j, _⟩ => j :: visits rows j
termination_by rows.size - i
decreasing_by
  have := lt_of_mem_childRows ‹j ∈ childRows rows i›
  omega

theorem visits_eq (rows : Array Row) (i : Nat) :
    visits rows i = (childRows rows i).flatMap fun j => j :: visits rows j := by
  rw [visits]
  simp

/-- What holds of a row when it holds of its children holds of all rows. -/
theorem row_induction (rows : Array Row) {P : Nat → Prop}
    (step : ∀ i, (∀ j ∈ childRows rows i, P j) → P i) (i : Nat) : P i := by
  induction i using visits.induct rows with
  | case1 i ih => exact step i ih

theorem mem_visits_iff_exists :
    v ∈ visits rows i ↔ ∃ j ∈ childRows rows i, v = j ∨ v ∈ visits rows j := by
  simp only [visits_eq rows i, List.mem_flatMap, List.mem_cons]

theorem lt_of_mem_visits (h : v ∈ visits rows i) : i < v ∧ v < rows.size := by
  induction i using row_induction rows with
  | step i ih =>
    obtain ⟨j, child, below⟩ := mem_visits_iff_exists.1 h
    obtain ⟨later, bound⟩ := lt_of_mem_childRows child
    rcases below with same | under
    · exact same ▸ ⟨later, bound⟩
    · obtain ⟨further, bound'⟩ := ih j child under
      exact ⟨Nat.lt_trans later further, bound'⟩

/-- The path to a row goes on through the child of an upper row that it is under. -/
theorem path_of_mem_visits (h : j ∈ childRows rows i) (below : v = j ∨ v ∈ visits rows j) :
    ∃ rest, path rows v = path rows i ++ j :: rest := by
  induction i using row_induction rows generalizing j with
  | step i ih =>
    rcases below with same | under
    · subst same
      exact ⟨[], path_of_mem_childRows h⟩
    · obtain ⟨k, child, further⟩ := mem_visits_iff_exists.1 under
      obtain ⟨rest, found⟩ := ih j h child further
      refine ⟨k :: rest, ?_⟩
      rw [found, path_of_mem_childRows h, List.append_assoc]
      rfl

theorem exists_path_of_mem_visits (h : v ∈ visits rows i) :
    ∃ j rest, path rows v = path rows i ++ j :: rest := by
  obtain ⟨j, child, below⟩ := mem_visits_iff_exists.1 h
  exact ⟨j, path_of_mem_visits child below⟩

theorem visits_trans (outer : u ∈ visits rows i) (inner : v ∈ visits rows u) :
    v ∈ visits rows i := by
  induction i using row_induction rows with
  | step i ih =>
    obtain ⟨j, child, below⟩ := mem_visits_iff_exists.1 outer
    refine mem_visits_iff_exists.2 ⟨j, child, .inr ?_⟩
    rcases below with same | under
    · exact same ▸ inner
    · exact ih j child under

/-- Under a row are the others to whose paths it belongs. -/
theorem mem_visits_iff :
    v ∈ visits rows i ↔ v < rows.size ∧ v ≠ i ∧ i ∈ path rows v := by
  constructor
  · intro under
    obtain ⟨later, bound⟩ := lt_of_mem_visits under
    obtain ⟨j, rest, found⟩ := exists_path_of_mem_visits under
    refine ⟨bound, by omega, ?_⟩
    rw [found]
    exact List.mem_append_left _ (self_mem_path rows i)
  · rintro ⟨bound, other, leads⟩
    -- Upwards from the row, since its path is that of its parent with one more step.
    induction v using Nat.strongRecOn with
    | ind v ih =>
      rcases path_cases rows bound with root | ⟨p, earlier, child⟩
      · rw [root, List.mem_singleton] at leads
        exact absurd leads.symm other
      · have below : v ∈ visits rows p := mem_visits_iff_exists.2 ⟨v, child, .inl rfl⟩
        rw [path_of_mem_childRows child, List.mem_append, List.mem_singleton] at leads
        rcases leads with throughParent | self
        · by_cases same : p = i
          · exact same ▸ below
          · exact visits_trans (ih p earlier (by omega) same throughParent) below
        · exact absurd self.symm other

/-! ## The order of the walk -/

theorem path_lt_of_mem_visits (h : v ∈ visits rows u) : path rows u < path rows v := by
  obtain ⟨j, rest, found⟩ := exists_path_of_mem_visits h
  have longer : path rows u ++ [] < path rows u ++ j :: rest :=
    List.append_left_lt (List.nil_lt_cons j rest)
  rwa [List.append_nil, ← found] at longer

/-- Paths that part at a row go on in the order of the children. -/
theorem path_lt_of_siblings (first : j ∈ childRows rows i) (second : k ∈ childRows rows i)
    (less : j < k) (underFirst : u = j ∨ u ∈ visits rows j)
    (underSecond : v = k ∨ v ∈ visits rows k) : path rows u < path rows v := by
  obtain ⟨rest, found⟩ := path_of_mem_visits first underFirst
  obtain ⟨rest', found'⟩ := path_of_mem_visits second underSecond
  rw [found, found']
  exact List.append_left_lt (List.cons_lt_cons_iff.2 (.inl less))

theorem pairwise_visits (rows : Array Row) (i : Nat) :
    (visits rows i).Pairwise fun u v => path rows u < path rows v := by
  induction i using row_induction rows with
  | step i ih =>
    -- Under one child by the induction, and under two children by where their paths part.
    rw [visits_eq, List.pairwise_flatMap]
    constructor
    · intro j child
      exact .cons (fun v under => path_lt_of_mem_visits under) (ih j child)
    · refine (pairwise_childRows rows i).imp_of_mem ?_
      intro j k first second less u inFirst v inSecond
      exact path_lt_of_siblings first second less (List.mem_cons.1 inFirst)
        (List.mem_cons.1 inSecond)

theorem nodup_visits (rows : Array Row) (i : Nat) : (visits rows i).Nodup := by
  refine (pairwise_visits rows i).imp ?_
  intro u v less same
  exact List.lt_irrefl _ (same ▸ less)

/-- A row is met before another one exactly when its path comes first. -/
theorem idxOf_visits_lt_iff (hu : u ∈ visits rows i) (hv : v ∈ visits rows i) :
    (visits rows i).idxOf u < (visits rows i).idxOf v ↔ path rows u < path rows v := by
  have ordered {a b : Nat} (ha : a ∈ visits rows i) (hb : b ∈ visits rows i)
      (before : (visits rows i).idxOf a < (visits rows i).idxOf b) :
      path rows a < path rows b := by
    have pairs := List.pairwise_iff_getElem.1 (pairwise_visits rows i) _ _
      (List.idxOf_lt_length_iff.2 ha) (List.idxOf_lt_length_iff.2 hb) before
    rwa [List.getElem_idxOf, List.getElem_idxOf] at pairs
  constructor
  · exact ordered hu hv
  · intro less
    rcases Nat.lt_trichotomy ((visits rows i).idxOf u) ((visits rows i).idxOf v) with
      before | same | behind
    · exact before
    · rw [List.idxOf_inj hu] at same
      exact absurd (same ▸ less) (List.lt_irrefl _)
    · exact absurd (ordered hv hu behind) (List.lt_asymm less)

/-- The rows under a row come in one stretch, right behind it. -/
theorem visits_isInfix (h : u ∈ visits rows i) : (u :: visits rows u) <:+: visits rows i := by
  induction i using row_induction rows with
  | step i ih =>
    obtain ⟨j, child, below⟩ := mem_visits_iff_exists.1 h
    have stretch : (j :: visits rows j) <:+: visits rows i := by
      rw [visits_eq rows i]
      exact List.infix_flatMap_of_mem child fun j => j :: visits rows j
    rcases below with same | under
    · exact same ▸ stretch
    · exact ((ih j child under).trans (List.suffix_cons _ _).isInfix).trans stretch

/-! ## The walk along the tree -/

theorem preorder_eq_flatMap (ns : List SyntaxNode) :
    preorder ns = ns.flatMap fun n => n :: n.descendants := by
  induction ns with
  | nil => rfl
  | cons n ns ih =>
    rw [preorder, ih, List.flatMap_cons]
    rfl

theorem children_ofRow (rows : Array Row) (i : Nat) :
    (ofRow rows i).children = (childRows rows i).map (ofRow rows) := by
  rw [ofRow]
  simp

theorem childRows_congr {other : Array Row} (h : other.map Row.parent = rows.map Row.parent)
    (i : Nat) : childRows other i = childRows rows i := by
  have size : other.size = rows.size := by
    simpa using congrArg Array.size h
  have parents (j : Nat) : other[j]?.bind Row.parent = rows[j]?.bind Row.parent := by
    have entry := congrArg (fun parents => parents[j]?.bind id) h
    simpa [Option.bind_map] using entry
  simp only [childRows, size, parents]

/-- The nodes under a row are those of the walk over indices, also when the rows hold something
else besides their parents. -/
theorem descendants_ofRow {other : Array Row} (h : other.map Row.parent = rows.map Row.parent)
    (i : Nat) : (ofRow other i).descendants = (visits rows i).map (ofRow other) := by
  induction i using row_induction rows with
  | step i ih =>
    rw [descendants_eq, preorder_eq_flatMap, children_ofRow, childRows_congr h, visits_eq,
      List.map_flatMap, List.flatMap_map]
    refine List.flatMap_congr ?_
    intro j child
    rw [List.map_cons, ih j child]

/-! ## Trees of rows -/

/-- The rows under the first one, in the order of their paths. -/
structure InPathOrder (rows : Array Row) (visits : List Nat) : Prop where
  /-- No row is visited twice. -/
  once : visits.Nodup
  /-- All rows are visited but the first. -/
  all : ∀ i, i ∈ visits ↔ 0 < i ∧ i < rows.size
  /-- A row is visited before another one when its path is less, as words are in a dictionary. -/
  byPath : ∀ u ∈ visits, ∀ v ∈ visits,
    (visits.idxOf u < visits.idxOf v ↔ path rows u < path rows v)
  /-- A row is visited before those that it leads down to. -/
  above : ∀ u ∈ visits, ∀ v ∈ visits, u ≠ v → u ∈ path rows v →
    visits.idxOf u < visits.idxOf v
  /-- A row and all under it are visited before a later sibling and all under that. -/
  siblings : ∀ j ∈ visits, ∀ k ∈ visits, parent? rows j = parent? rows k → j < k →
    ∀ u ∈ visits, ∀ v ∈ visits, j ∈ path rows u → k ∈ path rows v →
      visits.idxOf u < visits.idxOf v
  /-- A row and all under it are visited in one stretch. -/
  stretch : ∀ u ∈ visits, ∃ below, (u :: below) <:+: visits ∧
    ∀ v, v ∈ below ↔ v < rows.size ∧ v ≠ u ∧ u ∈ path rows v

theorem ParentsFirst.mem_visits_iff (first : ParentsFirst rows) :
    v ∈ visits rows 0 ↔ 0 < v ∧ v < rows.size := by
  rw [SyntaxNode.mem_visits_iff]
  constructor
  · rintro ⟨bound, other, -⟩
    exact ⟨Nat.pos_of_ne_zero other, bound⟩
  · rintro ⟨later, bound⟩
    exact ⟨bound, Nat.ne_of_gt later, first.zero_mem_path bound⟩

/-- A row to which another one leads down is that one or is under it. -/
theorem ParentsFirst.eq_or_mem_visits (first : ParentsFirst rows) (h : v ∈ visits rows 0)
    (leads : u ∈ path rows v) : v = u ∨ v ∈ visits rows u := by
  by_cases same : v = u
  · exact .inl same
  · exact .inr (SyntaxNode.mem_visits_iff.2 ⟨(first.mem_visits_iff.1 h).2, same, leads⟩)

theorem ParentsFirst.inPathOrder (first : ParentsFirst rows) :
    InPathOrder rows (visits rows 0) where
  once := nodup_visits rows 0
  all _ := first.mem_visits_iff
  byPath _ hu _ hv := idxOf_visits_lt_iff hu hv
  above u hu v hv other leads := by
    rcases first.eq_or_mem_visits hv leads with same | under
    · exact absurd same.symm other
    · exact (idxOf_visits_lt_iff hu hv).2 (path_lt_of_mem_visits under)
  siblings j hj k hk parents less u hu v hv leadsU leadsV := by
    obtain ⟨later, bound⟩ := first.mem_visits_iff.1 hj
    obtain ⟨p, earlier, parent⟩ := first j bound later
    have firstChild : j ∈ childRows rows p := mem_childRows_iff.2 ⟨earlier, bound, parent⟩
    have secondChild : k ∈ childRows rows p :=
      mem_childRows_iff.2 ⟨by omega, (first.mem_visits_iff.1 hk).2, by rw [← parents, parent]⟩
    exact (idxOf_visits_lt_iff hu hv).2 (path_lt_of_siblings firstChild secondChild less
      (first.eq_or_mem_visits hu leadsU) (first.eq_or_mem_visits hv leadsV))
  stretch u hu := ⟨visits rows u, visits_isInfix hu, fun _ => SyntaxNode.mem_visits_iff⟩

/-- The tree of rows is walked in the order of their paths, each row but the first once.  This
order is told by the parents alone, whatever else the rows hold. -/
theorem descendants_ofRows_inPathOrder (rows : Array Row) (first : ParentsFirst rows) :
    ∃ visits, InPathOrder rows visits ∧
      ∀ other : Array Row, other.map Row.parent = rows.map Row.parent →
        (ofRows other).descendants = visits.map (ofRow other) :=
  ⟨visits rows 0, first.inPathOrder, fun _ parents => descendants_ofRow parents 0⟩

/-- Six rows, of which the fourth and the last are under the second. -/
def sixRows : Array Row :=
  #[⟨none, "a", 0, 9, none⟩, ⟨some 0, "b", 0, 4, none⟩, ⟨some 0, "c", 5, 9, none⟩,
    ⟨some 1, "d", 0, 2, none⟩, ⟨some 2, "e", 5, 9, none⟩, ⟨some 1, "f", 2, 4, none⟩]

/-- The rows are not walked in the order of their indices. -/
theorem descendants_ofRows_inPathOrder_sixRows :
    ParentsFirst sixRows ∧ path sixRows 5 < path sixRows 2 ∧
      ∃ visits, InPathOrder sixRows visits ∧
        (ofRows sixRows).descendants = visits.map (ofRow sixRows) ∧
        visits.idxOf 5 < visits.idxOf 2 := by
  have first : ParentsFirst sixRows := by decide
  have pathFive : path sixRows 5 = [0, 1, 5] := by cbv
  have pathTwo : path sixRows 2 = [0, 2] := by cbv
  have less : path sixRows 5 < path sixRows 2 := by
    rw [pathFive, pathTwo]
    decide
  obtain ⟨visits, ordered, walked⟩ := descendants_ofRows_inPathOrder sixRows first
  have visited (i : Nat) (later : 0 < i) (bound : i < sixRows.size) : i ∈ visits :=
    (ordered.all i).2 ⟨later, bound⟩
  refine ⟨first, less, visits, ordered, walked sixRows rfl, ?_⟩
  exact (ordered.byPath 5 (visited 5 (by decide) (by decide)) 2
    (visited 2 (by decide) (by decide))).2 less

end SyntaxNode

end DocProse
