import DocProse.Path
import DocProse.Proofs.Pieces
import Mathlib.Data.List.TakeWhile

/-!
# Extensions of paths

The extension of a path is what follows the last dot of its last name.  That name
may stand behind a slash, and slashes and single dots may follow it, which add no
name.  Something has to stand before the dot, and a name of two dots is none.
`Path.HasExtension` says so of the text of a path, and looking the extension up
gives just that (`Path.extension?_eq_some_iff`).

An extension holds no dot.  So a text is this extension behind its dots exactly
when it is some dots and then the extension (`stripDots_eq_iff`), and two texts are
the same behind their dots when they are one text with dots before it
(`stripDots_eq_stripDots_iff`).
-/

namespace DocProse

namespace Path

variable {name stem suffix back xs : List Char} {path e : String}

/-! ## Components -/

theorem splitSlashes_eq_splitOn (cs : List Char) : splitSlashes cs = cs.splitOn '/' := by
  induction cs with
  | nil => rfl
  | cons c cs ih =>
    rw [splitSlashes, List.splitOn_cons_eq_if_modifyHead, ih]
    by_cases slash : c = '/' <;> simp [slash]

/-- A slash separates the components before it from those behind it. -/
theorem components_append_slash (xs ys : List Char) :
    components (xs ++ '/' :: ys) = components xs ++ components ys := by
  simp only [components, splitSlashes_eq_splitOn, List.splitOn_append_cons_self,
    List.filter_append]

theorem components_of_name (noSlash : '/' ∉ name) (visible : name ≠ []) (noDot : name ≠ ['.']) :
    components name = [name] := by
  rw [components, splitSlashes_eq_splitOn, List.splitOn_eq_singleton noSlash]
  simp [visible, noDot]

/-! ## The last component -/

/-- What can stand before a name: nothing, or a path that ends in a slash. -/
def Leading (front : List Char) : Prop := front = [] ∨ ∃ above, front = above ++ ['/']

/-- What can stand behind a name: slashes, and single dots behind slashes. -/
inductive Trailing : List Char → Prop where
  | nil : Trailing []
  | slash {back : List Char} (more : Trailing back) : Trailing ('/' :: back)
  | dot {back : List Char} (more : Trailing back) : Trailing ('/' :: '.' :: back)

theorem Trailing.components_append (h : Trailing back) (xs : List Char) :
    components (xs ++ back) = components xs := by
  induction h generalizing xs with
  | nil => rw [List.append_nil]
  | slash _ ih =>
    have nothing := ih []
    rw [List.nil_append] at nothing
    rw [components_append_slash, nothing]
    exact List.append_nil _
  | dot _ ih =>
    have nothing := ih ['.']
    rw [List.singleton_append] at nothing
    rw [components_append_slash, nothing]
    exact List.append_nil _

/-- Joined by slashes, parts that are no components can stand behind a name. -/
theorem trailing_intercalate {ps : List (List Char)} (h : ∀ p ∈ ps, p = [] ∨ p = ['.']) :
    Trailing (['/'].intercalate ([] :: ps)) := by
  induction ps with
  | nil => exact .nil
  | cons p ps ih =>
    have more := ih fun q membership => h q (List.mem_cons_of_mem _ membership)
    rw [List.intercalate_cons_cons]
    rcases h p List.mem_cons_self with rfl | rfl
    · exact .slash more
    · rw [← List.append_nil ['.'], ← List.nil_append (_ :: ps), intercalate_cut]
      exact .dot more

theorem leading_intercalate (ps : List (List Char)) :
    Leading (['/'].intercalate (ps ++ [[]])) := by
  rcases List.eq_nil_or_concat ps with rfl | ⟨ps, p, rfl⟩
  · exact .inl rfl
  · right
    rw [List.concat_eq_append, List.append_assoc, List.singleton_append, ← List.append_nil p,
      intercalate_cut]
    exact ⟨_, rfl⟩

/-- The last component of a path stands where only slashes and single dots follow. -/
theorem getLast?_components_eq_some_iff :
    (components xs).getLast? = some name ↔
      ∃ front back, xs = front ++ name ++ back ∧ Leading front ∧ Trailing back ∧
        '/' ∉ name ∧ name ≠ [] ∧ name ≠ ['.'] := by
  constructor
  · intro last
    obtain ⟨others, cut⟩ := List.getLast?_eq_some_iff.1 last
    -- Some parts between the names are no names, but behind the last name all are such parts.
    obtain ⟨before, rest, parts, -, cutRest⟩ := List.filter_eq_append_iff.1 cut
    obtain ⟨skipped, behind, rfl, -, counts, noneBehind⟩ := List.filter_eq_cons_iff.1 cutRest
    have whole : xs.splitOn '/' = (before ++ skipped) ++ ([] ++ name) :: behind := by
      rw [← splitSlashes_eq_splitOn, parts, List.append_assoc, List.nil_append]
    have noSlash : '/' ∉ name := not_mem_of_mem_splitOn (l := xs) (by simp [whole])
    have blank : ∀ p ∈ behind, p = [] ∨ p = ['.'] := by
      intro p membership
      have skips := List.filter_eq_nil_iff.1 noneBehind p membership
      by_cases empty : p = []
      · exact .inl empty
      · simpa [empty] using skips
    refine ⟨['/'].intercalate (before ++ skipped ++ [[]]), ['/'].intercalate ([] :: behind), ?_,
      leading_intercalate _, trailing_intercalate blank, noSlash, ?_⟩
    · have atName : ['/'].intercalate (name :: behind) =
          name ++ ['/'].intercalate ([] :: behind) := by
        have cutName := intercalate_cut (a := '/') [] name [] behind
        rwa [List.nil_append, List.append_nil, List.nil_append, List.intercalate_singleton]
          at cutName
      rw [List.append_assoc, ← atName, ← intercalate_cut, ← whole, List.intercalate_splitOn]
    · simpa using counts
  · rintro ⟨front, back, rfl, leading, trailing, noSlash, visible, noDot⟩
    have alone := components_of_name noSlash visible noDot
    rw [trailing.components_append]
    rcases leading with rfl | ⟨above, rfl⟩
    · rw [List.nil_append, alone]
      rfl
    · rw [List.append_assoc, List.singleton_append, components_append_slash, alone]
      exact List.getLast?_concat

/-! ## The last dot of a name -/

theorem splitLastDot?_of_not_mem (h : '.' ∉ name) : splitLastDot? name = none := by
  have whole : name.reverse.takeWhile (· != '.') = name.reverse := by
    refine List.takeWhile_eq_self_iff.2 ?_
    intro c membership
    have other : c ≠ '.' := fun dot => h (dot ▸ List.mem_reverse.1 membership)
    simpa using other
  rw [splitLastDot?, whole]
  simp

theorem splitLastDot?_append (h : '.' ∉ suffix) (stem : List Char) :
    splitLastDot? (stem ++ '.' :: suffix) = some (stem, suffix) := by
  have behind : (stem ++ '.' :: suffix).reverse.takeWhile (· != '.') = suffix.reverse := by
    have others : ∀ c ∈ suffix.reverse, (c != '.') = true := by
      intro c membership
      have other : c ≠ '.' := fun dot => h (dot ▸ List.mem_reverse.1 membership)
      simpa using other
    rw [List.reverse_append, List.reverse_cons, List.append_assoc,
      List.takeWhile_append_of_pos others]
    simp
  have size : (stem ++ '.' :: suffix).length = stem.length + suffix.length + 1 := by
    simp [Nat.add_assoc]
  have kept : stem.length + suffix.length + 1 - suffix.length - 1 = stem.length := by omega
  rw [splitLastDot?, behind, List.reverse_reverse, size, if_pos (by omega), kept, List.take_left]

/-- A name is cut at a dot behind which there is no other. -/
theorem splitLastDot?_eq_some_iff :
    splitLastDot? name = some (stem, suffix) ↔ name = stem ++ '.' :: suffix ∧ '.' ∉ suffix := by
  constructor
  · intro found
    by_cases dot : '.' ∈ name
    · -- The last dot is the first one from the end.
      obtain ⟨behind, before, cut, last⟩ :=
        List.eq_append_cons_of_mem (List.mem_reverse.2 dot)
      have whole : name = before.reverse ++ '.' :: behind.reverse := by
        rw [← List.reverse_reverse name, cut]
        simp
      have noDot : '.' ∉ behind.reverse := fun inside => last (List.mem_reverse.1 inside)
      rw [whole, splitLastDot?_append noDot] at found
      cases found
      exact ⟨whole, noDot⟩
    · rw [splitLastDot?_of_not_mem dot] at found
      cases found
  · rintro ⟨rfl, noDot⟩
    exact splitLastDot?_append noDot stem

theorem nameExtension?_eq_some_iff :
    nameExtension? name = some suffix ↔
      ∃ stem, stem ≠ [] ∧ name = stem ++ '.' :: suffix ∧ '.' ∉ suffix := by
  rw [nameExtension?]
  constructor
  · intro found
    split at found
    · next stem suffix' cut =>
      split at found
      · cases found
      · next visible =>
        cases found
        exact ⟨stem, by simpa using visible, splitLastDot?_eq_some_iff.1 cut⟩
    · cases found
  · rintro ⟨stem, visible, cut⟩
    have kept : stem.isEmpty = false := by simpa using visible
    rw [splitLastDot?_eq_some_iff.2 cut]
    simp [kept]

/-! ## The extension of a path -/

theorem fileName?_eq_some_iff :
    fileName? xs = some name ↔ (components xs).getLast? = some name ∧ name ≠ ['.', '.'] := by
  rw [fileName?]
  split
  · next last =>
    rw [last]
    constructor
    · intro none
      cases none
    · rintro ⟨same, other⟩
      exact absurd (Option.some.inj same).symm other
  · next other =>
    constructor
    · intro found
      exact ⟨found, fun dots => other (dots ▸ found)⟩
    · exact And.left

/-- The last name of a path is not two dots, and it is something, then a dot, and then the
extension, in which there is no dot. -/
def HasExtension (path e : String) : Prop :=
  ∃ front stem back, path.toList = front ++ (stem ++ '.' :: e.toList) ++ back ∧
    Leading front ∧ Trailing back ∧ '/' ∉ stem ++ e.toList ∧ '.' ∉ e.toList ∧
    stem ≠ [] ∧ stem ++ '.' :: e.toList ≠ ['.', '.']

theorem extension?_eq_some_iff : extension? path = some e ↔ HasExtension path e := by
  have found : extension? path = some e ↔ extensionOf? path.toList = some e.toList := by
    rw [extension?, Option.map_eq_some_iff]
    constructor
    · rintro ⟨suffix, found, rfl⟩
      rwa [String.toList_ofList]
    · intro found
      exact ⟨_, found, String.ofList_toList⟩
  simp only [found, extensionOf?, Option.bind_eq_some_iff, fileName?_eq_some_iff,
    getLast?_components_eq_some_iff, nameExtension?_eq_some_iff]
  constructor
  · rintro ⟨_, ⟨⟨front, back, whole, leading, trailing, noSlash, -⟩, other⟩, stem, visible, rfl,
      noDot⟩
    refine ⟨front, stem, back, whole, leading, trailing, ?_, noDot, visible, other⟩
    simpa using noSlash
  · rintro ⟨front, stem, back, whole, leading, trailing, noSlash, noDot, visible, other⟩
    refine ⟨_, ⟨⟨front, back, whole, leading, trailing, ?_, ?_, ?_⟩, other⟩, stem, visible, rfl,
      noDot⟩
    · simpa using noSlash
    · simp
    · intro dot
      rcases List.append_eq_singleton_iff.1 dot with ⟨empty, -⟩ | ⟨-, more⟩
      · exact visible empty
      · cases more

theorem dot_not_mem_of_extension? (h : extension? path = some e) : '.' ∉ e.toList := by
  obtain ⟨_, _, _, _, _, _, _, noDot, _⟩ := extension?_eq_some_iff.1 h
  exact noDot

end Path

/-! ## Dots at the start -/

section Dots

variable {x y e : String}

/-- A text with dots before it. -/
def DotsBefore (x y : String) : Prop := ∃ n, x.toList = List.replicate n '.' ++ y.toList

theorem stripDots_eq_of_dotsBefore (h : DotsBefore x y) : stripDots x = stripDots y := by
  obtain ⟨n, whole⟩ := h
  have dropped : dropDots (List.replicate n '.' ++ y.toList) = dropDots y.toList := by
    refine List.dropWhile_append_of_pos ?_
    intro c membership
    simp [List.eq_of_mem_replicate membership]
  rw [stripDots, whole, dropped, stripDots]

theorem dotsBefore_stripDots (x : String) : DotsBefore x (stripDots x) := by
  refine ⟨(x.toList.takeWhile (· == '.')).length, ?_⟩
  have dots : x.toList.takeWhile (· == '.') =
      List.replicate (x.toList.takeWhile (· == '.')).length '.' := by
    refine List.eq_replicate_of_mem ?_
    intro c membership
    simpa using List.mem_takeWhile_imp membership
  rw [← dots, stripDots, String.toList_ofList, dropDots, List.takeWhile_append_dropWhile]

theorem stripDots_eq_iff (noDot : '.' ∉ e.toList) : stripDots x = e ↔ DotsBefore x e := by
  constructor
  · rintro rfl
    exact dotsBefore_stripDots x
  · intro before
    have kept : dropDots e.toList = e.toList := by
      refine List.dropWhile_eq_self_iff.2 ?_
      intro nonempty
      have other : e.toList[0] ≠ '.' := fun dot => noDot (dot ▸ List.getElem_mem nonempty)
      simpa using other
    rw [stripDots_eq_of_dotsBefore before, stripDots, kept, String.ofList_toList]

theorem stripDots_eq_stripDots_iff :
    stripDots x = stripDots y ↔ ∃ rest, DotsBefore x rest ∧ DotsBefore y rest := by
  constructor
  · intro same
    exact ⟨stripDots y, same ▸ dotsBefore_stripDots x, dotsBefore_stripDots y⟩
  · rintro ⟨rest, first, second⟩
    rw [stripDots_eq_of_dotsBefore first, stripDots_eq_of_dotsBefore second]

end Dots

end DocProse
