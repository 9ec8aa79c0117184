import DocProse.Proofs.Extensions
import DocProse.Walk

/-!
# Paths below a path

A directory shows an entry under its own path joined with the name of the entry
(`Path.join`).  This adds one component (`components_join`).  So a path below
another one has more components and is never the same path (`not_same_of_below`).

A walk from a directory gives only files below the path it started from,
provided that the directory tree holds proper names (`below_of_mem_walk`).
-/

namespace DocProse

namespace Path

variable {name path named : String}

/-! ## Names of entries -/

/-- What a directory can call an entry: no path of several names, and not itself or the directory
above. -/
structure IsName (name : String) : Prop where
  nonempty : name ≠ ""
  noSlash : '/' ∉ name.toList
  notSelf : name ≠ "."
  notParent : name ≠ ".."

instance (name : String) : Decidable (IsName name) :=
  decidable_of_iff (name ≠ "" ∧ '/' ∉ name.toList ∧ name ≠ "." ∧ name ≠ "..")
    ⟨fun h => ⟨h.1, h.2.1, h.2.2.1, h.2.2.2⟩,
      fun h => ⟨h.nonempty, h.noSlash, h.notSelf, h.notParent⟩⟩

theorem IsName.components_eq (h : IsName name) : components name.toList = [name.toList] := by
  have visible : name.toList ≠ [] := by simpa using h.nonempty
  have noDot : name.toList ≠ ['.'] := by
    intro same
    exact h.notSelf (String.toList_inj.1 same)
  exact components_of_name h.noSlash visible noDot

/-- The path of an entry has one component more than that of its directory. -/
theorem components_join (h : IsName name) (directory : String) :
    components (join directory name).toList = components directory.toList ++ [name.toList] := by
  rw [join]
  -- No slash is put after an empty path or after one that ends in a slash.
  split
  · next empty =>
    have none : directory = "" := by simpa using empty
    rw [h.components_eq, none]
    rfl
  · split
    · next slash =>
      obtain ⟨xs, ends⟩ := List.getLast?_eq_some_iff.1 (beq_iff_eq.1 slash)
      have nothing : components [] = [] := rfl
      rw [String.toList_append, ends, List.append_assoc, List.singleton_append,
        components_append_slash, components_append_slash, nothing, List.append_nil,
        h.components_eq]
    · rw [String.toList_append, String.toList_append, List.append_assoc]
      exact (components_append_slash directory.toList name.toList).trans
        (congrArg _ h.components_eq)

/-! ## Below -/

/-- A path that leads from another one down by one name or more. -/
inductive Below (named : String) : String → Prop where
  | entry {name : String} (isName : IsName name) : Below named (join named name)
  | deeper {path name : String} (above : Below named path) (isName : IsName name) :
      Below named (join path name)

theorem Below.length_components (h : Below named path) :
    (components named.toList).length < (components path.toList).length := by
  induction h with
  | entry isName =>
    rw [components_join isName, List.length_append]
    exact Nat.lt_succ_self _
  | deeper _ isName ih =>
    rw [components_join isName, List.length_append]
    exact Nat.lt_succ_of_lt ih

/-- A path below another one is a different path. -/
theorem not_same_of_below (h : Below named path) : same path named = false := by
  -- Two paths are the same when they have the same components.
  have longer := h.length_components
  rw [same, beq_eq_false_iff_ne]
  intro equal
  have components := congrArg (fun parts => parts.2.2.length) equal
  simp only [same.parts] at components
  omega

end Path

/-- A tree in which every entry has a proper name. -/
inductive FileTree.WellNamed : FileTree → Prop where
  | file (text : Option String) : WellNamed (.file text)
  | directory {es : List (String × FileTree)}
      (names : ∀ e ∈ es, Path.IsName e.1) (below : ∀ e ∈ es, e.2.WellNamed) :
      WellNamed (.directory es)

namespace Visit

/-! ## Walks -/

mutual

/-- A walk from a place below a path finds files below that path. -/
theorem below_of_mem_ofTree {named path p : String} {content : Except FileFault String}
    {levels : List Ignore.Level} (t : FileTree) (names : t.WellNamed)
    (below : Path.Below named path) (h : .file p content ∈ ofTree levels path t) :
    Path.Below named p := by
  cases t with
  | file text =>
    rw [ofTree, List.mem_singleton] at h
    cases h
    exact below
  | directory es =>
    rw [ofTree, List.mem_cons] at h
    cases names with
    | directory names inside =>
      rcases h with first | later
      · cases first
      · exact below_of_mem_ofEntries es names inside (.inr below) later

theorem below_of_mem_ofEntries {named path p : String} {content : Except FileFault String}
    {levels : List Ignore.Level} (es : List (String × FileTree))
    (names : ∀ e ∈ es, Path.IsName e.1) (inside : ∀ e ∈ es, e.2.WellNamed)
    (reached : path = named ∨ Path.Below named path)
    (h : .file p content ∈ ofEntries levels path es) : Path.Below named p := by
  cases es with
  | nil =>
    rw [ofEntries] at h
    cases h
  | cons e es =>
    obtain ⟨name, t⟩ := e
    rw [ofEntries, List.mem_append] at h
    obtain ⟨isName, laterNames⟩ := List.forall_mem_cons.1 names
    obtain ⟨namesBelow, laterBelow⟩ := List.forall_mem_cons.1 inside
    -- The directory is the path itself or below it, so its entry is below it either way.
    have here : Path.Below named (Path.join path name) := by
      rcases reached with rfl | below
      · exact .entry isName
      · exact .deeper below isName
    rcases h with first | later
    · split at first
      · cases first
      · exact below_of_mem_ofTree t namesBelow here first
    · exact below_of_mem_ofEntries es laterNames laterBelow reached later

end

/-- A walk from a directory gives files below the path that it started from. -/
theorem below_of_mem_walk {w : Workspace} {named p : String} {content : Except FileFault String}
    {place : Place} (resolved : w.resolve named = some place) {es : List (String × FileTree)}
    (directory : place.here = .directory es) (names : place.here.WellNamed)
    (h : .file p content ∈ walk w named) : Path.Below named p := by
  rw [walk] at h
  split at h
  · cases List.mem_singleton.1 h
  · rw [directory] at names
    simp only [resolved, directory, ofTree, List.mem_cons] at h
    cases names with
    | directory names inside =>
      rcases h with first | later
      · cases first
      · exact below_of_mem_ofEntries es names inside (.inl rfl) later

end Visit

end DocProse
