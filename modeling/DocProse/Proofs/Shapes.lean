import DocProse.Json.Schema
import Mathlib.Data.List.Forall2

/-!
# Shapes of JSON values

The shape of a type says which values it is read from (`Shape.Accepts`) and what is
wrong with each other value (`Shape.Blames`).  A record is an object in which all
declared keys have values of their shapes, or the list of such values in the order of
declaration.  Of several faults in an object the one at the smallest key counts, and
a key that is missing counts only if the values that are there are accepted, the
first one declared before all others.

For each kind of value there is an equivalence that says what a shape accepts and
blames there, such as `accepts_object_iff` and `blames_object_iff`.
-/

namespace DocProse.Json

/-- The shape of the values that a type is read from. -/
inductive Shape where
  | text
  | size
  | tag (names : List String)
  | pair (element : Shape)
  | list (element : Shape)
  | record (name : String) (fields : List (String × Shape))

namespace Shape

/-- What a value is told that is of another kind. -/
def wanted : Shape → Wanted
  | text => .text
  | size => .size
  | tag _ => .tag
  | pair _ => .pair
  | list _ => .list
  | record name _ => .record name

/-- A value of a kind that a shape looks into. -/
def OfKind : Shape → Json → Prop
  | text, .str _ | size, .int _ => True
  | tag _, .str _ | tag _, .obj _ => True
  | pair _, .arr _ | list _, .arr _ => True
  | record _ _, .arr _ | record _ _, .obj _ => True
  | _, _ => False

/-- The shapes of elements that have to be there, and what a list is told that has not all. -/
def row? : Shape → Option (Wanted × List Shape)
  | pair s => some (.pair, [s, s])
  | record name fields => some (.fields name fields.length, fields.map (·.2))
  | _ => none

/-- The values that a shape accepts. -/
inductive Accepts : Shape → Json → Prop where
  | text (t : String) : Accepts .text (.str t)
  | size {n : Nat} (fits : n ≤ maxWord) : Accepts .size (.int n)
  | name {names : List String} {name : String} (known : name ∈ names) :
      Accepts (.tag names) (.str name)
  | key {names : List String} {name : String} (known : name ∈ names) :
      Accepts (.tag names) (.obj [(name, .null)])
  | list {s : Shape} {vs : List Json} (each : ∀ v ∈ vs, Accepts s v) : Accepts (.list s) (.arr vs)
  | row {shape : Shape} {w : Wanted} {ss : List Shape} {vs : List Json}
      (row : shape.row? = some (w, ss)) (each : List.Forall₂ Accepts ss vs) :
      Accepts shape (.arr vs)
  | object {name : String} {fields : List (String × Shape)} {o : List (String × Json)}
      (present : ∀ f ∈ fields, (o.lookup f.1).isSome)
      (each : ∀ f ∈ fields, ∀ v, o.lookup f.1 = some v → Accepts f.2 v) :
      Accepts (.record name fields) (.obj o)

mutual

/-- What is wrong with a value that a shape does not accept. -/
inductive Blames : Shape → Json → ReadError → Prop where
  | otherKind {shape : Shape} {v : Json} (other : ¬ shape.OfKind v) :
      Blames shape v (.wrongKind v shape.wanted)
  | negative {n : Int} (below : n < 0) : Blames .size (.int n) (.negative n)
  | large {n : Nat} (large : maxWord < n) : Blames .size (.int n) (.wrongKind (.int n) .size)
  | name {names : List String} {name : String} (unknown : name ∉ names) :
      Blames (.tag names) (.str name) (.unknownTag name names)
  | key {names : List String} {name : String} {content : Json} (unknown : name ∉ names) :
      Blames (.tag names) (.obj [(name, content)]) (.unknownTag name names)
  | content {names : List String} {name : String} {content : Json} (known : name ∈ names)
      (other : content ≠ .null) :
      Blames (.tag names) (.obj [(name, content)]) (.wrongKind content .nothing)
  | notOneKey {names : List String} {o : List (String × Json)} (other : o.length ≠ 1) :
      Blames (.tag names) (.obj o) .notOneKey
  | element {s : Shape} {before behind : List Json} {v : Json} {e : ReadError}
      (fine : ∀ u ∈ before, s.Accepts u) (bad : Blames s v e) :
      Blames (.list s) (.arr (before ++ v :: behind)) e
  | row {shape : Shape} {w : Wanted} {ss : List Shape} {vs : List Json} {e : ReadError}
      (row : shape.row? = some (w, ss)) (bad : BlamesRow w 0 ss vs e) : Blames shape (.arr vs) e
  /-- The smallest key with a value that is not accepted. -/
  | field {name : String} {fields : List (String × Shape)} {o : List (String × Json)}
      {f : String × Shape} {v : Json} {e : ReadError} (declared : f ∈ fields)
      (there : o.lookup f.1 = some v) (bad : Blames f.2 v e)
      (fine : ∀ g ∈ fields, g.1 < f.1 → ∀ u, o.lookup g.1 = some u → g.2.Accepts u) :
      Blames (.record name fields) (.obj o) e
  /-- The first key that is missing, where all values that are there are accepted. -/
  | missing {name : String} {before behind : List (String × Shape)} {o : List (String × Json)}
      {f : String × Shape}
      (fine : ∀ g ∈ before ++ f :: behind, ∀ u, o.lookup g.1 = some u → g.2.Accepts u)
      (there : ∀ g ∈ before, (o.lookup g.1).isSome) (absent : o.lookup f.1 = none) :
      Blames (.record name (before ++ f :: behind)) (.obj o) (.missing f.1)

/-- What is wrong with the elements from an index on, one for each shape. -/
inductive BlamesRow : Wanted → Nat → List Shape → List Json → ReadError → Prop where
  | here {w : Wanted} {i : Nat} {s : Shape} {ss : List Shape} {v : Json} {vs : List Json}
      {e : ReadError} (bad : Blames s v e) : BlamesRow w i (s :: ss) (v :: vs) e
  | later {w : Wanted} {i : Nat} {s : Shape} {ss : List Shape} {v : Json} {vs : List Json}
      {e : ReadError} (fine : s.Accepts v) (bad : BlamesRow w (i + 1) ss vs e) :
      BlamesRow w i (s :: ss) (v :: vs) e
  | short {w : Wanted} {i : Nat} {s : Shape} {ss : List Shape} :
      BlamesRow w i (s :: ss) [] (.tooShort i w)
  | long {w : Wanted} {i : Nat} {v : Json} {vs : List Json} :
      BlamesRow w i [] (v :: vs) (.tooLong (i + (v :: vs).length))

end

variable {s shape : Shape} {v content : Json} {vs : List Json} {o : List (String × Json)}
  {names : List String} {name t : String} {fields : List (String × Shape)} {w : Wanted}
  {ss : List Shape} {e : ReadError} {n : Nat}

/-! ## Kinds -/

theorem Accepts.ofKind (h : shape.Accepts v) : shape.OfKind v := by
  cases h with
  | row row =>
    cases shape with
    | pair s => trivial
    | record name fields => trivial
    | _ => cases row
  | _ => trivial

theorem Blames.eq_wrongKind (h : shape.Blames v e) (other : ¬ shape.OfKind v) :
    e = .wrongKind v shape.wanted := by
  cases h with
  | otherKind => rfl
  | row row =>
    cases shape with
    | pair s => exact absurd trivial other
    | record name fields => exact absurd trivial other
    | _ => cases row
  | _ => exact absurd trivial other

/-! ## Texts, numbers and tags -/

theorem not_blames_text : ¬ Shape.text.Blames (.str t) e := by
  intro bad
  cases bad with
  | otherKind other => exact other trivial

theorem accepts_size_iff : Shape.size.Accepts (.int n) ↔ n ≤ maxWord := by
  constructor
  · intro accepted
    cases accepted with
    | size fits => exact fits
  · exact .size

theorem blames_size_iff : Shape.size.Blames (.int n) e ↔
    maxWord < n ∧ e = .wrongKind (.int n) .size := by
  constructor
  · intro bad
    cases bad with
    | otherKind other => exact absurd trivial other
    | negative below => exact absurd below (by simp)
    | large large => exact ⟨large, rfl⟩
  · rintro ⟨large, rfl⟩
    exact .large large

theorem not_accepts_negative : ¬ Shape.size.Accepts (.int (.negSucc n)) := by
  intro accepted
  cases accepted

theorem blames_negative_iff :
    Shape.size.Blames (.int (.negSucc n)) e ↔ e = .negative (.negSucc n) := by
  constructor
  · intro bad
    cases bad with
    | otherKind other => exact absurd trivial other
    | negative => rfl
  · rintro rfl
    exact .negative (Int.negSucc_lt_zero n)

theorem accepts_name_iff : (Shape.tag names).Accepts (.str t) ↔ t ∈ names := by
  constructor
  · intro accepted
    cases accepted with
    | name known => exact known
  · exact .name

theorem blames_name_iff :
    (Shape.tag names).Blames (.str t) e ↔ t ∉ names ∧ e = .unknownTag t names := by
  constructor
  · intro bad
    cases bad with
    | otherKind other => exact absurd trivial other
    | name unknown => exact ⟨unknown, rfl⟩
  · rintro ⟨unknown, rfl⟩
    exact .name unknown

theorem accepts_key_iff :
    (Shape.tag names).Accepts (.obj [(t, content)]) ↔ t ∈ names ∧ content = .null := by
  constructor
  · intro accepted
    cases accepted with
    | key known => exact ⟨known, rfl⟩
  · rintro ⟨known, rfl⟩
    exact .key known

theorem blames_key_iff :
    (Shape.tag names).Blames (.obj [(t, content)]) e ↔
      t ∉ names ∧ e = .unknownTag t names ∨
        (t ∈ names ∧ content ≠ .null) ∧ e = .wrongKind content .nothing := by
  constructor
  · intro bad
    cases bad with
    | otherKind other => exact absurd trivial other
    | key unknown => exact .inl ⟨unknown, rfl⟩
    | content known other => exact .inr ⟨⟨known, other⟩, rfl⟩
    | notOneKey other => exact absurd rfl other
  · rintro (⟨unknown, rfl⟩ | ⟨⟨known, other⟩, rfl⟩)
    · exact .key unknown
    · exact .content known other

theorem not_accepts_keys (h : o.length ≠ 1) : ¬ (Shape.tag names).Accepts (.obj o) := by
  intro accepted
  cases accepted with
  | key => exact h rfl

theorem blames_keys_iff (h : o.length ≠ 1) :
    (Shape.tag names).Blames (.obj o) e ↔ e = .notOneKey := by
  constructor
  · intro bad
    cases bad with
    | otherKind other => exact absurd trivial other
    | key => exact absurd rfl h
    | content => exact absurd rfl h
    | notOneKey => rfl
  · rintro rfl
    exact .notOneKey h

/-! ## Lists and rows -/

theorem accepts_list_iff : (Shape.list s).Accepts (.arr vs) ↔ ∀ v ∈ vs, s.Accepts v := by
  constructor
  · intro accepted
    cases accepted with
    | list each => exact each
    | row row => cases row
  · exact .list

theorem blames_list_iff :
    (Shape.list s).Blames (.arr vs) e ↔
      ∃ before v behind, vs = before ++ v :: behind ∧ (∀ u ∈ before, s.Accepts u) ∧
        s.Blames v e := by
  constructor
  · intro bad
    cases bad with
    | otherKind other => exact absurd trivial other
    | element fine bad => exact ⟨_, _, _, rfl, fine, bad⟩
    | row row => cases row
  · rintro ⟨before, v, behind, rfl, fine, bad⟩
    exact .element fine bad

theorem accepts_row_iff (row : shape.row? = some (w, ss)) :
    shape.Accepts (.arr vs) ↔ List.Forall₂ Accepts ss vs := by
  constructor
  · intro accepted
    cases accepted with
    | list => cases row
    | row row' each =>
      rw [row] at row'
      cases row'
      exact each
  · exact .row row

theorem blames_row_iff (row : shape.row? = some (w, ss)) :
    shape.Blames (.arr vs) e ↔ BlamesRow w 0 ss vs e := by
  constructor
  · intro bad
    cases bad with
    | otherKind other =>
      cases shape with
      | pair s => exact absurd trivial other
      | record name fields => exact absurd trivial other
      | _ => cases row
    | element => cases row
    | row row' bad =>
      rw [row] at row'
      cases row'
      exact bad
  · exact .row row

theorem blamesRow_nil_iff {i : Nat} :
    BlamesRow w i [] vs e ↔ vs ≠ [] ∧ e = .tooLong (i + vs.length) := by
  constructor
  · intro bad
    cases bad with
    | long => exact ⟨List.cons_ne_nil _ _, rfl⟩
  · rintro ⟨more, rfl⟩
    obtain ⟨v, vs, rfl⟩ := List.exists_cons_of_ne_nil more
    exact .long

theorem blamesRow_cons_nil_iff {i : Nat} :
    BlamesRow w i (s :: ss) [] e ↔ e = .tooShort i w := by
  constructor
  · intro bad
    cases bad with
    | short => rfl
  · rintro rfl
    exact .short

theorem blamesRow_cons_cons_iff {i : Nat} :
    BlamesRow w i (s :: ss) (v :: vs) e ↔
      s.Blames v e ∨ s.Accepts v ∧ BlamesRow w (i + 1) ss vs e := by
  constructor
  · intro bad
    cases bad with
    | here bad => exact .inl bad
    | later fine bad => exact .inr ⟨fine, bad⟩
  · rintro (bad | ⟨fine, bad⟩)
    · exact .here bad
    · exact .later fine bad

/-! ## Objects -/

theorem accepts_object_iff :
    (Shape.record name fields).Accepts (.obj o) ↔
      (∀ f ∈ fields, (o.lookup f.1).isSome) ∧
        ∀ f ∈ fields, ∀ v, o.lookup f.1 = some v → f.2.Accepts v := by
  constructor
  · intro accepted
    cases accepted with
    | object present each => exact ⟨present, each⟩
  · rintro ⟨present, each⟩
    exact .object present each

/-- An object is blamed for the smallest key with a value that is not accepted, or else for the
first key that is missing. -/
theorem blames_object_iff :
    (Shape.record name fields).Blames (.obj o) e ↔
      (∃ f ∈ fields, (∃ v, o.lookup f.1 = some v ∧ f.2.Blames v e) ∧
        ∀ g ∈ fields, g.1 < f.1 → ∀ v, o.lookup g.1 = some v → g.2.Accepts v) ∨
      (∀ f ∈ fields, ∀ v, o.lookup f.1 = some v → f.2.Accepts v) ∧
        ∃ before f behind, fields = before ++ f :: behind ∧
          (∀ g ∈ before, (o.lookup g.1).isSome) ∧ o.lookup f.1 = none ∧ e = .missing f.1 := by
  constructor
  · intro bad
    cases bad with
    | otherKind other => exact absurd trivial other
    | field declared there bad fine => exact .inl ⟨_, declared, ⟨_, there, bad⟩, fine⟩
    | missing fine there absent => exact .inr ⟨fine, _, _, _, rfl, there, absent, rfl⟩
  · rintro (⟨f, declared, ⟨v, there, bad⟩, fine⟩ |
      ⟨fine, before, f, behind, rfl, there, absent, rfl⟩)
    · exact .field declared there bad fine
    · exact .missing fine there absent

end Shape

end DocProse.Json
