import DocProse.Json.Schema
import DocProse.Proofs.ObjectFields
import Mathlib.Data.List.Forall2

/-!
# Records inside of a value

The skeleton of a type says where in the values it is read from there are records
(`Skeleton`).  Everything else in such a value is taken whole.  A change of one
record, wherever it stands, is a change of the value (`Skeleton.Change`): of the
record itself, or of a record in one of its fields, in one of its elements when it is
given as a list, or in an element of a list.

Two changes of a record matter here.  Its object may have other fields besides the
declared ones (`OtherFields`), and the object may give way to the list of the values
of these, in the order of declaration (`Listed`).

A reader that goes by keys overlooks other fields (`Overlooks`), because reading a
field comes to the same before and after such a change (`Overlooks.readField`).  What
it returns can be said by the parts of the value alone (`HasParts`), which an object
and a list have in the same way, so that the list gives what the object gives
(`HasParts.change`).
-/

namespace DocProse.Json

/-- Where the records are in the values that a type is read from. -/
inductive Skeleton where
  /-- A value that is taken whole. -/
  | whole
  /-- A list. -/
  | list (element : Skeleton)
  /-- A record with its fields in the order of declaration. -/
  | record (fields : List (String × Skeleton))

/-- A change of one record in a value, at any depth.  What may happen to the record is said for the
keys of its fields. -/
inductive Skeleton.Change (edit : List String → Json → Json → Prop) :
    Skeleton → Json → Json → Prop where
  | here {fields : List (String × Skeleton)} {v v' : Json}
      (change : edit (fields.map (·.1)) v v') : Change edit (.record fields) v v'
  | field {fields : List (String × Skeleton)} {key : String} {s : Skeleton}
      {before behind : List (String × Json)} {v v' : Json}
      (declared : fields.lookup key = some s) (below : Change edit s v v') :
      Change edit (.record fields) (.obj (before ++ (key, v) :: behind))
        (.obj (before ++ (key, v') :: behind))
  | item {fields : List (String × Skeleton)} {f : String × Skeleton} {before behind : List Json}
      {v v' : Json} (declared : fields[before.length]? = some f) (below : Change edit f.2 v v') :
      Change edit (.record fields) (.arr (before ++ v :: behind)) (.arr (before ++ v' :: behind))
  | element {s : Skeleton} {before behind : List Json} {v v' : Json} (below : Change edit s v v') :
      Change edit (.list s) (.arr (before ++ v :: behind)) (.arr (before ++ v' :: behind))

/-- An object and another one that has the same fields among those with some keys. -/
inductive OtherFields (keys : List String) : Json → Json → Prop where
  | intro {o o' : List (String × Json)} (same : ∀ key ∈ keys, o'.lookup key = o.lookup key) :
      OtherFields keys (.obj o) (.obj o')

/-- An object with fields for some keys, and the list of the values of these. -/
inductive Listed (keys : List String) : Json → Json → Prop where
  | intro {o : List (String × Json)} {vs : List Json}
      (values : List.Forall₂ (fun key v => o.lookup key = some v) keys vs) :
      Listed keys (.obj o) (.arr vs)

variable {α ε : Type} {edit : List String → Json → Json → Prop} {read : Reader α} {s : Skeleton}
  {fields : List (String × Skeleton)} {key : String} {v v' : Json} {vs vs' : List Json}
  {o o' : List (String × Json)}

/-- One more field that is not declared makes an object with other fields. -/
theorem otherFields_insert {keys : List String} (undeclared : key ∉ keys) (v : Json)
    (o : List (String × Json)) : OtherFields keys (.obj o) (.obj (insert key v o)) := by
  refine .intro fun other declared => ?_
  have differs : other ≠ key := fun same => undeclared (same ▸ declared)
  rw [lookup_insert, if_neg differs]

/-! ## Changes inside of a record -/

theorem not_change_whole : ¬ Skeleton.whole.Change edit v v' := by
  intro change
  cases change

/-- What stands somewhere before and after a change: the same, or a value and the changed value. -/
inductive Kept (edit : List String → Json → Json → Prop) (s : Skeleton) :
    Option Json → Option Json → Prop where
  | same (u : Option Json) : Kept edit s u u
  | changed {v v' : Json} (change : s.Change edit v v') : Kept edit s (some v) (some v')

/-- The declared fields of an object before and after a change. -/
def KeptFields (edit : List String → Json → Json → Prop) (fields : List (String × Skeleton))
    (o o' : List (String × Json)) : Prop :=
  ∀ key s, fields.lookup key = some s → Kept edit s (o.lookup key) (o'.lookup key)

/-- The elements of a record that is given as a list, before and after a change. -/
structure KeptElements (edit : List String → Json → Json → Prop)
    (fields : List (String × Skeleton)) (vs vs' : List Json) : Prop where
  length : vs'.length = vs.length
  kept : ∀ (i : Nat) (f : String × Skeleton), fields[i]? = some f → Kept edit f.2 vs[i]? vs'[i]?

theorem keptFields_field {before behind : List (String × Json)}
    (declared : fields.lookup key = some s) (below : s.Change edit v v') :
    KeptFields edit fields (before ++ (key, v) :: behind) (before ++ (key, v') :: behind) := by
  intro other s' declared'
  rw [List.lookup_append, List.lookup_append]
  cases before.lookup other with
  | some u => exact .same _
  | none =>
    rw [Option.none_or, Option.none_or, lookup_cons_eq, lookup_cons_eq]
    split
    · next same =>
      rw [same, declared] at declared'
      cases declared'
      exact .changed below
    · exact .same _

theorem keptElements_item {f : String × Skeleton} {before behind : List Json}
    (declared : fields[before.length]? = some f) (below : f.2.Change edit v v') :
    KeptElements edit fields (before ++ v :: behind) (before ++ v' :: behind) where
  length := by simp
  kept i g declared' := by
    rcases Nat.lt_trichotomy i before.length with less | equal | more
    · rw [List.getElem?_append_left less, List.getElem?_append_left less]
      exact .same _
    · subst equal
      rw [declared] at declared'
      cases declared'
      simpa using Kept.changed below
    · obtain ⟨j, rfl⟩ := Nat.exists_eq_add_of_lt more
      have behindIt (u : Json) : (before ++ u :: behind)[before.length + j + 1]? = behind[j]? := by
        rw [Nat.add_assoc, List.getElem?_append_right (Nat.le_add_right _ _),
          Nat.add_sub_cancel_left, List.getElem?_cons_succ]
      rw [behindIt, behindIt]
      exact .same _

/-- A change of a record is a change of the record itself, or of something in it. -/
theorem change_record_cases (change : (Skeleton.record fields).Change edit v v') :
    edit (fields.map (·.1)) v v' ∨
    (∃ o o', v = .obj o ∧ v' = .obj o' ∧ KeptFields edit fields o o') ∨
    ∃ vs vs', v = .arr vs ∧ v' = .arr vs' ∧ KeptElements edit fields vs vs' := by
  cases change with
  | here change => exact .inl change
  | field declared below => exact .inr (.inl ⟨_, _, rfl, rfl, keptFields_field declared below⟩)
  | item declared below => exact .inr (.inr ⟨_, _, rfl, rfl, keptElements_item declared below⟩)

/-- A record whose fields are all taken whole can only change itself. -/
theorem edit_of_change (whole : ∀ f ∈ fields, f.2 = .whole)
    (change : (Skeleton.record fields).Change edit v v') : edit (fields.map (·.1)) v v' := by
  cases change with
  | here change => exact change
  | @field _ _ s _ _ _ _ declared below =>
    have taken : s = .whole := whole _ (mem_of_lookup declared)
    rw [taken] at below
    exact absurd below not_change_whole
  | item declared below =>
    rw [whole _ (List.mem_of_getElem? declared)] at below
    exact absurd below not_change_whole

theorem OtherFields.keptFields (h : OtherFields (fields.map (·.1)) (.obj o) (.obj o')) :
    KeptFields OtherFields fields o o' := by
  intro key s declared
  cases h with
  | intro same =>
    rw [same key (List.mem_map_of_mem (mem_of_lookup declared))]
    exact .same _

/-! ## Overlooking other fields -/

/-- A reader comes to the same for a value with other fields in its records. -/
def Overlooks (read : Json → α) (s : Skeleton) : Prop :=
  ∀ v v', s.Change OtherFields v v' → read v' = read v

theorem overlooks_whole (read : Json → α) : Overlooks read .whole :=
  fun _ _ change => absurd change not_change_whole

theorem Overlooks.list (h : Overlooks read s) : Overlooks (readList read) (.list s) := by
  intro _ _ change
  cases change with
  | @element _ before behind v v' below =>
    rw [readList, readList]
    induction before with
    | nil => rw [List.nil_append, List.nil_append, readElements, readElements, h v v' below]
    | cons u us ih => rw [List.cons_append, List.cons_append, readElements, readElements, ih]

theorem Overlooks.readField (h : Overlooks read s) (kept : KeptFields OtherFields fields o o')
    (key : String) (declared : fields.lookup key = some s) :
    readField o' key read = readField o key read := by
  have found := kept key s declared
  rw [Json.readField, Json.readField]
  generalize o.lookup key = u at found ⊢
  generalize o'.lookup key = u' at found ⊢
  cases found with
  | same => rfl
  | changed change => simp only [h _ _ change]

theorem Overlooks.readElement {f : String × Skeleton} (h : Overlooks read f.2)
    (kept : KeptElements OtherFields fields vs vs') (i : Nat) (declared : fields[i]? = some f)
    (wanted : Wanted) : readElement vs' i wanted read = readElement vs i wanted read := by
  have found := kept.kept i f declared
  rw [Json.readElement, Json.readElement]
  generalize vs[i]? = u at found ⊢
  generalize vs'[i]? = u' at found ⊢
  cases found with
  | same => rfl
  | changed change => simp only [h _ _ change]

theorem KeptElements.noMore (kept : KeptElements edit fields vs vs') (count : Nat) :
    noMore vs' count = noMore vs count := by
  rw [Json.noMore, Json.noMore, kept.length]

theorem overlooks_record
    (object : ∀ o o', KeptFields OtherFields fields o o' → read (.obj o') = read (.obj o))
    (row : ∀ vs vs', KeptElements OtherFields fields vs vs' → read (.arr vs') = read (.arr vs)) :
    Overlooks read (.record fields) := by
  intro v v' change
  rcases change_record_cases change with edit | ⟨o, o', rfl, rfl, kept⟩ | ⟨vs, vs', rfl, rfl, kept⟩
  · cases edit with
    | intro same => exact object _ _ (OtherFields.intro same).keptFields
  · exact object o o' kept
  · exact row vs vs' kept

/-! ## Reading from the parts of a value -/

/-- The parts of a record have some properties: the fields of an object by their keys, or the
elements of a list one by one. -/
def HasParts (parts : List (String × (Json → Prop))) : Json → Prop
  | .obj o => ∀ p ∈ parts, ∃ v, o.lookup p.1 = some v ∧ p.2 v
  | .arr vs => List.Forall₂ (fun p v => p.2 v) parts vs
  | _ => False

/-- A property that a value still has when objects in it give way to lists. -/
def OutlivesListing (s : Skeleton) (P : Json → Prop) : Prop :=
  ∀ v v', s.Change Listed v v' → P v → P v'

variable {parts : List (String × (Json → Prop))}

/-- The fields of a record and the properties of its parts, under the same keys. -/
def PartByPart (fields : List (String × Skeleton)) (parts : List (String × (Json → Prop))) : Prop :=
  List.Forall₂ (fun f p => f.1 = p.1 ∧ OutlivesListing f.2 p.2) fields parts

/-- Every part belongs to a field. -/
theorem PartByPart.exists_field {p : String × (Json → Prop)} (each : PartByPart fields parts)
    (membership : p ∈ parts) : ∃ f ∈ fields, f.1 = p.1 ∧ OutlivesListing f.2 p.2 := by
  induction each with
  | nil => cases membership
  | cons first _ ih =>
    rcases List.mem_cons.1 membership with rfl | behind
    · exact ⟨_, List.mem_cons_self, first⟩
    · obtain ⟨f, declared, found⟩ := ih behind
      exact ⟨f, List.mem_cons_of_mem _ declared, found⟩

theorem HasParts.of_listed (each : PartByPart fields parts)
    (values : List.Forall₂ (fun key v => o.lookup key = some v) (fields.map (·.1)) vs)
    (has : HasParts parts (.obj o)) : HasParts parts (.arr vs) := by
  rw [List.forall₂_map_left_iff] at values
  induction each generalizing vs with
  | nil =>
    cases values
    exact .nil
  | cons first _ ih =>
    cases values with
    | cons there behind =>
      obtain ⟨v, found, property⟩ := has _ List.mem_cons_self
      rw [← first.1, there] at found
      cases found
      exact .cons property (ih behind fun p membership => has p (List.mem_cons_of_mem _ membership))

theorem HasParts.of_keptFields (distinct : (fields.map (·.1)).Nodup)
    (each : PartByPart fields parts) (kept : KeptFields Listed fields o o')
    (has : HasParts parts (.obj o)) : HasParts parts (.obj o') := by
  intro p membership
  obtain ⟨f, declared, sameKey, outlives⟩ := each.exists_field membership
  obtain ⟨v, found, property⟩ := has p membership
  have before := kept f.1 f.2 (lookup_of_mem distinct declared)
  rw [sameKey, found] at before
  generalize o'.lookup p.1 = u at before ⊢
  cases before with
  | same => exact ⟨v, rfl, property⟩
  | changed change => exact ⟨_, rfl, outlives _ _ change property⟩

theorem HasParts.of_item {f : String × Skeleton} {before behind : List Json}
    (each : PartByPart fields parts) (declared : fields[before.length]? = some f)
    (below : f.2.Change Listed v v') (has : HasParts parts (.arr (before ++ v :: behind))) :
    HasParts parts (.arr (before ++ v' :: behind)) := by
  induction before generalizing fields parts with
  | nil =>
    cases each with
    | nil => cases declared
    | cons first _ =>
      cases has with
      | cons property others =>
        cases declared
        exact .cons (first.2 _ _ below property) others
  | cons u before ih =>
    cases each with
    | nil => cases declared
    | cons _ rest =>
      cases has with
      | cons property others => exact .cons property (ih rest declared others)

/-- A list in the place of an object has the parts that the object had. -/
theorem HasParts.change (distinct : (fields.map (·.1)).Nodup)
    (each : PartByPart fields parts) : OutlivesListing (.record fields) (HasParts parts) := by
  intro v v' change has
  cases change with
  | here change =>
    cases change with
    | intro values => exact has.of_listed each values
  | field declared below => exact has.of_keptFields distinct each (keptFields_field declared below)
  | item declared below => exact has.of_item each declared below

theorem outlives_whole (P : Json → Prop) : OutlivesListing .whole P :=
  fun _ _ change => absurd change not_change_whole

theorem outlives_record {P : Json → Prop} (readFrom : ∀ v, P v ↔ HasParts parts v)
    (distinct : (fields.map (·.1)).Nodup) (each : PartByPart fields parts) :
    OutlivesListing (.record fields) P := by
  intro v v' change has
  rw [readFrom] at has ⊢
  exact HasParts.change distinct each v v' change has

end DocProse.Json
