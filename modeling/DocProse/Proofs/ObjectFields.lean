import DocProse.Json.Value

/-!
# Fields of objects

An object takes its fields in one after another and keeps them in order.  Putting one
in changes what its key leads to and nothing else (`lookup_insert`).  So an object made
of fields with different keys has them all (`lookup_foldl_insert`), and one that is made
of fields in order has them as they are (`object_of_ascending`).
-/

namespace DocProse.Json

variable {key other : String} {v : Json} {o fields : List (String × Json)}

theorem lookup_cons_eq (key other : String) (v : Json) (o : List (String × Json)) :
    ((key, v) :: o).lookup other = if other = key then some v else o.lookup other := by
  rw [List.lookup_cons]
  by_cases same : other = key
  · simp [same]
  · simp [same, beq_eq_false_iff_ne.2 same]

/-- What a key leads to is among the fields. -/
theorem mem_of_lookup {β : Type} {fields : List (String × β)} {b : β}
    (found : fields.lookup key = some b) : (key, b) ∈ fields := by
  induction fields with
  | nil => cases found
  | cons g fields ih =>
    rw [List.lookup_cons] at found
    split at found
    · next same =>
      cases found
      rw [beq_iff_eq.1 same]
      exact List.mem_cons_self
    · exact List.mem_cons_of_mem g (ih found)

/-- Among fields with different keys each is found by its key. -/
theorem lookup_of_mem {β : Type} {fields : List (String × β)} {f : String × β}
    (distinct : (fields.map (·.1)).Nodup) (membership : f ∈ fields) :
    fields.lookup f.1 = some f.2 := by
  induction fields with
  | nil => cases membership
  | cons g fields ih =>
    rw [List.map_cons, List.nodup_cons] at distinct
    rcases List.mem_cons.1 membership with rfl | behind
    · exact List.lookup_cons_self
    · have differs : f.1 ≠ g.1 := fun same =>
        distinct.1 (same ▸ List.mem_map_of_mem behind)
      rw [List.lookup_cons, beq_eq_false_iff_ne.2 differs]
      exact ih distinct.2 behind

theorem lookup_insert (key other : String) (v : Json) (o : List (String × Json)) :
    (insert key v o).lookup other = if other = key then some v else o.lookup other := by
  induction o with
  | nil => exact lookup_cons_eq key other v []
  | cons f o ih =>
    obtain ⟨k, u⟩ := f
    rw [insert]
    split
    · exact lookup_cons_eq key other v _
    · split
      · next same =>
        subst same
        simp only [lookup_cons_eq]
        split <;> rfl
      · next differs =>
        rw [lookup_cons_eq, lookup_cons_eq, ih]
        by_cases atKey : other = key
        · subst atKey
          simp [differs]
        · simp [atKey]

/-- Fields with different keys, put into an object one after another, are found in it by their
keys. -/
theorem lookup_foldl_insert (distinct : (fields.map (·.1)).Nodup) (o : List (String × Json))
    (key : String) :
    (fields.foldl (fun o (k, v) => insert k v o) o).lookup key =
      (fields.lookup key).or (o.lookup key) := by
  induction fields generalizing o with
  | nil => rfl
  | cons f fields ih =>
    obtain ⟨k, v⟩ := f
    rw [List.map_cons, List.nodup_cons] at distinct
    rw [List.foldl_cons, ih distinct.2, lookup_insert, lookup_cons_eq]
    split
    · next same =>
      subst same
      -- The key does not come again, so nothing takes the place of the value.
      have absent : fields.lookup key = none := by
        refine Option.eq_none_iff_forall_ne_some.2 fun u found => distinct.1 ?_
        exact List.mem_map.2 ⟨(key, u), mem_of_lookup found, rfl⟩
      rw [absent, Option.none_or, Option.some_or]
    · rfl

/-! ## Fields in order -/

/-- A field whose key is greater than all others is put in at the end. -/
theorem insert_of_forall_lt (greatest : ∀ f ∈ o, f.1 < key) : insert key v o = o ++ [(key, v)] := by
  induction o with
  | nil => rfl
  | cons f o ih =>
    have less : f.1 < key := greatest f List.mem_cons_self
    have differs : key ≠ f.1 := by
      rintro rfl
      exact String.lt_irrefl _ less
    rw [insert, if_neg (String.lt_asymm less), if_neg differs,
      ih fun g behind => greatest g (List.mem_cons_of_mem f behind)]
    rfl

theorem foldl_insert_of_ascending (ascending : (o ++ fields).Pairwise fun f g => f.1 < g.1) :
    fields.foldl (fun o (k, v) => insert k v o) o = o ++ fields := by
  induction fields generalizing o with
  | nil => rw [List.foldl_nil, List.append_nil]
  | cons f fields ih =>
    obtain ⟨k, u⟩ := f
    have greatest : ∀ g ∈ o, g.1 < k := fun g inside =>
      (List.pairwise_append.1 ascending).2.2 g inside _ List.mem_cons_self
    rw [List.append_cons] at ascending
    rw [List.append_cons o, ← ih ascending, ← insert_of_forall_lt greatest]
    rfl

/-- Fields in ascending order are the object that is made of them. -/
theorem object_of_ascending (ascending : fields.Pairwise fun f g => f.1 < g.1) :
    object fields = .obj fields := by
  rw [object, foldl_insert_of_ascending (o := []) ascending, List.nil_append]

end DocProse.Json
