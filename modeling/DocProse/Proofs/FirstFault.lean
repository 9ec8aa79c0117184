import DocProse.Proofs.Shapes

/-!
# Readers that follow a shape

A reader follows a shape when it returns something for the values that the shape
accepts, and fails with what it blames for all others (`Reads`).

Readers are made of steps, each of which passes or has a fault (`Step`), and of several
steps the first that does not pass decides (`Fails`).  A record is read from an object by
its fields in ascending order of their keys, and then by their presence in the order of
declaration (`takes_object`).  It is read from a list by its elements and then by their
number (`takes_row`).  So a reader of records is put together from readers that follow
the shapes of the fields (`reads_record`).
-/

namespace DocProse.Json

/-! ## Steps -/

/-- A part of a computation, which passes or has a fault. -/
structure Step where
  Passes : Prop
  Fault : ReadError → Prop

/-- The fault of the first step that does not pass. -/
def Fails : List Step → ReadError → Prop
  | [], _ => False
  | s :: ss, e => s.Fault e ∨ s.Passes ∧ Fails ss e

/-- Steps one after another. -/
def inOrder (ss : List Step) : Step := ⟨∀ s ∈ ss, s.Passes, Fails ss⟩

variable {α β : Type} {m : Except ReadError α} {e : ReadError}

section Steps

variable {s t : Step} {ss ts : List Step}

theorem fails_append : Fails (ss ++ ts) e ↔ Fails ss e ∨ (∀ s ∈ ss, s.Passes) ∧ Fails ts e := by
  induction ss with
  | nil => simp [Fails]
  | cons s ss ih =>
    simp only [List.cons_append, Fails, ih, List.forall_mem_cons]
    constructor
    · rintro (bad | ⟨fine, bad | ⟨all, bad⟩⟩)
      · exact .inl (.inl bad)
      · exact .inl (.inr ⟨fine, bad⟩)
      · exact .inr ⟨⟨fine, all⟩, bad⟩
    · rintro ((bad | ⟨fine, bad⟩) | ⟨⟨fine, all⟩, bad⟩)
      · exact .inl bad
      · exact .inr ⟨fine, .inl bad⟩
      · exact .inr ⟨fine, .inr ⟨all, bad⟩⟩

theorem fails_map_iff {step : β → Step} {bs : List β} :
    Fails (bs.map step) e ↔
      ∃ before b behind, bs = before ++ b :: behind ∧ (∀ a ∈ before, (step a).Passes) ∧
        (step b).Fault e := by
  induction bs with
  | nil => simp [Fails]
  | cons b bs ih =>
    rw [List.map_cons, Fails, ih]
    constructor
    · rintro (bad | ⟨fine, before, c, behind, rfl, all, bad⟩)
      · exact ⟨[], b, bs, rfl, by simp, bad⟩
      · exact ⟨b :: before, c, behind, rfl, List.forall_mem_cons.2 ⟨fine, all⟩, bad⟩
    · rintro ⟨before, c, behind, cut, all, bad⟩
      cases before with
      | nil =>
        cases cut
        exact .inl bad
      | cons a before =>
        cases cut
        obtain ⟨fine, all⟩ := List.forall_mem_cons.1 all
        exact .inr ⟨fine, before, c, behind, rfl, all, bad⟩

/-- A computation returns where a step passes, and fails with its fault. -/
structure Takes (m : Except ReadError α) (s : Step) : Prop where
  ok_iff : (∃ x, m = .ok x) ↔ s.Passes
  error_iff : ∀ e, m = .error e ↔ s.Fault e

theorem takes_ok {x : α} (passes : s.Passes) (none : ∀ e, ¬ s.Fault e) : Takes (.ok x) s where
  ok_iff := ⟨fun _ => passes, fun _ => ⟨x, rfl⟩⟩
  error_iff e := ⟨nofun, fun fault => absurd fault (none e)⟩

theorem takes_error (stops : ¬ s.Passes) (only : ∀ e', s.Fault e' ↔ e' = e) :
    Takes (.error e : Except ReadError α) s where
  ok_iff := ⟨nofun, fun passes => absurd passes stops⟩
  error_iff e' := by
    rw [only, Except.error.injEq]
    exact eq_comm

theorem Takes.done (x : α) : Takes (.ok x) (inOrder []) :=
  takes_ok nofun fun _ => id

theorem Takes.congr (h : Takes m s) (passes : s.Passes ↔ t.Passes)
    (fault : ∀ e, s.Fault e ↔ t.Fault e) : Takes m t :=
  ⟨h.ok_iff.trans passes, fun e => (h.error_iff e).trans (fault e)⟩

theorem Takes.map {f : α → β} (h : Takes m s) : Takes (m.map f) s where
  ok_iff := by
    rw [← h.ok_iff]
    cases m <;> simp [Except.map]
  error_iff e := by
    rw [← h.error_iff]
    cases m <;> simp [Except.map]

-- The rest may use what the first step returned: whether a field has been read tells whether
-- it is there.
theorem Takes.bind {f : α → Except ReadError β} (first : Takes m s)
    (rest : ∀ x, m = .ok x → Takes (f x) (inOrder ss)) :
    Takes (m >>= f) (inOrder (s :: ss)) := by
  cases m with
  | error e =>
    have stops : ¬ s.Passes := by
      intro passes
      obtain ⟨x, same⟩ := first.ok_iff.2 passes
      cases same
    have only (e' : ReadError) : s.Fault e' ↔ e' = e := by
      rw [← first.error_iff, Except.error.injEq]
      exact eq_comm
    refine takes_error ?_ fun e' => ?_
    · simp [inOrder, stops]
    · simp [inOrder, Fails, stops, only]
  | ok x =>
    have passes : s.Passes := first.ok_iff.1 ⟨x, rfl⟩
    have none (e : ReadError) : ¬ s.Fault e := by
      intro fault
      cases (first.error_iff e).2 fault
    refine (rest x rfl).congr ?_ fun e => ?_
    · simp [inOrder, passes]
    · simp [inOrder, Fails, passes, none]

end Steps

/-! ## Readers that follow a shape -/

/-- A value under a shape. -/
def Shape.step (shape : Shape) (v : Json) : Step := ⟨shape.Accepts v, shape.Blames v⟩

/-- A reader returns something for the values that a shape accepts, and fails with what the shape
blames on all others. -/
structure Reads (read : Reader α) (shape : Shape) : Prop where
  ok_iff : ∀ v, (∃ x, read v = .ok x) ↔ shape.Accepts v
  error_iff : ∀ v e, read v = .error e ↔ shape.Blames v e

theorem Reads.takes {read : Reader α} {shape : Shape} (h : Reads read shape) (v : Json) :
    Takes (read v) (shape.step v) :=
  ⟨h.ok_iff v, h.error_iff v⟩

theorem reads_of_takes {read : Reader α} {shape : Shape}
    (h : ∀ v, Takes (read v) (shape.step v)) : Reads read shape :=
  ⟨fun v => (h v).ok_iff, fun v => (h v).error_iff⟩

variable {read : Reader α} {shape s : Shape} {v : Json} {vs us : List Json}
  {o : List (String × Json)} {w : Wanted} {shapes : List Shape} {name key : String}
  {fields byKey : List (String × Shape)} {i : Nat}

@[simp] theorem Shape.passes_step : (shape.step v).Passes = shape.Accepts v := rfl

@[simp] theorem Shape.fault_step : (shape.step v).Fault e = shape.Blames v e := rfl

theorem takes_wrongKind (shape : Shape) (v : Json) (other : ¬ shape.OfKind v) :
    Takes (.error (.wrongKind v shape.wanted) : Except ReadError α) (shape.step v) := by
  refine takes_error (fun accepted => other accepted.ofKind) fun e => ?_
  constructor
  · exact fun bad => bad.eq_wrongKind other
  · rintro rfl
    exact .otherKind other

/-! ### Texts, numbers and tags -/

theorem reads_text : Reads readText .text := by
  apply reads_of_takes
  intro v
  cases v with
  | str t => exact takes_ok (.text t) fun _ => Shape.not_blames_text
  | _ => exact takes_wrongKind .text _ id

theorem reads_size : Reads readSize .size := by
  apply reads_of_takes
  intro v
  cases v with
  | int n =>
    cases n with
    | ofNat n =>
      rw [readSize]
      split
      · next fits =>
        refine takes_ok (.size fits) fun e bad => ?_
        exact absurd (Shape.blames_size_iff.1 bad).1 (Nat.not_lt_of_ge fits)
      · next large =>
        refine takes_error (fun accepted => large (Shape.accepts_size_iff.1 accepted)) fun e => ?_
        exact Shape.blames_size_iff.trans (and_iff_right (Nat.lt_of_not_ge large))
    | negSucc n => exact takes_error Shape.not_accepts_negative fun _ => Shape.blames_negative_iff
  | _ => exact takes_wrongKind .size _ id

theorem takes_find (tags : List (String × α)) (t : String) :
    Takes (readTag.find tags t) ((Shape.tag (tags.map (·.1))).step (.str t)) := by
  have known : t ∈ tags.map (·.1) ↔ (tags.lookup t).isSome := by
    simp only [List.lookup_isSome_iff, List.mem_map, beq_iff_eq]
    exact exists_congr fun tag => and_congr_right fun _ => eq_comm
  rw [readTag.find]
  cases found : tags.lookup t with
  | some x =>
    refine takes_ok ?_ fun e => ?_
    · simp [Shape.accepts_name_iff, known, found]
    · simp [Shape.blames_name_iff, known, found]
  | none =>
    refine takes_error ?_ fun e => ?_
    · simp [Shape.accepts_name_iff, known, found]
    · simp [Shape.blames_name_iff, known, found]

/-- The value at the only key of an object that stands for a tag. -/
def contentStep (content : Json) : Step where
  Passes := content = .null
  Fault e := content ≠ .null ∧ e = .wrongKind content .nothing

theorem takes_key (tags : List (String × α)) (t : String) (content : Json) :
    Takes (readTag tags (.obj [(t, content)]))
      ((Shape.tag (tags.map (·.1))).step (.obj [(t, content)])) := by
  have steps : Takes (readTag tags (.obj [(t, content)]))
      (inOrder [(Shape.tag (tags.map (·.1))).step (.str t), contentStep content]) := by
    refine .bind (takes_find tags t) fun x _ => ?_
    cases content with
    | null =>
      refine takes_ok ?_ fun e => ?_
      · simp [inOrder, contentStep]
      · simp [inOrder, Fails, contentStep]
    | _ =>
      refine takes_error ?_ fun e => ?_
      · simp [inOrder, contentStep]
      · simp [inOrder, Fails, contentStep]
  refine steps.congr ?_ fun e => ?_
  · rw [Shape.passes_step, Shape.accepts_key_iff]
    simp [inOrder, contentStep, Shape.accepts_name_iff]
  · rw [Shape.fault_step, Shape.blames_key_iff]
    simp [inOrder, Fails, contentStep, Shape.accepts_name_iff, Shape.blames_name_iff, and_assoc]

theorem reads_tag (tags : List (String × α)) : Reads (readTag tags) (.tag (tags.map (·.1))) := by
  apply reads_of_takes
  intro v
  cases v with
  | str t => exact takes_find tags t
  | obj o =>
    match o with
    | [(t, content)] => exact takes_key tags t content
    | [] => exact takes_error (Shape.not_accepts_keys nofun) fun _ => Shape.blames_keys_iff nofun
    | _ :: _ :: _ =>
      exact takes_error (Shape.not_accepts_keys nofun) fun _ => Shape.blames_keys_iff nofun
  | _ => exact takes_wrongKind (.tag _) _ id

/-! ### Lists -/

theorem Reads.takes_readElements (h : Reads read s) (vs : List Json) :
    Takes (readElements read vs) (inOrder (vs.map s.step)) := by
  induction vs with
  | nil => exact .done []
  | cons v vs ih =>
    refine .bind (h.takes v) fun x _ => ?_
    have rest : (readElements read vs >>= fun xs => pure (x :: xs)) =
        (readElements read vs).map (x :: ·) := by
      cases readElements read vs <;> rfl
    exact rest ▸ ih.map

theorem Reads.list (h : Reads read s) : Reads (readList read) (.list s) := by
  apply reads_of_takes
  intro v
  cases v with
  | arr vs =>
    refine (h.takes_readElements vs).congr ?_ fun e => ?_
    · exact List.forall_mem_map.trans Shape.accepts_list_iff.symm
    · exact fails_map_iff.trans Shape.blames_list_iff.symm
  | _ => exact takes_wrongKind (.list s) _ id

/-! ### Rows -/

/-- The element at an index. -/
def elementStep (w : Wanted) (vs : List Json) (i : Nat) (s : Shape) : Step :=
  match vs[i]? with
  | some v => s.step v
  | none => ⟨False, (· = .tooShort i w)⟩

/-- The elements from an index on, one for each shape, and no more. -/
def rowSteps (w : Wanted) (vs : List Json) : Nat → List Shape → List Step
  | i, [] => [⟨vs.length ≤ i, fun e => i < vs.length ∧ e = .tooLong vs.length⟩]
  | i, s :: ss => elementStep w vs i s :: rowSteps w vs (i + 1) ss

theorem Reads.takes_readElement (h : Reads read s) (vs : List Json) (i : Nat) (w : Wanted) :
    Takes (readElement vs i w read) (elementStep w vs i s) := by
  rw [readElement, elementStep]
  cases vs[i]? with
  | some v => exact h.takes v
  | none => exact takes_error id fun _ => .rfl

theorem takes_noMore (w : Wanted) (vs : List Json) (i : Nat) (x : α) :
    Takes (noMore vs i >>= fun _ => pure x) (inOrder (rowSteps w vs i [])) := by
  refine .bind ?_ fun _ _ => .done x
  rw [noMore]
  split
  · next fits => exact takes_ok fits fun e more => absurd more.1 (Nat.not_lt_of_ge fits)
  · next more => exact takes_error more fun e => and_iff_right (Nat.lt_of_not_ge more)

/-- With the elements that were read before the others, the index is their number. -/
theorem rowSteps_cons (us vs : List Json) :
    rowSteps w (us ++ v :: vs) us.length (s :: shapes) =
      s.step v :: rowSteps w ((us ++ [v]) ++ vs) (us ++ [v]).length shapes := by
  simp [rowSteps, elementStep]

theorem passes_rowSteps (us vs : List Json) :
    (∀ st ∈ rowSteps w (us ++ vs) us.length shapes, st.Passes) ↔
      List.Forall₂ Shape.Accepts shapes vs := by
  induction shapes generalizing us vs with
  | nil => cases vs <;> simp [rowSteps]
  | cons s ss ih =>
    cases vs with
    | nil => simp [rowSteps, elementStep]
    | cons v vs =>
      rw [rowSteps_cons, List.forall_mem_cons, ih, List.forall₂_cons]
      rfl

theorem fails_rowSteps (us vs : List Json) :
    Fails (rowSteps w (us ++ vs) us.length shapes) e ↔
      Shape.BlamesRow w us.length shapes vs e := by
  induction shapes generalizing us vs with
  | nil =>
    rw [Shape.blamesRow_nil_iff]
    cases vs <;> simp [rowSteps, Fails]
  | cons s ss ih =>
    cases vs with
    | nil => simp [rowSteps, elementStep, Fails, Shape.blamesRow_cons_nil_iff]
    | cons v vs =>
      rw [rowSteps_cons, Fails, ih, Shape.blamesRow_cons_cons_iff, List.length_append]
      rfl

/-- A list is read by its elements, and then there is no further one. -/
theorem takes_row {m : Except ReadError α} (row : shape.row? = some (w, shapes))
    (h : Takes m (inOrder (rowSteps w vs 0 shapes))) : Takes m (shape.step (.arr vs)) := by
  refine h.congr ?_ fun e => ?_
  · exact (passes_rowSteps [] vs).trans (Shape.accepts_row_iff row).symm
  · exact (fails_rowSteps [] vs).trans (Shape.blames_row_iff row).symm

theorem Reads.pair (h : Reads read s) : Reads (readPair read) (.pair s) := by
  apply reads_of_takes
  intro v
  cases v with
  | arr vs =>
    apply takes_row rfl
    refine .bind (h.takes_readElement vs 0 .pair) fun x _ => ?_
    refine .bind (h.takes_readElement vs 1 .pair) fun y _ => ?_
    exact takes_noMore .pair vs 2 (x, y)
  | _ => exact takes_wrongKind (.pair s) _ id

/-! ### Objects -/

/-- The value of a field, if the field is there. -/
def fieldStep (o : List (String × Json)) (f : String × Shape) : Step where
  Passes := ∀ v, o.lookup f.1 = some v → f.2.Accepts v
  Fault e := ∃ v, o.lookup f.1 = some v ∧ f.2.Blames v e

/-- A field that has to be there. -/
def thereStep (o : List (String × Json)) (f : String × Shape) : Step where
  Passes := (o.lookup f.1).isSome
  Fault e := o.lookup f.1 = none ∧ e = .missing f.1

theorem Reads.takes_readField (h : Reads read s) (o : List (String × Json)) (key : String) :
    Takes (readField o key read) (fieldStep o (key, s)) := by
  rw [readField]
  cases found : o.lookup key with
  | none => exact takes_ok (by simp [fieldStep, found]) (by simp [fieldStep, found])
  | some v =>
    refine (h.takes v).map.congr ?_ fun e => ?_
    · simp [fieldStep, found]
    · simp [fieldStep, found]

theorem takes_required {x : Option α} (found : readField o key read = .ok x) (s : Shape) :
    Takes (required key x) (thereStep o (key, s)) := by
  rw [readField] at found
  cases there : o.lookup key with
  | none =>
    rw [there] at found
    cases found
    exact takes_error (by simp [thereStep, there]) (by simp [thereStep, there])
  | some v =>
    rw [there] at found
    obtain ⟨y, rfl⟩ : ∃ y, x = some y := by
      cases reads : read v with
      | error e => simp [reads, Except.map] at found
      | ok y => exact ⟨y, by simpa [reads, Except.map, eq_comm] using found⟩
    exact takes_ok (by simp [thereStep, there]) (by simp [thereStep, there])

theorem fails_fieldSteps (sorted : fields.Pairwise (·.1 < ·.1)) :
    Fails (fields.map (fieldStep o)) e ↔
      ∃ f ∈ fields, (fieldStep o f).Fault e ∧
        ∀ g ∈ fields, g.1 < f.1 → (fieldStep o g).Passes := by
  induction sorted with
  | nil => simp [Fails]
  | @cons f fs smallest _ ih =>
    rw [List.map_cons, Fails, ih]
    constructor
    · rintro (bad | ⟨fine, g, declared, bad, before⟩)
      · refine ⟨f, List.mem_cons_self, bad, ?_⟩
        intro g declared less
        rcases List.mem_cons.1 declared with rfl | behind
        · exact absurd less (String.lt_irrefl _)
        · exact absurd less (String.lt_asymm (smallest g behind))
      · refine ⟨g, List.mem_cons_of_mem f declared, bad, ?_⟩
        intro h declared' less
        rcases List.mem_cons.1 declared' with rfl | behind
        · exact fine
        · exact before h behind less
    · rintro ⟨g, declared, bad, before⟩
      rcases List.mem_cons.1 declared with rfl | behind
      · exact .inl bad
      · refine .inr ⟨before f List.mem_cons_self (smallest g behind), g, behind, bad, ?_⟩
        intro h behind' less
        exact before h (List.mem_cons_of_mem f behind') less

/-- An object is read by its fields in ascending order of their keys, and then all have to be
there in the order of declaration. -/
theorem takes_object {m : Except ReadError α} (sorted : byKey.Pairwise (·.1 < ·.1))
    (same : ∀ f, f ∈ byKey ↔ f ∈ fields)
    (h : Takes m (inOrder (byKey.map (fieldStep o) ++ fields.map (thereStep o)))) :
    Takes m ((Shape.record name fields).step (.obj o)) := by
  refine h.congr ?_ fun e => ?_
  · rw [Shape.passes_step, Shape.accepts_object_iff]
    simp only [inOrder, List.forall_mem_append, List.forall_mem_map, same]
    exact and_comm
  · rw [Shape.fault_step, Shape.blames_object_iff]
    simp only [inOrder, fails_append, fails_fieldSteps sorted, fails_map_iff, List.forall_mem_map,
      same]
    rfl

theorem reads_record {read : Reader α} (byKey : List (String × Shape))
    (sorted : byKey.Pairwise (·.1 < ·.1)) (same : ∀ f, f ∈ byKey ↔ f ∈ fields)
    (object : ∀ o, Takes (read (.obj o))
      (inOrder (byKey.map (fieldStep o) ++ fields.map (thereStep o))))
    (row : ∀ vs, Takes (read (.arr vs))
      (inOrder (rowSteps (.fields name fields.length) vs 0 (fields.map (·.2)))))
    (other : ∀ v, ¬ (Shape.record name fields).OfKind v →
      read v = .error (.wrongKind v (.record name))) :
    Reads read (.record name fields) := by
  apply reads_of_takes
  intro v
  cases v with
  | obj o => exact takes_object sorted same (object o)
  | arr vs => exact takes_row rfl (row vs)
  | _ =>
    rw [other _ id]
    exact takes_wrongKind (.record name fields) _ id

end DocProse.Json
