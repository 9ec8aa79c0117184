import DocProse.Json.Schema

/-!
# What readers return

A reader may fail, so what is known of its results is said of those it returns
(`Yields`).  A property of what a reader returns goes from the reader of a value
to the reader of a field, of an element and of a list, and along a record by
`Yields.bind`, one field at a time.

A writer and a reader make a *round trip* (`RoundTrip`) when the reader gives
back what was written, for the values that fit, and returns only values that
fit.  Then whatever was read, in whatever shape, is read once more after it is
written (`RoundTrip.read_write_of_read`).
-/

namespace DocProse.Json

variable {α β ε : Type} {P : α → Prop} {Q : β → Prop}

/-! ## Results that are returned -/

/-- What a computation returns, if it returns, has a property. -/
def Yields (m : Except ε α) (P : α → Prop) : Prop := ∀ x, m = .ok x → P x

theorem Yields.ok {x : α} (h : P x) : Yields (.ok x : Except ε α) P := by
  intro y same
  cases same
  exact h

theorem Yields.error (e : ε) : Yields (.error e) P := by
  intro y same
  cases same

theorem Yields.any (m : Except ε α) : Yields m fun _ => True := fun _ _ => trivial

theorem Yields.bind {m : Except ε α} {f : α → Except ε β} (first : Yields m P)
    (rest : ∀ x, P x → Yields (f x) Q) : Yields (m >>= f) Q := by
  intro y returned
  cases found : m with
  | error e =>
    rw [found] at returned
    cases returned
  | ok x =>
    rw [found] at returned
    exact rest x (first x found) y returned

/-- A step whose result does not matter. -/
theorem Yields.skip {m : Except ε α} {f : α → Except ε β} (rest : ∀ x, Yields (f x) Q) :
    Yields (m >>= f) Q :=
  .bind (.any m) fun x _ => rest x

theorem Yields.map {m : Except ε α} {f : α → β} (first : Yields m fun x => Q (f x)) :
    Yields (m.map f) Q := by
  intro y returned
  cases found : m with
  | error e =>
    rw [found] at returned
    cases returned
  | ok x =>
    rw [found] at returned
    cases returned
    exact first x found

/-! ## Results of readers -/

variable {read : Reader α}

theorem yields_readSize (v : Json) : Yields (readSize v) (· ≤ maxWord) := by
  intro n returned
  unfold readSize at returned
  split at returned
  · split at returned
    · next fits =>
      cases returned
      exact fits
    · cases returned
  · cases returned
  · cases returned

theorem yields_readElements (element : ∀ v, Yields (read v) P) (vs : List Json) :
    Yields (readElements read vs) fun xs => ∀ x ∈ xs, P x := by
  induction vs with
  | nil => exact .ok (by simp)
  | cons v vs ih =>
    refine .bind (element v) fun x first => ?_
    refine .bind ih fun xs rest => .ok ?_
    intro y membership
    rcases List.mem_cons.1 membership with rfl | behind
    · exact first
    · exact rest y behind

theorem yields_readList (element : ∀ v, Yields (read v) P) (v : Json) :
    Yields (readList read v) fun xs => ∀ x ∈ xs, P x := by
  cases v with
  | arr vs => exact yields_readElements element vs
  | _ => exact .error _

/-- A field that is there has what its reader returns. -/
theorem yields_readField (field : ∀ v, Yields (read v) P) (fields : List (String × Json))
    (key : String) : Yields (readField fields key read) fun o => ∀ x ∈ o, P x := by
  rw [readField]
  split
  · exact .ok (by simp)
  · next v _ =>
    refine .map fun x reads y same => ?_
    cases same
    exact field v x reads

theorem yields_required {o : Option α} (key : String) (field : ∀ x ∈ o, P x) :
    Yields (required key o) P := by
  cases o with
  | none => exact .error _
  | some x => exact .ok (field x rfl)

theorem yields_readElement (element : ∀ v, Yields (read v) P) (vs : List Json) (i : Nat)
    (wanted : Wanted) : Yields (readElement vs i wanted read) P := by
  rw [readElement]
  split
  · exact element _
  · exact .error _

theorem yields_readPair (element : ∀ v, Yields (read v) P) (v : Json) :
    Yields (readPair read v) fun q => P q.1 ∧ P q.2 := by
  cases v with
  | arr vs =>
    refine .bind (yields_readElement element vs 0 .pair) fun x first => ?_
    refine .bind (yields_readElement element vs 1 .pair) fun y second => ?_
    exact .skip fun _ => .ok ⟨first, second⟩
  | _ => exact .error _

/-! ## Round trips -/

/-- A reader gives back what a writer wrote of the values that fit, and returns no others. -/
structure RoundTrip (fits : α → Prop) (write : α → Json) (read : Reader α) : Prop where
  /-- What was written is read back. -/
  read_write : ∀ x, fits x → read (write x) = .ok x
  /-- What is read fits. -/
  fits_of_read : ∀ v, Yields (read v) fits

variable {fits : α → Prop} {write : α → Json}

/-- What was read, in whatever shape, is read again after it is written. -/
theorem RoundTrip.read_write_of_read (trip : RoundTrip fits write read) {v : Json} {x : α}
    (reads : read v = .ok x) : read (write x) = .ok x :=
  trip.read_write x (trip.fits_of_read v x reads)

/-- A field with a written value has that value. -/
theorem RoundTrip.readField_write (trip : RoundTrip fits write read) {x : α} (fit : fits x)
    {fields : List (String × Json)} {key : String} (found : fields.lookup key = some (write x)) :
    readField fields key read = .ok (some x) := by
  rw [readField, found]
  simp only [trip.read_write x fit]
  rfl

theorem roundTrip_text : RoundTrip (fun _ => True) .str readText where
  read_write _ _ := rfl
  fits_of_read _ := .any _

theorem roundTrip_any : RoundTrip (fun _ => True) id readAny where
  read_write _ _ := rfl
  fits_of_read _ := .any _

theorem roundTrip_size : RoundTrip (· ≤ maxWord) nat readSize where
  read_write n fit := by
    have whole : nat n = .int (.ofNat n) := rfl
    rw [whole, readSize, if_pos fit]
  fits_of_read := yields_readSize

theorem RoundTrip.readElements_map (trip : RoundTrip fits write read) {xs : List α}
    (fit : ∀ x ∈ xs, fits x) : readElements read (xs.map write) = .ok xs := by
  induction xs with
  | nil => rfl
  | cons x xs ih =>
    have rest := ih fun y behind => fit y (List.mem_cons_of_mem x behind)
    rw [List.map_cons, readElements, trip.read_write x (fit x List.mem_cons_self), rest]
    rfl

theorem RoundTrip.list (trip : RoundTrip fits write read) :
    RoundTrip (fun xs => ∀ x ∈ xs, fits x) (fun xs => .arr (xs.map write)) (readList read) where
  read_write _ fit := trip.readElements_map fit
  fits_of_read := yields_readList trip.fits_of_read

end DocProse.Json
