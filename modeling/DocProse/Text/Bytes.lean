/-!
# Byte offsets

Offsets into a text count the bytes of its UTF-8 form.  `byteSize` measures a
text, `splitAtByte?` cuts it in two at an offset, and `slice?` takes the part
between two offsets.  An offset inside a character or past the end is no place
to cut, and an upper bound below the lower one gives no slice.

`splitAtByte?_eq_some_iff` says a cut succeeds exactly when the offset is the
byte length of a leading part, and gives that part.  `slice?_eq_some_iff` says
the same of the two ends of a slice.  The ends of a slice are boundaries in order
(`boundaries_of_slice?`), and between two such there is always one
(`exists_slice?`).
-/

namespace DocProse.Text

/-- The number of bytes of a text in UTF-8. -/
def byteSize : List Char → Nat
  | [] => 0
  | c :: cs => c.utf8Size + byteSize cs

/-- The lengths of two parts add up. -/
theorem byteSize_append (xs ys : List Char) :
    byteSize (xs ++ ys) = byteSize xs + byteSize ys := by
  induction xs with
  | nil => simp [byteSize]
  | cons x xs ih => simp [byteSize, ih, Nat.add_assoc]

theorem byteSize_replicate (n : Nat) (c : Char) :
    byteSize (List.replicate n c) = n * c.utf8Size := by
  induction n with
  | zero => rw [List.replicate_zero, byteSize, Nat.zero_mul]
  | succ n ih => rw [List.replicate_succ, byteSize, ih, Nat.succ_mul, Nat.add_comm]

/-- Every character has a byte. -/
theorem byteSize_eq_zero_iff {cs : List Char} : byteSize cs = 0 ↔ cs = [] := by
  cases cs with
  | nil => simp [byteSize]
  | cons c cs =>
    have := Char.utf8Size_pos c
    simp [byteSize]
    omega

/-- The bytes of a string are those of its characters. -/
theorem utf8ByteSize_ofList (cs : List Char) : (String.ofList cs).utf8ByteSize = byteSize cs := by
  induction cs with
  | nil => rfl
  | cons c cs ih =>
    rw [String.ofList_cons, String.utf8ByteSize_append, String.utf8ByteSize_singleton, ih, byteSize]

/-- The bytes of a string are those of its characters. -/
theorem utf8ByteSize_eq (s : String) : s.utf8ByteSize = byteSize s.toList := by
  rw [← utf8ByteSize_ofList, String.ofList_toList]

/-- An offset between two characters of a text, or at an end of it. -/
def IsBoundary (offset : Nat) (cs : List Char) : Prop :=
  ∃ before behind, cs = before ++ behind ∧ byteSize before = offset

/-- A text cut at a byte offset, if the offset is between two characters or at an end. -/
def splitAtByte? : Nat → List Char → Option (List Char × List Char)
  | 0, cs => some ([], cs)
  | _ + 1, [] => none
  | n + 1, c :: cs =>
      if c.utf8Size ≤ n + 1 then
        (splitAtByte? (n + 1 - c.utf8Size) cs).map fun (xs, ys) => (c :: xs, ys)
      else none

/-- The part of a text from byte `start` up to byte `stop`. -/
def slice? (start stop : Nat) (cs : List Char) : Option (List Char) :=
  if start ≤ stop then do
    let (_, rest) ← splitAtByte? start cs
    let (part, _) ← splitAtByte? (stop - start) rest
    return part
  else none

/-- A cut splits the text into a part of that many bytes and the rest. -/
theorem splitAtByte?_eq_some_iff (n : Nat) (cs xs ys : List Char) :
    splitAtByte? n cs = some (xs, ys) ↔ cs = xs ++ ys ∧ byteSize xs = n := by
  induction cs generalizing n xs with
  | nil =>
    cases n with
    | zero =>
      constructor
      · intro h
        cases h
        exact ⟨rfl, rfl⟩
      · rintro ⟨h, -⟩
        obtain ⟨rfl, rfl⟩ := List.append_eq_nil_iff.1 h.symm
        rfl
    | succ n =>
      constructor
      · intro h
        cases h
      · rintro ⟨h, hn⟩
        obtain ⟨rfl, rfl⟩ := List.append_eq_nil_iff.1 h.symm
        cases hn
  | cons c cs ih =>
    have hc := Char.utf8Size_pos c
    cases n with
    | zero =>
      cases xs with
      | nil => simp [splitAtByte?, byteSize, eq_comm]
      | cons x xs =>
        have := Char.utf8Size_pos x
        simp [splitAtByte?, byteSize]
        omega
    | succ n =>
      cases xs with
      | nil => simp [splitAtByte?, byteSize]
      | cons x xs =>
        simp only [splitAtByte?]
        split
        · rename_i hle
          simp only [Option.map_eq_some_iff, Prod.mk.injEq, List.cons.injEq, Prod.exists,
            List.cons_append, byteSize]
          constructor
          · rintro ⟨as, bs, h, ⟨rfl, rfl⟩, rfl⟩
            obtain ⟨rfl, h⟩ := (ih _ _).1 h
            exact ⟨⟨rfl, rfl⟩, by omega⟩
          · rintro ⟨⟨rfl, rfl⟩, h⟩
            exact ⟨xs, ys, (ih _ _).2 ⟨rfl, by omega⟩, ⟨rfl, rfl⟩, rfl⟩
        · simp only [reduceCtorEq, List.cons_append, List.cons.injEq, byteSize, false_iff]
          rintro ⟨⟨rfl, -⟩, h⟩
          omega

/-- A slice is the part between two others whose sizes are given by its ends. -/
theorem slice?_eq_some_iff (start stop : Nat) (cs part : List Char) :
    slice? start stop cs = some part ↔
      ∃ before behind, cs = before ++ part ++ behind ∧ byteSize before = start ∧
        start + byteSize part = stop := by
  constructor
  · intro h
    rw [slice?] at h
    split at h
    · next ordered =>
      obtain ⟨⟨before, rest⟩, first, h⟩ := Option.bind_eq_some_iff.1 h
      obtain ⟨⟨part, behind⟩, second, h⟩ := Option.bind_eq_some_iff.1 h
      cases h
      obtain ⟨rfl, size⟩ := (splitAtByte?_eq_some_iff _ _ _ _).1 first
      obtain ⟨rfl, size'⟩ := (splitAtByte?_eq_some_iff _ _ _ _).1 second
      exact ⟨before, behind, by simp, size, by omega⟩
    · cases h
  · rintro ⟨before, behind, rfl, rfl, rfl⟩
    have first : splitAtByte? (byteSize before) (before ++ part ++ behind) =
        some (before, part ++ behind) :=
      (splitAtByte?_eq_some_iff _ _ _ _).2 ⟨by simp, rfl⟩
    have second : splitAtByte? (byteSize before + byteSize part - byteSize before)
        (part ++ behind) = some (part, behind) :=
      (splitAtByte?_eq_some_iff _ _ _ _).2 ⟨rfl, by omega⟩
    rw [slice?, if_pos (by omega), first]
    simp only [Option.bind_eq_bind, Option.bind_some, second]
    rfl

/-- The ends of a slice are boundaries in order. -/
theorem boundaries_of_slice? {start stop : Nat} {cs part : List Char}
    (sliced : slice? start stop cs = some part) :
    start ≤ stop ∧ IsBoundary start cs ∧ IsBoundary stop cs := by
  obtain ⟨before, behind, whole, rfl, rfl⟩ := (slice?_eq_some_iff _ _ _ _).1 sliced
  refine ⟨Nat.le_add_right _ _, ⟨before, part ++ behind, ?_, rfl⟩,
    ⟨before ++ part, behind, whole, byteSize_append before part⟩⟩
  rw [whole, List.append_assoc]

/-- There is a slice between two boundaries in order. -/
theorem exists_slice? {start stop : Nat} {cs : List Char} (ordered : start ≤ stop)
    (first : IsBoundary start cs) (second : IsBoundary stop cs) :
    ∃ part, slice? start stop cs = some part := by
  obtain ⟨before, rest, whole, rfl⟩ := first
  obtain ⟨upTo, behind, whole', rfl⟩ := second
  have within : before <+: upTo := by
    have left : before <+: cs := ⟨rest, whole.symm⟩
    have right : upTo <+: cs := ⟨behind, whole'.symm⟩
    rcases List.prefix_or_prefix_of_prefix left right with within | ⟨more, rfl⟩
    · exact within
    · -- The longer part has no more bytes, so it is no longer.
      rw [byteSize_append] at ordered
      have none : more = [] := byteSize_eq_zero_iff.1 (by omega)
      exact ⟨[], by rw [none, List.append_nil, List.append_nil]⟩
  obtain ⟨part, rfl⟩ := within
  refine ⟨part, (slice?_eq_some_iff _ _ _ _).2 ⟨before, behind, whole', rfl, ?_⟩⟩
  rw [byteSize_append]

/-- The part after a leading part, up to its own length, is that part. -/
theorem slice?_append (xs ys zs : List Char) :
    slice? (byteSize xs) (byteSize xs + byteSize ys) (xs ++ ys ++ zs) = some ys :=
  (slice?_eq_some_iff _ _ _ _).2 ⟨xs, zs, rfl, rfl, rfl⟩

end DocProse.Text
