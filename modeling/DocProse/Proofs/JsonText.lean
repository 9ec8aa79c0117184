import DocProse.Proofs.JsonAtoms
import DocProse.Proofs.ObjectFields

/-!
# Reading printed JSON

Values without doubles are read back from what they are printed as
(`parse_pretty`).  Numbers have to fit 64 bits, and objects have their fields in
ascending order, as the reader gives them (`Plain`).

What the induction over values carries is that a value is read from its text at any
level with anything behind it (`ReadsBack`), and that twice the length of the text is
enough for the bound on the steps.  Lists and objects are read alike, item by item up
to the closing bracket or brace (`ItemReader.InValue.read_joined`).
-/

namespace DocProse.Json

variable {cs ds rest : List Char} {fuel : Nat}

/-! ## Items between brackets -/

/-- Another line does not go on with a number. -/
theorem endsNumber_indent (level : Nat) (cs : List Char) :
    EndsNumber ((indent level).toList ++ cs) := by
  intro c first
  obtain rfl : '\n' = c := by simpa [indent] using first
  decide

theorem endsNumber_comma (cs : List Char) : EndsNumber (',' :: cs) := by
  intro c first
  obtain rfl : ',' = c := by simpa using first
  decide

/-- Items at a level with commas between them. -/
def joined (level : Nat) (items : List String) : List Char :=
  (("," ++ indent level).intercalate items).toList

theorem joined_singleton (level : Nat) (item : String) : joined level [item] = item.toList := by
  rw [joined, String.intercalate_singleton]

theorem joined_cons_cons (level : Nat) (item next : String) (items : List String) :
    joined level (item :: next :: items) =
      item.toList ++ ',' :: ((indent level).toList ++ joined level (next :: items)) := by
  simp [joined, String.intercalate_cons_cons]

theorem toList_block (level : Nat) (opening closing item : String) (items : List String) :
    (block level opening closing (item :: items)).toList =
      opening.toList ++ ((indent (level + 1)).toList ++
        (joined (level + 1) (item :: items) ++ ((indent level).toList ++ closing.toList))) := by
  simp [block, joined]

section Items

variable {β : Type}

/-- A reader of items that goes on until they are closed. -/
structure ItemReader (β : Type) where
  /-- Reads the items that are left, after those already read, in reverse. -/
  read : List β → Nat → List Char → Option (Json × List Char)
  /-- The value that some items are. -/
  whole : List β → Json
  /-- The character that opens them. -/
  opening : Char
  /-- The character that closes them. -/
  closing : Char

/-- An item is taken from its text, and after it the next one or the end. -/
structure ItemReader.Takes (r : ItemReader β) (text : String) (x : β) : Prop where
  more : ∀ {before fuel rest cs}, 2 * text.toList.length ≤ fuel → EndsNumber rest →
    skipBlanks rest = ',' :: cs →
      r.read before (fuel + 1) (text.toList ++ rest) = r.read (x :: before) fuel cs
  last : ∀ {before fuel rest cs}, 2 * text.toList.length ≤ fuel → EndsNumber rest →
    skipBlanks rest = r.closing :: cs →
      r.read before (fuel + 1) (text.toList ++ rest) = some (r.whole (x :: before).reverse, cs)

/-- Items are read in a value, and blanks before them do not matter. -/
structure ItemReader.InValue (r : ItemReader β) : Prop where
  congr : ∀ {before fuel cs ds}, skipBlanks cs = skipBlanks ds →
    r.read before fuel cs = r.read before fuel ds
  opened : ∀ {fuel cs found}, r.read [] fuel cs = some found →
    value (fuel + 1) (r.opening :: cs) = some found
  closing : ∀ cs, skipBlanks (r.closing :: cs) = r.closing :: cs

variable {r : ItemReader β} {text : β → String} {x : β} {xs : List β} {level : Nat}

/-- All items are read, in order. -/
theorem ItemReader.InValue.read_joined (inValue : r.InValue)
    (takes : ∀ y ∈ x :: xs, r.Takes (text y) y) (before : List β) (ends : EndsNumber rest)
    (closed : skipBlanks rest = r.closing :: cs)
    (enough : 2 * (joined level ((x :: xs).map text)).length < fuel) :
    r.read before fuel (joined level ((x :: xs).map text) ++ rest) =
      some (r.whole (before.reverse ++ x :: xs), cs) := by
  obtain ⟨steps, rfl⟩ := Nat.exists_eq_add_one_of_ne_zero (Nat.ne_zero_of_lt enough)
  have first := takes x List.mem_cons_self
  induction xs generalizing x before steps with
  | nil =>
    rw [List.map_singleton, joined_singleton] at enough ⊢
    rw [first.last (by omega) ends closed]
    simp
  | cons y xs ih =>
    have behind : ∀ z ∈ y :: xs, r.Takes (text z) z := fun z inside =>
      takes z (List.mem_cons_of_mem x inside)
    rw [List.map_cons, List.map_cons, joined_cons_cons, ← List.map_cons] at enough ⊢
    simp only [List.length_append, List.length_cons] at enough
    obtain ⟨steps, rfl⟩ := Nat.exists_eq_add_one_of_ne_zero (n := steps) (by omega)
    simp only [List.append_assoc, List.cons_append]
    rw [first.more (by omega) (endsNumber_comma _) rfl, inValue.congr (skipBlanks_indent level _),
      ih behind (x :: before) steps (by omega) (behind y List.mem_cons_self)]
    simp

/-- Items between brackets are read as the value that they are. -/
theorem ItemReader.InValue.value_block (inValue : r.InValue)
    (takes : ∀ y ∈ x :: xs, r.Takes (text y) y)
    (enough : 2 * (block level r.opening.toString r.closing.toString
      ((x :: xs).map text)).toList.length ≤ fuel) :
    value fuel ((block level r.opening.toString r.closing.toString ((x :: xs).map text)).toList
      ++ rest) = some (r.whole (x :: xs), rest) := by
  rw [List.map_cons, toList_block, ← List.map_cons] at enough ⊢
  simp only [List.length_append, Char.toString_eq_singleton, String.toList_singleton,
    List.length_singleton] at enough ⊢
  obtain ⟨steps, rfl⟩ := Nat.exists_eq_add_one_of_ne_zero (n := fuel) (by omega)
  simp only [List.cons_append, List.append_assoc, List.nil_append]
  apply inValue.opened
  rw [inValue.congr (skipBlanks_indent (level + 1) _)]
  refine inValue.read_joined takes [] (endsNumber_indent level _) ?_ (by omega)
  rw [skipBlanks_indent, inValue.closing]

end Items

/-! ## Lists and objects -/

/-- A value that is read back from its text at a level, whatever stands behind the text, unless it
goes on with a number.  Twice the length of the text is enough for the bound on the steps. -/
def ReadsBack (level : Nat) (v : Json) : Prop :=
  ∀ fuel rest, 2 * (prettyAt level v).toList.length ≤ fuel → EndsNumber rest →
    value fuel ((prettyAt level v).toList ++ rest) = some (v, rest)

/-- The text of a field at a level. -/
def fieldText (level : Nat) (f : String × Json) : String := quote f.1 ++ ": " ++ prettyAt level f.2

theorem prettyElements_eq (level : Nat) (vs : List Json) :
    prettyElements level vs = vs.map (prettyAt level) := by
  induction vs with
  | nil => rfl
  | cons v vs ih => rw [prettyElements, ih, List.map_cons]

theorem prettyFields_eq (level : Nat) (fs : List (String × Json)) :
    prettyFields level fs = fs.map (fieldText level) := by
  induction fs with
  | nil => rfl
  | cons f fs ih => rw [prettyFields, ih, List.map_cons, fieldText]

/-- The elements of a list. -/
def elementReader : ItemReader Json := ⟨elements, .arr, '[', ']'⟩

/-- The fields of an object. -/
def memberReader : ItemReader (String × Json) := ⟨members, object, '\x7b', '\x7d'⟩

variable {level : Nat} {v : Json}

theorem takes_element (back : ReadsBack level v) : elementReader.Takes (prettyAt level v) v where
  more enough ends comma := by
    simp only [elementReader, elements, back _ _ enough ends, comma]
  last enough ends closed := by
    simp only [elementReader, elements, back _ _ enough ends, closed]

theorem toList_fieldText (level : Nat) (f : String × Json) :
    (fieldText level f).toList =
      '"' :: (f.1.toList.flatMap escapeChar ++
        '"' :: ':' :: ' ' :: (prettyAt level f.2).toList) := by
  simp [fieldText, quote]

/-- The text of a field is longer than its key and its value. -/
theorem length_toList_fieldText (level : Nat) (f : String × Json) :
    f.1.toList.length + (prettyAt level f.2).toList.length < (fieldText level f).toList.length := by
  have long := length_le_flatMap_escapeChar f.1.toList
  rw [toList_fieldText]
  simp only [List.length_cons, List.length_append]
  omega

/-- The key of a field is read from its text, and then its value. -/
theorem takes_member {f : String × Json} (back : ReadsBack level f.2) :
    memberReader.Takes (fieldText level f) f := by
  have start (cs : List Char) : skipBlanks ('"' :: cs) = '"' :: cs := rfl
  have colon (cs : List Char) : skipBlanks (':' :: cs) = ':' :: cs := rfl
  have space (cs : List Char) : skipBlanks (' ' :: cs) = skipBlanks cs := rfl
  have long := length_toList_fieldText level f
  have key {fuel : Nat} (enough : 2 * (fieldText level f).toList.length ≤ fuel) :
      f.1.toList.length < fuel := by omega
  have room {fuel : Nat} (enough : 2 * (fieldText level f).toList.length ≤ fuel) :
      2 * (prettyAt level f.2).toList.length ≤ fuel := by omega
  refine ⟨fun enough ends comma => ?_, fun enough ends closed => ?_⟩
  · simp only [memberReader, toList_fieldText, List.cons_append, List.append_assoc, members, start,
      quoted_key f.1 (key enough), colon, value_congr (space _), back _ _ (room enough) ends, comma]
  · rw [memberReader] at closed ⊢
    simp only [toList_fieldText, List.cons_append, List.append_assoc, members, start,
      quoted_key f.1 (key enough), colon, value_congr (space _), back _ _ (room enough) ends,
      closed]

theorem inValue_elements : elementReader.InValue where
  congr := elements_congr
  opened {fuel cs found} h := by
    have start : skipBlanks ('[' :: cs) = '[' :: cs := rfl
    rw [elementReader] at h ⊢
    simp only [elements_congr (skipBlanks_skipBlanks cs).symm] at h
    simp only [value, start]
    split
    · next rest closed =>
      -- No element starts with a bracket.
      have nothing : ∀ fuel, value fuel (']' :: rest) = none := by
        intro fuel
        cases fuel <;> rfl
      rw [closed] at h
      cases fuel <;> simp [elements, nothing] at h
    · exact h
  closing _ := rfl

theorem inValue_members : memberReader.InValue where
  congr := members_congr
  opened {fuel cs found} h := by
    have start : skipBlanks ('\x7b' :: cs) = '\x7b' :: cs := rfl
    rw [memberReader] at h ⊢
    simp only [members_congr (skipBlanks_skipBlanks cs).symm] at h
    simp only [value, start]
    split
    · next rest closed =>
      -- No key starts with a brace.
      have brace : skipBlanks ('\x7d' :: rest) = '\x7d' :: rest := rfl
      rw [closed] at h
      cases fuel <;> simp [members, brace] at h
    · exact h
  closing _ := rfl

theorem readsBack_arr {vs : List Json} (back : ∀ v ∈ vs, ReadsBack (level + 1) v) :
    ReadsBack level (.arr vs) := by
  intro fuel rest enough _
  rw [prettyAt, prettyElements_eq] at enough ⊢
  cases vs with
  | nil =>
    have whole : (block level "[" "]" ([].map (prettyAt (level + 1)))).toList = ['[', ']'] := by
      simp [block]
    rw [whole] at enough ⊢
    obtain ⟨steps, rfl⟩ := Nat.exists_eq_add_of_le' enough
    rfl
  | cons v vs =>
    exact inValue_elements.value_block (fun u inside => takes_element (back u inside)) enough

theorem readsBack_obj {fs : List (String × Json)} (ascending : (fs.map (·.1)).Pairwise (· < ·))
    (back : ∀ f ∈ fs, ReadsBack (level + 1) f.2) : ReadsBack level (.obj fs) := by
  intro fuel rest enough _
  rw [prettyAt, prettyFields_eq] at enough ⊢
  cases fs with
  | nil =>
    have whole : (block level "\x7b" "\x7d" ([].map (fieldText (level + 1)))).toList =
        ['\x7b', '\x7d'] := by simp [block]
    rw [whole] at enough ⊢
    obtain ⟨steps, rfl⟩ := Nat.exists_eq_add_of_le' enough
    rfl
  | cons f fs =>
    rw [← object_of_ascending (List.pairwise_map.1 ascending)]
    exact inValue_members.value_block (fun g inside => takes_member (back g inside)) enough

/-! ## All values -/

/-- A value without doubles whose numbers have 64 bits and whose objects have their fields in
ascending order. -/
inductive Plain : Json → Prop where
  | null : Plain .null
  | bool (b : Bool) : Plain (.bool b)
  | int {n : Int} (least : -signedReach ≤ n) (greatest : n ≤ maxWord) : Plain (.int n)
  | str (s : String) : Plain (.str s)
  | arr {vs : List Json} (plain : ∀ v ∈ vs, Plain v) : Plain (.arr vs)
  | obj {fs : List (String × Json)} (ascending : (fs.map (·.1)).Pairwise (· < ·))
      (plain : ∀ f ∈ fs, Plain f.2) : Plain (.obj fs)

/-- A value that holds no others is read back if it is read from its text, the same at every
level. -/
theorem readsBack_of_text {text : String} (whole : prettyAt level v = text)
    (read : ∀ fuel rest, 2 * text.toList.length ≤ fuel + 1 → EndsNumber rest →
      value (fuel + 1) (text.toList ++ rest) = some (v, rest)) : ReadsBack level v := by
  intro fuel rest enough ends
  rw [whole] at enough ⊢
  cases fuel with
  | succ fuel => exact read fuel rest enough ends
  | zero =>
    -- The text is not empty, because no value is read from that.
    have empty : text.toList = [] := List.eq_nil_of_length_eq_zero (by omega)
    have found := read 0 [] (by rw [empty]; exact Nat.zero_le 1) nofun
    rw [empty] at found
    cases found

theorem Plain.readsBack (plain : Plain v) (level : Nat) : ReadsBack level v := by
  induction plain generalizing level with
  | null =>
    have whole : prettyAt level .null = "null" := by rw [prettyAt, atom] <;> nofun
    exact readsBack_of_text whole fun fuel rest _ _ => value_null fuel rest
  | bool b =>
    have whole : prettyAt level (.bool b) = toString b := by rw [prettyAt, atom] <;> nofun
    exact readsBack_of_text whole fun fuel rest _ _ => value_bool b fuel rest
  | @int n least greatest =>
    have whole : prettyAt level (.int n) = toString n := by rw [prettyAt, atom] <;> nofun
    exact readsBack_of_text whole fun fuel rest _ ends => value_int least greatest ends fuel
  | str s =>
    have whole : prettyAt level (.str s) = quote s := by rw [prettyAt, atom] <;> nofun
    have long := length_le_flatMap_escapeChar s.toList
    have size : (quote s).toList.length = (s.toList.flatMap escapeChar).length + 2 := by
      simp [quote]
    exact readsBack_of_text whole fun fuel rest enough _ => value_quote s rest (by omega)
  | arr _ ih => exact readsBack_arr fun v inside => ih v inside (level + 1)
  | obj ascending _ ih => exact readsBack_obj ascending fun f inside => ih f inside (level + 1)

/-- A plain value is read back from what it is printed as. -/
theorem parse_pretty (plain : Plain v) : parse v.pretty = some v := by
  have back := plain.readsBack 0 (2 * v.pretty.toList.length + 2) [] (Nat.le_add_right _ 2) nofun
  rw [List.append_nil] at back
  simp only [parse, pretty] at back ⊢
  rw [back]
  rfl

end DocProse.Json
