import DocProse.Toml.Reader

/-!
# The keys of a parsed table

In the table of a TOML text no key comes twice (`Toml.nodup_of_parse`).

Whatever a line does to the table of the text, an item gets there by `Table.set`, which
puts it in the place of an item with the same key.  So all that can be done to a table
keeps its keys apart (`KeepsApart`), and the lines of a text do it one after another.
-/

namespace DocProse.Toml

namespace Table

variable {t t' : Table} {key : String} {item : Item} {f : Table → Option Table} {path : List String}

/-- The keys of a table, in the order in which they came. -/
def keys (t : Table) : List String := t.items.map (·.1)

theorem map_fst_replace (key : String) (item : Item) (items : List (String × Item)) :
    (replace key item items).map (·.1) = items.map (·.1) := by
  induction items with
  | nil => rfl
  | cons i items ih =>
    rw [replace]
    split
    · rfl
    · rw [List.map_cons, List.map_cons, ih]

theorem isSome_find?_iff : (t.find? key).isSome ↔ key ∈ t.keys := by
  rw [find?, List.lookup_isSome_iff, keys, List.mem_map]
  exact exists_congr fun i => and_congr_right fun _ => beq_iff_eq.trans eq_comm

/-- A table has the same keys after an item is set, or one more at the end. -/
theorem keys_set (t : Table) (key : String) (item : Item) :
    (t.set key item).keys = if key ∈ t.keys then t.keys else t.keys ++ [key] := by
  rw [set]
  simp only [isSome_find?_iff]
  split
  · exact map_fst_replace key item t.items
  · exact List.map_append

theorem nodup_keys_set (apart : t.keys.Nodup) (key : String) (item : Item) :
    (t.set key item).keys.Nodup := by
  rw [keys_set]
  split
  · exact apart
  · next absent =>
    refine List.nodup_append.2 ⟨apart, by simp, fun k present l last => ?_⟩
    rintro rfl
    exact absent (List.mem_singleton.1 last ▸ present)

/-- If a table has different keys, it has them after a change. -/
def KeepsApart (f : Table → Option Table) : Prop :=
  ∀ ⦃t t'⦄, f t = some t' → t.keys.Nodup → t'.keys.Nodup

/-- A change below a table sets one of its items. -/
theorem exists_set_of_change {dotted : Bool}
    (changes : change dotted f (key :: path) t = some t') : ∃ item, t' = t.set key item := by
  rw [change] at changes
  split at changes
  · obtain ⟨child, -, whole⟩ := Option.bind_eq_some_iff.1 changes
    exact ⟨.table child, (Option.some.inj whole).symm⟩
  · split at changes
    · cases changes
    · obtain ⟨child, -, whole⟩ := Option.bind_eq_some_iff.1 changes
      exact ⟨.table child, (Option.some.inj whole).symm⟩
  · next last earlier _ =>
    obtain ⟨child, -, whole⟩ := Option.bind_eq_some_iff.1 changes
    exact ⟨.tables child earlier, (Option.some.inj whole).symm⟩
  · cases changes

theorem keepsApart_change (keeps : KeepsApart f) (dotted : Bool) (path : List String) :
    KeepsApart (change dotted f path) := by
  intro t t' changes apart
  cases path with
  | nil => exact keeps changes apart
  | cons key path =>
    obtain ⟨item, rfl⟩ := exists_set_of_change changes
    exact nodup_keys_set apart key item

/-! ## What lines do to a table -/

theorem keepsApart_addValue (path : List String) (key : String) (v : Value) :
    KeepsApart (addValue path key v) := by
  refine keepsApart_change (fun t t' changes apart => ?_) true path
  split at changes
  · cases changes
  · cases changes
    exact nodup_keys_set apart key _

theorem keepsApart_openTable (path : List String) (key : String) :
    KeepsApart (openTable path key) := by
  refine keepsApart_change (fun t t' changes apart => ?_) false path
  split at changes
  · cases changes
    exact nodup_keys_set apart key _
  · split at changes
    · cases changes
      exact nodup_keys_set apart key _
    · cases changes
  · cases changes

theorem keepsApart_openArrayTable (path : List String) (key : String) :
    KeepsApart (openArrayTable path key) := by
  refine keepsApart_change (fun t t' changes apart => ?_) false path
  split at changes
  · cases changes
    exact nodup_keys_set apart key _
  · cases changes
    exact nodup_keys_set apart key _
  · cases changes

theorem map_fst_fields (t : Table) : t.fields.map (·.1) = t.keys := by
  obtain ⟨implicit, dotted, items⟩ := t
  rw [fields, keys, Table.items]
  induction items with
  | nil => rfl
  | cons i items ih => rw [itemsToFields, List.map_cons, List.map_cons, ih]

end Table

/-! ## Lines of a text -/

variable {p p' : Progress} {fuel : Nat} {cs rest : List Char}

theorem nodup_header (reads : header p fuel cs = some (p', rest)) (apart : p.root.keys.Nodup) :
    p'.root.keys.Nodup := by
  rw [header.eq_def] at reads
  split at reads
  · split at reads
    · obtain ⟨root, opened, whole⟩ := Option.bind_eq_some_iff.1 reads
      cases whole
      exact Table.keepsApart_openArrayTable _ _ opened apart
    · cases reads
  · split at reads
    · obtain ⟨root, opened, whole⟩ := Option.bind_eq_some_iff.1 reads
      cases whole
      exact Table.keepsApart_openTable _ _ opened apart
    · cases reads

theorem nodup_pair (reads : pair p fuel cs = some (p', rest)) (apart : p.root.keys.Nodup) :
    p'.root.keys.Nodup := by
  rw [pair] at reads
  split at reads
  · obtain ⟨⟨v, behind⟩, -, reads⟩ := Option.bind_eq_some_iff.1 reads
    obtain ⟨root, changed, whole⟩ := Option.bind_eq_some_iff.1 reads
    cases whole
    exact Table.keepsApart_change (Table.keepsApart_addValue _ _ v) false _ changed apart
  · cases reads

/-- However many lines are read, the keys of the table stay different. -/
theorem nodup_lines {t : Table} (reads : lines p fuel cs = some t) (apart : p.root.keys.Nodup) :
    t.keys.Nodup := by
  induction fuel generalizing p cs with
  | zero => cases reads
  | succ fuel ih =>
    rw [lines] at reads
    split at reads
    · cases reads
      exact apart
    · obtain ⟨behind, -, reads⟩ := Option.bind_eq_some_iff.1 reads
      exact ih reads apart
    · exact ih reads apart
    · exact ih reads apart
    · obtain ⟨⟨p', behind⟩, line, reads⟩ := Option.bind_eq_some_iff.1 reads
      obtain ⟨next, -, reads⟩ := Option.bind_eq_some_iff.1 reads
      exact ih reads (nodup_header line apart)
    · obtain ⟨⟨p', behind⟩, line, reads⟩ := Option.bind_eq_some_iff.1 reads
      obtain ⟨next, -, reads⟩ := Option.bind_eq_some_iff.1 reads
      exact ih reads (nodup_pair line apart)

/-- In the table of a text no key comes twice. -/
theorem nodup_of_parse {text : String} {fields : List (String × Value)}
    (parsed : parse text = some fields) : (fields.map (·.1)).Nodup := by
  obtain ⟨t, reads, rfl⟩ := Option.map_eq_some_iff.1 parsed
  rw [t.map_fst_fields]
  exact nodup_lines reads List.nodup_nil

end DocProse.Toml
