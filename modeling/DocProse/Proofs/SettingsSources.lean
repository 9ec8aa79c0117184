import DocProse.Proofs.ObjectFields
import DocProse.Proofs.Outcomes
import DocProse.Proofs.TableKeys
import DocProse.Settings.File
import DocProse.TypeScript
import Mathlib.Data.List.Forall2

/-!
# Two sources of settings

Settings are read from the table of a file and from the JSON value of a host, each by
readers of its own.  If the value is what the table is as JSON (`Value.toJson?`), both
give the same settings or none (`Settings.load_agrees`).

The readers agree on every value, in what they return and in the message if they fail
(`readTextArray_toJson?`).  A table keeps the order of the text while an object sorts
its keys, so that the two are compared by what a key leads to, and that is the same
because no key of a parsed table comes twice.
-/

namespace DocProse

open Json (ReadError)

namespace Toml

/-! ## Values as JSON values -/

mutual

/-- A value as a JSON value.  There is none for dates and for doubles that are not finite. -/
def Value.toJson? : Value → Option Json
  | .text s => some (.str s)
  | .integer n => some (.int n)
  | .float x => if x.isFinite then some (.float x) else none
  | .bool b => some (.bool b)
  | .date => none
  | .array vs => (toElements? vs).map .arr
  | .table fields => (toFields? fields).map Json.object

/-- Values as elements of a list. -/
def toElements? : List Value → Option (List Json)
  | [] => some []
  | v :: vs => do
    let j ← v.toJson?
    let js ← toElements? vs
    return j :: js

/-- Fields of a table as fields of an object, in the same order. -/
def toFields? : List (String × Value) → Option (List (String × Json))
  | [] => some []
  | (key, v) :: fields => do
    let j ← v.toJson?
    let others ← toFields? fields
    return (key, j) :: others

end

variable {v : Value} {vs : List Value} {j : Json} {js : List Json}
  {fields : List (String × Value)} {o : List (String × Json)}

theorem forall₂_toElements? (converted : toElements? vs = some js) :
    List.Forall₂ (fun v j => v.toJson? = some j) vs js := by
  induction vs generalizing js with
  | nil =>
    cases converted
    exact .nil
  | cons v vs ih =>
    rw [toElements?] at converted
    obtain ⟨j, head, others⟩ := Option.bind_eq_some_iff.1 converted
    obtain ⟨js, tail, whole⟩ := Option.bind_eq_some_iff.1 others
    cases whole
    exact .cons head (ih tail)

theorem forall₂_toFields? (converted : toFields? fields = some o) :
    List.Forall₂ (fun f g => f.1 = g.1 ∧ f.2.toJson? = some g.2) fields o := by
  induction fields generalizing o with
  | nil =>
    cases converted
    exact .nil
  | cons f fields ih =>
    obtain ⟨key, v⟩ := f
    rw [toFields?] at converted
    obtain ⟨j, head, others⟩ := Option.bind_eq_some_iff.1 converted
    obtain ⟨o, tail, whole⟩ := Option.bind_eq_some_iff.1 others
    cases whole
    exact .cons ⟨rfl, head⟩ (ih tail)

/-- A key leads to a value and to the same value as JSON, or to nothing in both. -/
theorem rel_lookup {β : Type} {R : Value → β → Prop} {o : List (String × β)}
    (related : List.Forall₂ (fun f g => f.1 = g.1 ∧ R f.2 g.2) fields o) (key : String) :
    Option.Rel R (fields.lookup key) (o.lookup key) := by
  induction related with
  | nil => exact .none
  | @cons f g _ _ same _ ih =>
    rw [List.lookup_cons, List.lookup_cons, same.1]
    split
    · exact .some same.2
    · exact ih

theorem map_fst_toFields? (converted : toFields? fields = some o) :
    o.map (·.1) = fields.map (·.1) := by
  have related := forall₂_toFields? converted
  clear converted
  induction related with
  | nil => rfl
  | cons same _ ih => rw [List.map_cons, List.map_cons, ih, same.1]

/-- What a table with different keys is as JSON: an object in which every key leads to the same. -/
theorem exists_object_of_toJson? (distinct : (fields.map (·.1)).Nodup)
    (converted : (Value.table fields).toJson? = some j) :
    ∃ o, j = .obj o ∧
      ∀ key, Option.Rel (fun v j => v.toJson? = some j) (fields.lookup key) (o.lookup key) := by
  obtain ⟨o, others, rfl⟩ := Option.map_eq_some_iff.1 converted
  refine ⟨_, rfl, fun key => ?_⟩
  rw [Json.lookup_foldl_insert (map_fst_toFields? others ▸ distinct), List.lookup_nil,
    Option.or_none]
  exact rel_lookup (forall₂_toFields? others) key

/-! ## The two readers -/

/-- A value and what it is as JSON, as far as readers of arrays of texts look at them. -/
inductive SameKind : Value → Json → Prop where
  | text (s : String) : SameKind (.text s) (.str s)
  | integer (n : Int) : SameKind (.integer n) (.int n)
  | float (x : Float) : SameKind (.float x) (.float x)
  | bool (b : Bool) : SameKind (.bool b) (.bool b)
  | array {vs : List Value} {js : List Json}
      (elements : List.Forall₂ (fun v j => v.toJson? = some j) vs js) :
      SameKind (.array vs) (.arr js)
  | table (fields : List (String × Value)) (o : List (String × Json)) :
      SameKind (.table fields) (.obj o)

theorem sameKind_of_toJson? (converted : v.toJson? = some j) : SameKind v j := by
  cases v with
  | text s =>
    cases converted
    exact .text s
  | integer n =>
    cases converted
    exact .integer n
  | float x =>
    rw [Value.toJson?] at converted
    split at converted
    · cases converted
      exact .float x
    · cases converted
  | bool b =>
    cases converted
    exact .bool b
  | date => cases converted
  | array vs =>
    obtain ⟨js, elements, rfl⟩ := Option.map_eq_some_iff.1 converted
    exact .array (forall₂_toElements? elements)
  | table fields =>
    obtain ⟨o, -, rfl⟩ := Option.map_eq_some_iff.1 converted
    exact .table fields _

theorem SameKind.describeFound_shown (kind : SameKind v j) :
    Json.describeFound v.shown = Json.describeFound j := by
  cases kind <;> rfl

/-- The message about a value that is not of the wanted kind is the same for the value as JSON. -/
theorem SameKind.message_wrongKind (kind : SameKind v j) (wanted : Json.Wanted) :
    (ReadError.wrongKind v.shown wanted).message = (ReadError.wrongKind j wanted).message :=
  congrArg ("invalid type: " ++ · ++ ", expected " ++ wanted.describe) kind.describeFound_shown

theorem readText_toJson? (converted : v.toJson? = some j) :
    (readText v).mapError (·.message) = (Json.readText j).mapError (·.message) := by
  have kind := sameKind_of_toJson? converted
  have refused := kind.message_wrongKind .text
  cases kind with
  | text s => rfl
  | _ => exact congrArg Except.error refused

theorem readTexts_toJson? (converted : List.Forall₂ (fun v j => v.toJson? = some j) vs js) :
    (readTexts vs).mapError (·.message) =
      (Json.readElements Json.readText js).mapError (·.message) := by
  induction converted with
  | nil => rfl
  | cons head _ ih =>
    refine mapError_bind_congr (readText_toJson? head) fun s => ?_
    exact mapError_bind_congr ih fun rest => rfl

/-- The two readers of arrays of texts give the same texts or the same message. -/
theorem readTextArray_toJson? (converted : v.toJson? = some j) :
    (readTextArray v).mapError (·.message) =
      (Json.readList Json.readText j).mapError (·.message) := by
  have kind := sameKind_of_toJson? converted
  have refused := kind.message_wrongKind .list
  cases kind with
  | array elements => exact readTexts_toJson? elements
  | _ => exact congrArg Except.error refused

/-! ## What is read -/

theorem readText_eq_ok_iff {s : String} : readText v = .ok s ↔ v = .text s := by
  cases v <;> simp [readText]

theorem readTexts_eq_ok_iff {texts : List String} :
    readTexts vs = .ok texts ↔ vs = texts.map .text := by
  induction vs generalizing texts with
  | nil => cases texts <;> simp [readTexts]
  | cons v vs ih =>
    simp only [readTexts, bind_eq_ok_iff, pure_eq_ok_iff, readText_eq_ok_iff, ih]
    rw [eq_comm, List.map_eq_cons_iff]
    constructor
    · rintro ⟨s, rfl, rest, rfl, rfl⟩
      exact ⟨s, rest, rfl, rfl, rfl⟩
    · rintro ⟨s, rest, rfl, rfl, rfl⟩
      exact ⟨s, rfl, rest, rfl, rfl⟩

theorem readTextArray_eq_ok_iff {texts : List String} :
    readTextArray v = .ok texts ↔ v = .array (texts.map .text) := by
  cases v with
  | array vs => simp [readTextArray, readTexts_eq_ok_iff]
  | _ => simp [readTextArray]

end Toml

namespace Settings

variable {fields : List (String × Toml.Value)} {v : Json} {s : Settings}

/-- The extensions that a table has: none without a field for them, or else the texts in its
array. -/
def Lists (fields : List (String × Toml.Value)) (extensions : List String) : Prop :=
  fields.lookup "extensions" = none ∧ extensions = [] ∨
    fields.lookup "extensions" = some (.array (extensions.map .text))

/-- A table is read if it has no extensions or an array of texts, whatever else is in it. -/
theorem ofTable_eq_ok_iff : ofTable fields = .ok s ↔ Lists fields s.extensions := by
  obtain ⟨extensions⟩ := s
  rw [ofTable, Lists]
  cases fields.lookup "extensions" with
  | none => simp [eq_comm]
  | some v =>
    simp only [bind_eq_ok_iff, Toml.readTextArray_eq_ok_iff, pure_eq_ok_iff]
    simp

/-- A table and what it is as JSON are read as the same settings, or fail with the same message. -/
theorem ofTable_toJson? (distinct : (fields.map (·.1)).Nodup)
    (converted : (Toml.Value.table fields).toJson? = some v) :
    (ofTable fields).mapError (·.message) = (ofJson v).mapError (·.message) := by
  obtain ⟨o, rfl, related⟩ := Toml.exists_object_of_toJson? distinct converted
  have atKey := related "extensions"
  rw [ofTable, ofJson, Json.readField]
  revert atKey
  generalize fields.lookup "extensions" = x, o.lookup "extensions" = y
  rintro (@⟨_, j, converted⟩ | _)
  · have texts := Toml.readTextArray_toJson? converted
    refine (mapError_bind_congr texts fun extensions => rfl).trans ?_
    dsimp only
    cases Json.readList Json.readText j <;> rfl
  · rfl

/-! ## Files and hosts -/

section Loading

variable {w : Workspace} {path : Option String} {place : Place} {text : String}

/-- A file is loaded as what the table in it is read as. -/
theorem load_eq_ok_iff {r : Option Settings}
    (found : w.resolve (path.getD defaultPath) = some place)
    (file : place.here = .file (some text)) (parsed : Toml.parse text = some fields) :
    load w path = .ok r ↔ ∃ s, r = some s ∧ ofTable fields = .ok s := by
  have loaded : load w path = ofToml text >>= fun s => .ok (some s) := by
    rw [load, found, Option.map_some, file]
    rfl
  simp only [loaded, ofToml, parsed, bind_eq_ok_iff, mapError_eq_ok_iff, Except.ok.injEq]
  exact exists_congr fun s => and_comm.trans (and_congr_left fun _ => eq_comm)

/-- A host's value that is an object is read as any other value. -/
theorem ofHost_eq_ok_iff (converted : (Toml.Value.table fields).toJson? = some v) :
    ofHost v = .ok s ↔ ofJson v = .ok s := by
  obtain ⟨o, -, rfl⟩ := Option.map_eq_some_iff.1 converted
  exact mapError_eq_ok_iff

/-- The settings in a file and those from a host agree if the host gives the table of the file as a
JSON value.  Either both are read, and then they are the same and the same extensions are handled,
or none is.  They are read if the table has no extensions or an array of texts there. -/
theorem load_agrees (g : Grammar) (found : w.resolve (path.getD defaultPath) = some place)
    (file : place.here = .file (some text)) (parsed : Toml.parse text = some fields)
    (converted : (Toml.Value.table fields).toJson? = some v) :
    ((∃ r, load w path = .ok r) ↔ ∃ s, ofHost v = .ok s) ∧
    (∀ r s, load w path = .ok r → ofHost v = .ok s →
      r = some s ∧ Lists fields s.extensions ∧
      (g.registry (r.getD {})).availableExtensions = (g.registry s).availableExtensions ∧
      (g.registry s).availableExtensions = TypeScript.defaultExtensions ++ s.extensions) ∧
    ((∃ s, ofHost v = .ok s) ↔
      fields.lookup "extensions" = none ∨
      ∃ texts : List String, fields.lookup "extensions" = some (.array (texts.map .text))) := by
  have distinct := Toml.nodup_of_parse parsed
  have fromFile (r : Option Settings) := load_eq_ok_iff (r := r) found file parsed
  have fromHost (s : Settings) : ofHost v = .ok s ↔ ofTable fields = .ok s :=
    (ofHost_eq_ok_iff converted).trans
      (eq_ok_iff_of_mapError_eq (ofTable_toJson? distinct converted)).symm
  refine ⟨⟨?_, ?_⟩, fun r s loaded given => ?_, ⟨?_, ?_⟩⟩
  · rintro ⟨r, loaded⟩
    obtain ⟨s, -, reads⟩ := (fromFile r).1 loaded
    exact ⟨s, (fromHost s).2 reads⟩
  · rintro ⟨s, given⟩
    exact ⟨some s, (fromFile (some s)).2 ⟨s, rfl, (fromHost s).1 given⟩⟩
  · have reads := (fromHost s).1 given
    obtain ⟨t, rfl, reads'⟩ := (fromFile r).1 loaded
    cases reads.symm.trans reads'
    exact ⟨rfl, ofTable_eq_ok_iff.1 reads, rfl, List.append_nil _⟩
  · rintro ⟨s, given⟩
    rcases ofTable_eq_ok_iff.1 ((fromHost s).1 given) with ⟨absent, -⟩ | array
    · exact .inl absent
    · exact .inr ⟨s.extensions, array⟩
  · rintro (absent | ⟨texts, array⟩)
    · exact ⟨⟨[]⟩, (fromHost _).2 (ofTable_eq_ok_iff.2 (.inl ⟨absent, rfl⟩))⟩
    · exact ⟨⟨texts⟩, (fromHost _).2 (ofTable_eq_ok_iff.2 (.inr array))⟩

/-- A settings file with other keys, and a table with a key of the same name. -/
def sampleText : String :=
  "title = \"docs\"\nextensions = [\".mts\", \".cts\"]\n\n[package]\nextensions = 3\n"

/-- The table of the file. -/
def sampleFields : List (String × Toml.Value) :=
  [("title", .text "docs"), ("extensions", .array [.text ".mts", .text ".cts"]),
    ("package", .table [("extensions", .integer 3)])]

/-- The table as JSON. -/
def sampleObject : Json :=
  .obj [("extensions", .arr [.str ".mts", .str ".cts"]),
    ("package", .obj [("extensions", .int 3)]), ("title", .str "docs")]

/-- The place of the file. -/
def samplePlace : Place :=
  ⟨.file (some sampleText),
    [(.directory [(defaultPath, .file (some sampleText))], defaultPath)]⟩

/-- A working directory with the file only. -/
def sampleWorkspace : Workspace := ⟨.directory [(defaultPath, .file (some sampleText))], []⟩

/-- Whether fields are those of the table.  There is no decidable equality of values, because of
doubles. -/
def isSample : List (String × Toml.Value) → Bool
  | [(title, .text docs), (extensions, .array [.text first, .text second]),
      (package, .table [(inner, .integer n)])] =>
    (title, docs, extensions, first, second, package, inner, n) ==
      ("title", "docs", "extensions", ".mts", ".cts", "package", "extensions", 3)
  | _ => false

theorem parse_of_isSample (same : (Toml.parse text).any isSample = true) :
    Toml.parse text = some sampleFields := by
  obtain ⟨fields, read, same⟩ := (Option.any_eq_true _ _).1 same
  unfold isSample at same
  split at same
  · simp only [beq_iff_eq, Prod.mk.injEq] at same
    obtain ⟨rfl, rfl, rfl, rfl, rfl, rfl, rfl, rfl⟩ := same
    exact read
  · cases same

/-- The file and its table as JSON give the same two extensions, whatever else stands in it. -/
theorem load_agrees_sample :
    sampleWorkspace.resolve ((none : Option String).getD defaultPath) = some samplePlace ∧
    samplePlace.here = .file (some sampleText) ∧
    Toml.parse sampleText = some sampleFields ∧
    (Toml.Value.table sampleFields).toJson? = some sampleObject ∧
    ofHost sampleObject = .ok ⟨[".mts", ".cts"]⟩ ∧
    load sampleWorkspace none = .ok (some ⟨[".mts", ".cts"]⟩) := by
  have found : sampleWorkspace.resolve ((none : Option String).getD defaultPath) =
      some samplePlace := rfl
  have parsed : Toml.parse sampleText = some sampleFields :=
    parse_of_isSample (by decide +kernel)
  have converted : (Toml.Value.table sampleFields).toJson? = some sampleObject := rfl
  have agrees := load_agrees Source.scanner found rfl parsed converted
  have given : ofHost sampleObject = .ok ⟨[".mts", ".cts"]⟩ := rfl
  obtain ⟨r, loaded⟩ := agrees.1.2 ⟨_, given⟩
  obtain ⟨rfl, -⟩ := agrees.2.1 r _ loaded given
  exact ⟨found, rfl, parsed, converted, given, loaded⟩

end Loading

end Settings

end DocProse
