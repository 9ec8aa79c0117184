import DocProse.Document.Format
import DocProse.Processor
import DocProse.Proofs.Outcomes
import DocProse.Proofs.Skeletons
import Mathlib.Logic.Relation
import Mathlib.Tactic.Simproc.ExistsAndEq

/-!
# Forms of a record

The same record can be written in several forms.  Fields that are not declared may
come with it, and it may be given as an object or as the list of its fields.  No
type of the format is read differently for that (`ofJson_insensitive`).

With other fields in an object the outcome is the same, whether it is a result or an
error.  With a list in the place of an object it is the same if there was a result,
while the errors of the two forms differ: an object is read by its keys in order, and
a list by its elements.

What a record is read from is said for each type by the parts that a value has to
have (`record_eq_ok_iff`, `Position.ofJson_eq_ok_iff` and its like).
-/

namespace DocProse

namespace Json

variable {α : Type} {read : Reader α} {x : α} {vs : List Json}

/-! ## What is returned -/

@[simp] theorem readField_eq_ok_some_iff {o : List (String × Json)} {key : String} :
    readField o key read = .ok (some x) ↔ ∃ v, o.lookup key = some v ∧ read v = .ok x := by
  rw [readField]
  cases o.lookup key with
  | none => simp
  | some v => cases reads : read v <;> simp [Except.map, reads]

@[simp] theorem required_eq_ok_iff {key : String} {u : Option α} :
    required key u = .ok x ↔ u = some x := by
  cases u <;> simp [required]

@[simp] theorem readElement_eq_ok_iff {i : Nat} {wanted : Wanted} :
    readElement vs i wanted read = .ok x ↔ ∃ v, vs[i]? = some v ∧ read v = .ok x := by
  rw [readElement]
  cases vs[i]? <;> simp

@[simp] theorem exists_noMore_iff {count : Nat} :
    (∃ u, noMore vs count = .ok u) ↔ vs.length ≤ count := by
  rw [noMore]
  split <;> simp [*]

theorem outlives_list {s : Skeleton} (h : ∀ x, OutlivesListing s (read · = .ok x)) (xs : List α) :
    OutlivesListing (.list s) (readList read · = .ok xs) := by
  intro _ _ change reads
  cases change with
  | @element _ before behind v v' below =>
    rw [readList] at reads ⊢
    induction before generalizing xs with
    | nil =>
      rw [List.nil_append, readElements, bind_eq_ok_iff] at reads ⊢
      obtain ⟨x, first, others⟩ := reads
      exact ⟨x, h x v v' below first, others⟩
    | cons u us ih =>
      rw [List.cons_append, readElements, bind_eq_ok_iff] at reads ⊢
      obtain ⟨x, first, others⟩ := reads
      rw [bind_eq_ok_iff] at others
      obtain ⟨ys, others, whole⟩ := others
      exact ⟨x, first, bind_eq_ok_iff.2 ⟨ys, ih ys others, whole⟩⟩

/-- The elements of a list from an index on have some properties, and there are no more. -/
def HasElements (vs : List Json) : Nat → List (Json → Prop) → Prop
  | i, [] => vs.length ≤ i
  | i, P :: Ps => (∃ v, vs[i]? = some v ∧ P v) ∧ HasElements vs (i + 1) Ps

/-- With the elements that were read before the others, the index is their number. -/
theorem hasElements_append {Ps : List (Json → Prop)} (us vs : List Json) :
    HasElements (us ++ vs) us.length Ps ↔ List.Forall₂ (fun P v => P v) Ps vs := by
  induction Ps generalizing us vs with
  | nil => cases vs <;> simp [HasElements]
  | cons P Ps ih =>
    cases vs with
    | nil => simp [HasElements]
    | cons v vs =>
      have rest := ih (us ++ [v]) vs
      rw [List.append_assoc, List.length_append] at rest
      simp only [HasElements, List.forall₂_cons]
      simpa using and_congr_right fun _ => rest

/-- A list has the parts of a record as its elements. -/
theorem hasParts_arr_iff {parts : List (String × (Json → Prop))} :
    HasParts parts (.arr vs) ↔ HasElements vs 0 (parts.map (·.2)) :=
  (hasElements_append [] vs).trans List.forall₂_map_left_iff |>.symm

/-- A record is read from the values that have its parts.  An object is read by its fields in some
order, a list by its elements. -/
theorem record_eq_ok_iff {parts : List (String × (Json → Prop))}
    (byKey : List (String × (Json → Prop))) (same : ∀ p, p ∈ byKey ↔ p ∈ parts)
    (object : ∀ o, read (.obj o) = .ok x ↔ ∀ p ∈ byKey, ∃ v, o.lookup p.1 = some v ∧ p.2 v)
    (row : ∀ vs, read (.arr vs) = .ok x ↔ HasElements vs 0 (parts.map (·.2)))
    (other : ∀ v, read v = .ok x → (∃ o, v = .obj o) ∨ ∃ vs, v = .arr vs) (v : Json) :
    read v = .ok x ↔ HasParts parts v := by
  cases v with
  | obj o => simp only [object, same, HasParts]
  | arr vs => rw [row, hasParts_arr_iff]
  | _ => exact iff_of_false (fun reads => by simpa using other _ reads) id

end Json

open Json

/-! ## Positions and spans -/

-- For each type: where the records in it are, what it is read from, and that other fields and
-- lists in the place of objects make no difference.

namespace Position

def skeleton : Skeleton := .record [("line", .whole), ("column", .whole)]

def parts (p : Position) : List (String × (Json → Prop)) :=
  [("line", (readSize · = .ok p.line)), ("column", (readSize · = .ok p.column))]

theorem ofJson_eq_ok_iff (p : Position) : ∀ v, ofJson v = .ok p ↔ HasParts p.parts v := by
  obtain ⟨line, column⟩ := p
  refine record_eq_ok_iff
    [("column", (readSize · = .ok column)), ("line", (readSize · = .ok line))]
    (by simp [parts, or_comm]) (fun o => ?_) (fun vs => ?_) fun v reads => ?_
  · simp [-bind_pure_comp, ofJson, bind_eq_ok_iff, pure_eq_ok_iff]
  · simp [-bind_pure_comp, ofJson, HasElements, parts, bind_eq_ok_iff, pure_eq_ok_iff]
  · cases v <;> simp_all [ofJson]

theorem overlooks : Overlooks ofJson skeleton := by
  refine overlooks_record (fun o o' kept => ?_) (fun vs vs' kept => ?_)
  · have line := (overlooks_whole readSize).readField kept "line" rfl
    have column := (overlooks_whole readSize).readField kept "column" rfl
    simp only [ofJson, line, column]
  · have line := (overlooks_whole readSize).readElement kept 0 rfl
    have column := (overlooks_whole readSize).readElement kept 1 rfl
    simp only [ofJson, line, column, kept.noMore]

theorem outlives (p : Position) : OutlivesListing skeleton (ofJson · = .ok p) := by
  refine outlives_record (ofJson_eq_ok_iff _) (by decide) ?_
  exact .cons ⟨rfl, outlives_whole _⟩ (.cons ⟨rfl, outlives_whole _⟩ .nil)

end Position

namespace Span

def skeleton : Skeleton := .record [("start", Position.skeleton), ("end", Position.skeleton)]

def parts (s : Span) : List (String × (Json → Prop)) :=
  [("start", (Position.ofJson · = .ok s.start)), ("end", (Position.ofJson · = .ok s.stop))]

theorem ofJson_eq_ok_iff (s : Span) : ∀ v, ofJson v = .ok s ↔ HasParts s.parts v := by
  obtain ⟨start, stop⟩ := s
  refine record_eq_ok_iff
    [("end", (Position.ofJson · = .ok stop)), ("start", (Position.ofJson · = .ok start))]
    (by simp [parts, or_comm]) (fun o => ?_) (fun vs => ?_) fun v reads => ?_
  · simp [-bind_pure_comp, ofJson, bind_eq_ok_iff, pure_eq_ok_iff]
  · simp [-bind_pure_comp, ofJson, HasElements, parts, bind_eq_ok_iff, pure_eq_ok_iff]
  · cases v <;> simp_all [ofJson]

theorem overlooks : Overlooks ofJson skeleton := by
  refine overlooks_record (fun o o' kept => ?_) (fun vs vs' kept => ?_)
  · have start := Position.overlooks.readField kept "start" rfl
    have stop := Position.overlooks.readField kept "end" rfl
    simp only [ofJson, start, stop]
  · have start := Position.overlooks.readElement kept 0 rfl
    have stop := Position.overlooks.readElement kept 1 rfl
    simp only [ofJson, start, stop, kept.noMore]

theorem outlives (s : Span) : OutlivesListing skeleton (ofJson · = .ok s) := by
  refine outlives_record (ofJson_eq_ok_iff _) (by decide) ?_
  exact .cons ⟨rfl, Position.outlives _⟩ (.cons ⟨rfl, Position.outlives _⟩ .nil)

end Span

/-! ## Nodes -/

namespace TextNode

def skeleton : Skeleton :=
  .record [("type", .whole), ("raw", .whole), ("value", .whole), ("range", .whole),
    ("loc", Span.skeleton)]

def parts (n : TextNode) : List (String × (Json → Prop)) :=
  [("type", (NodeKind.ofJson · = .ok n.kind)), ("raw", (readText · = .ok n.raw)),
    ("value", (readText · = .ok n.value)), ("range", (ByteRange.ofJson · = .ok n.range)),
    ("loc", (Span.ofJson · = .ok n.span))]

theorem ofJson_eq_ok_iff (n : TextNode) : ∀ v, ofJson v = .ok n ↔ HasParts n.parts v := by
  obtain ⟨kind, raw, value, range, span⟩ := n
  refine record_eq_ok_iff
    [("loc", (Span.ofJson · = .ok span)), ("range", (ByteRange.ofJson · = .ok range)),
      ("raw", (readText · = .ok raw)), ("type", (NodeKind.ofJson · = .ok kind)),
      ("value", (readText · = .ok value))]
    (by simp [parts]; tauto) (fun o => ?_) (fun vs => ?_) fun v reads => ?_
  · simp [-bind_pure_comp, ofJson, bind_eq_ok_iff, pure_eq_ok_iff]
  · simp [-bind_pure_comp, ofJson, HasElements, parts, bind_eq_ok_iff, pure_eq_ok_iff]
  · cases v <;> simp_all [ofJson]

theorem overlooks : Overlooks ofJson skeleton := by
  refine overlooks_record (fun o o' kept => ?_) (fun vs vs' kept => ?_)
  · have kind := (overlooks_whole NodeKind.ofJson).readField kept "type" rfl
    have raw := (overlooks_whole readText).readField kept "raw" rfl
    have value := (overlooks_whole readText).readField kept "value" rfl
    have range := (overlooks_whole ByteRange.ofJson).readField kept "range" rfl
    have span := Span.overlooks.readField kept "loc" rfl
    simp only [ofJson, kind, raw, value, range, span]
  · have kind := (overlooks_whole NodeKind.ofJson).readElement kept 0 rfl
    have raw := (overlooks_whole readText).readElement kept 1 rfl
    have value := (overlooks_whole readText).readElement kept 2 rfl
    have range := (overlooks_whole ByteRange.ofJson).readElement kept 3 rfl
    have span := Span.overlooks.readElement kept 4 rfl
    simp only [ofJson, kind, raw, value, range, span, kept.noMore]

theorem outlives (n : TextNode) : OutlivesListing skeleton (ofJson · = .ok n) := by
  refine outlives_record (ofJson_eq_ok_iff _) (by decide) ?_
  exact .cons ⟨rfl, outlives_whole _⟩ <| .cons ⟨rfl, outlives_whole _⟩ <|
    .cons ⟨rfl, outlives_whole _⟩ <| .cons ⟨rfl, outlives_whole _⟩ <|
    .cons ⟨rfl, Span.outlives _⟩ .nil

end TextNode

namespace Document

def skeleton : Skeleton :=
  .record [("type", .whole), ("raw", .whole), ("range", .whole), ("loc", Span.skeleton),
    ("children", .list TextNode.skeleton)]

def parts (d : Document) : List (String × (Json → Prop)) :=
  [("type", (NodeKind.ofJson · = .ok d.kind)), ("raw", (readText · = .ok d.raw)),
    ("range", (ByteRange.ofJson · = .ok d.range)), ("loc", (Span.ofJson · = .ok d.span)),
    ("children", (readList TextNode.ofJson · = .ok d.children))]

theorem ofJson_eq_ok_iff (d : Document) : ∀ v, ofJson v = .ok d ↔ HasParts d.parts v := by
  obtain ⟨kind, raw, range, span, children⟩ := d
  refine record_eq_ok_iff
    [("children", (readList TextNode.ofJson · = .ok children)), ("loc", (Span.ofJson · = .ok span)),
      ("range", (ByteRange.ofJson · = .ok range)), ("raw", (readText · = .ok raw)),
      ("type", (NodeKind.ofJson · = .ok kind))]
    (by simp [parts]; tauto) (fun o => ?_) (fun vs => ?_) fun v reads => ?_
  · simp [-bind_pure_comp, ofJson, bind_eq_ok_iff, pure_eq_ok_iff]
  · simp [-bind_pure_comp, ofJson, HasElements, parts, bind_eq_ok_iff, pure_eq_ok_iff]
  · cases v <;> simp_all [ofJson]

theorem overlooks : Overlooks ofJson skeleton := by
  refine overlooks_record (fun o o' kept => ?_) (fun vs vs' kept => ?_)
  · have kind := (overlooks_whole NodeKind.ofJson).readField kept "type" rfl
    have raw := (overlooks_whole readText).readField kept "raw" rfl
    have range := (overlooks_whole ByteRange.ofJson).readField kept "range" rfl
    have span := Span.overlooks.readField kept "loc" rfl
    have children := TextNode.overlooks.list.readField kept "children" rfl
    simp only [ofJson, kind, raw, range, span, children]
  · have kind := (overlooks_whole NodeKind.ofJson).readElement kept 0 rfl
    have raw := (overlooks_whole readText).readElement kept 1 rfl
    have range := (overlooks_whole ByteRange.ofJson).readElement kept 2 rfl
    have span := Span.overlooks.readElement kept 3 rfl
    have children := TextNode.overlooks.list.readElement kept 4 rfl
    simp only [ofJson, kind, raw, range, span, children, kept.noMore]

theorem outlives (d : Document) : OutlivesListing skeleton (ofJson · = .ok d) := by
  refine outlives_record (ofJson_eq_ok_iff _) (by decide) ?_
  exact .cons ⟨rfl, outlives_whole _⟩ <| .cons ⟨rfl, outlives_whole _⟩ <|
    .cons ⟨rfl, outlives_whole _⟩ <| .cons ⟨rfl, Span.outlives _⟩ <|
    .cons ⟨rfl, outlives_list TextNode.outlives _⟩ .nil

end Document

/-! ## Reports and settings -/

namespace Report

/-- The messages are taken as they are. -/
def skeleton : Skeleton := .record [("messages", .whole), ("filePath", .whole)]

def parts (r : Report) : List (String × (Json → Prop)) :=
  [("messages", (readList readAny · = .ok r.messages)), ("filePath", (readText · = .ok r.filePath))]

theorem ofJson_eq_ok_iff (r : Report) : ∀ v, ofJson v = .ok r ↔ HasParts r.parts v := by
  obtain ⟨messages, filePath⟩ := r
  refine record_eq_ok_iff
    [("filePath", (readText · = .ok filePath)), ("messages", (readList readAny · = .ok messages))]
    (by simp [parts, or_comm]) (fun o => ?_) (fun vs => ?_) fun v reads => ?_
  · simp [-bind_pure_comp, ofJson, bind_eq_ok_iff, pure_eq_ok_iff]
  · simp [-bind_pure_comp, ofJson, HasElements, parts, bind_eq_ok_iff, pure_eq_ok_iff]
  · cases v <;> simp_all [ofJson]

theorem overlooks : Overlooks ofJson skeleton := by
  refine overlooks_record (fun o o' kept => ?_) (fun vs vs' kept => ?_)
  · have messages := (overlooks_whole (readList readAny)).readField kept "messages" rfl
    have filePath := (overlooks_whole readText).readField kept "filePath" rfl
    simp only [ofJson, messages, filePath]
  · have messages := (overlooks_whole (readList readAny)).readElement kept 0 rfl
    have filePath := (overlooks_whole readText).readElement kept 1 rfl
    simp only [ofJson, messages, filePath, kept.noMore]

theorem outlives (r : Report) : OutlivesListing skeleton (ofJson · = .ok r) := by
  refine outlives_record (ofJson_eq_ok_iff _) (by decide) ?_
  exact .cons ⟨rfl, outlives_whole _⟩ (.cons ⟨rfl, outlives_whole _⟩ .nil)

end Report

namespace Settings

def skeleton : Skeleton := .record [("extensions", .whole)]

theorem overlooks : Overlooks ofJson skeleton := by
  intro v v' change
  cases edit_of_change (by simp) change with
  | intro same => rw [ofJson, ofJson, readField, readField, same _ List.mem_cons_self]

theorem outlives (s : Settings) : OutlivesListing skeleton (ofJson · = .ok s) := by
  intro v v' change reads
  cases edit_of_change (by simp) change with
  | intro values =>
    -- The list has the one value that the object has for the one key.
    cases values with
    | @cons _ v _ _ found none =>
      cases none
      rw [ofJson, readField, found] at reads
      cases own : readList readText v with
      | error cause => simp [own, Except.map] at reads
      | ok extensions =>
        obtain rfl : ⟨extensions⟩ = s := by simpa [own, Except.map] using reads
        rw [ofJson, own]
        rfl

theorem ofHost_overlooks : Overlooks ofHost skeleton := by
  intro v v' change
  have same := overlooks v v' change
  cases edit_of_change (by simp) change with
  | intro => exact congrArg (Except.mapError Error.json) same

theorem ofHost_outlives (s : Settings) : OutlivesListing skeleton (ofHost · = .ok s) := by
  intro v v' change reads
  have again := outlives s v v' change
  cases edit_of_change (by simp) change with
  | intro => exact mapError_eq_ok_iff.2 (again (mapError_eq_ok_iff.1 reads))

end Settings

/-! ## All types -/

/-- A reader takes no notice of other fields in the records of a value, and reads the same from a
value in which lists stand in the place of records. -/
structure Insensitive {α ε : Type} (read : Json → Except ε α) (s : Skeleton) : Prop where
  otherFields : ∀ v v', Relation.ReflTransGen (s.Change OtherFields) v v' → read v' = read v
  listed : ∀ v v' x, Relation.ReflTransGen (s.Change Listed) v v' → read v = .ok x → read v' = .ok x

theorem insensitive {α ε : Type} {read : Json → Except ε α} {s : Skeleton}
    (overlooks : Overlooks read s) (outlives : ∀ x, OutlivesListing s (read · = .ok x)) :
    Insensitive read s where
  otherFields v v' changes := by
    induction changes with
    | refl => rfl
    | tail _ last ih => rw [overlooks _ _ last, ih]
  listed v v' x changes reads := by
    induction changes with
    | refl => exact reads
    | tail _ last ih => exact outlives x _ _ last ih

/-- For every type of the format the outcome is the same when any records in a value get other
fields besides the declared ones, and what was read is read again when any objects that have all
declared fields give way to the lists of these. -/
theorem ofJson_insensitive :
    Insensitive Document.ofJson Document.skeleton ∧ Insensitive TextNode.ofJson TextNode.skeleton ∧
    Insensitive Span.ofJson Span.skeleton ∧ Insensitive Position.ofJson Position.skeleton ∧
    Insensitive Report.ofJson Report.skeleton ∧ Insensitive Settings.ofJson Settings.skeleton ∧
    Insensitive Settings.ofHost Settings.skeleton :=
  ⟨insensitive Document.overlooks Document.outlives,
    insensitive TextNode.overlooks TextNode.outlives,
    insensitive Span.overlooks Span.outlives,
    insensitive Position.overlooks Position.outlives,
    insensitive Report.overlooks Report.outlives,
    insensitive Settings.overlooks Settings.outlives,
    insensitive Settings.ofHost_overlooks Settings.ofHost_outlives⟩

/-- The fields of a position. -/
def startFields : List (String × Json) := [("column", .int 0), ("line", .int 1)]

/-- A span whose start is given in some form. -/
def spanFrom (start : Json) : Json := .obj [("end", .arr [.int 1, .int 7]), ("start", start)]

/-- The start of a span gets a further field, and gives way to a list.  With the further field an
end that is missing is still reported. -/
theorem ofJson_insensitive_start :
    Span.ofJson (spanFrom (.obj (insert "length" (.str "7") startFields))) =
      Span.ofJson (spanFrom (.obj startFields)) ∧
    Span.ofJson (.obj [("start", .obj (insert "length" (.str "7") startFields))]) =
      .error (.missing "end") ∧
    Span.ofJson (spanFrom (.arr [.int 1, .int 0])) = .ok ⟨⟨1, 0⟩, ⟨1, 7⟩⟩ := by
  obtain ⟨-, -, spans, -⟩ := ofJson_insensitive
  have further : Position.skeleton.Change OtherFields (.obj startFields)
      (.obj (insert "length" (.str "7") startFields)) :=
    .here (otherFields_insert (by decide) _ _)
  have listed : Position.skeleton.Change Listed (.obj startFields) (.arr [.int 1, .int 0]) :=
    .here (.intro (.cons rfl (.cons rfl .nil)))
  refine ⟨?_, ?_, ?_⟩
  · exact spans.otherFields _ _ (.single (@Skeleton.Change.field _ _ "start" _
      [("end", .arr [.int 1, .int 7])] [] _ _ rfl further))
  · exact spans.otherFields _ _ (.single (@Skeleton.Change.field _ _ "start" _
      [] [] _ _ rfl further))
  · exact spans.listed _ _ _ (.single (@Skeleton.Change.field _ _ "start" _
      [("end", .arr [.int 1, .int 7])] [] _ _ rfl listed)) rfl

end DocProse
