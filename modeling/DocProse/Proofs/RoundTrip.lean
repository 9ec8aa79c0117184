import DocProse.Document.Format
import DocProse.Processor
import DocProse.Proofs.Reading

/-!
# Reading what was written

Each type of the format is read back from the JSON value it is written as.  The
round trip of a record is put together from those of its fields: the reader finds
every field that the writer names, and all fields that a record is read with
fit, whether it was an object or a list.

Offsets have to fit 64 bits (`Position.Fits` and its like for the types that hold
positions and ranges).  Nothing is asked of texts, children and messages.
`readBack` is the statement for all types of the format, and says as well that a
value which was read in any shape is read again after it is written.
-/

namespace DocProse

open Json

/-! ## Kinds, positions and spans -/

theorem NodeKind.roundTrip : RoundTrip (fun _ => True) NodeKind.toJson NodeKind.ofJson where
  read_write k _ := by cases k <;> rfl
  fits_of_read _ := .any _

namespace Position

/-- The line and the column have 64 bits at most. -/
structure Fits (p : Position) : Prop where
  line : p.line ≤ maxWord
  column : p.column ≤ maxWord

instance (p : Position) : Decidable p.Fits :=
  decidable_of_iff (p.line ≤ maxWord ∧ p.column ≤ maxWord)
    ⟨fun h => ⟨h.1, h.2⟩, fun h => ⟨h.line, h.column⟩⟩

theorem roundTrip : RoundTrip Fits toJson ofJson where
  read_write p fit := by
    rw [toJson, ofJson, roundTrip_size.readField_write fit.column rfl,
      roundTrip_size.readField_write fit.line rfl]
    rfl
  fits_of_read v := by
    cases v with
    | obj fields =>
      refine .bind (yields_readField yields_readSize fields "column") fun _ column => ?_
      refine .bind (yields_readField yields_readSize fields "line") fun _ line => ?_
      refine .bind (yields_required "line" line) fun _ line => ?_
      refine .bind (yields_required "column" column) fun _ column => ?_
      exact .ok ⟨line, column⟩
    | arr vs =>
      refine .bind (yields_readElement yields_readSize vs 0 _) fun _ line => ?_
      refine .bind (yields_readElement yields_readSize vs 1 _) fun _ column => ?_
      exact .skip fun _ => .ok ⟨line, column⟩
    | _ => exact .error _

end Position

namespace Span

/-- Both ends of a span fit. -/
structure Fits (s : Span) : Prop where
  start : s.start.Fits
  stop : s.stop.Fits

instance (s : Span) : Decidable s.Fits :=
  decidable_of_iff (s.start.Fits ∧ s.stop.Fits) ⟨fun h => ⟨h.1, h.2⟩, fun h => ⟨h.start, h.stop⟩⟩

theorem roundTrip : RoundTrip Fits toJson ofJson where
  read_write s fit := by
    rw [toJson, ofJson, Position.roundTrip.readField_write fit.stop rfl,
      Position.roundTrip.readField_write fit.start rfl]
    rfl
  fits_of_read v := by
    have ends := Position.roundTrip.fits_of_read
    cases v with
    | obj fields =>
      refine .bind (yields_readField ends fields "end") fun _ stop => ?_
      refine .bind (yields_readField ends fields "start") fun _ start => ?_
      refine .bind (yields_required "start" start) fun _ start => ?_
      refine .bind (yields_required "end" stop) fun _ stop => ?_
      exact .ok ⟨start, stop⟩
    | arr vs =>
      refine .bind (yields_readElement ends vs 0 _) fun _ start => ?_
      refine .bind (yields_readElement ends vs 1 _) fun _ stop => ?_
      exact .skip fun _ => .ok ⟨start, stop⟩
    | _ => exact .error _

end Span

namespace ByteRange

/-- Both ends of a range have 64 bits at most. -/
structure Fits (r : ByteRange) : Prop where
  start : r.start ≤ maxWord
  stop : r.stop ≤ maxWord

instance (r : ByteRange) : Decidable r.Fits :=
  decidable_of_iff (r.start ≤ maxWord ∧ r.stop ≤ maxWord)
    ⟨fun h => ⟨h.1, h.2⟩, fun h => ⟨h.start, h.stop⟩⟩

theorem roundTrip : RoundTrip Fits toJson ofJson where
  read_write r fit := by
    have start := roundTrip_size.read_write _ fit.start
    have stop := roundTrip_size.read_write _ fit.stop
    simp only [toJson, ofJson, readPair, readElement, List.getElem?_cons_zero,
      List.getElem?_cons_succ, start, stop]
    rfl
  fits_of_read v :=
    .map fun q reads =>
      have ends := yields_readPair yields_readSize v q reads
      ⟨ends.1, ends.2⟩

end ByteRange

/-! ## Nodes -/

namespace TextNode

/-- All offsets of a text node fit. -/
structure Fits (n : TextNode) : Prop where
  range : n.range.Fits
  span : n.span.Fits

instance (n : TextNode) : Decidable n.Fits :=
  decidable_of_iff (n.range.Fits ∧ n.span.Fits) ⟨fun h => ⟨h.1, h.2⟩, fun h => ⟨h.range, h.span⟩⟩

theorem roundTrip : RoundTrip Fits toJson ofJson where
  read_write n fit := by
    rw [toJson, ofJson, Span.roundTrip.readField_write fit.span rfl,
      ByteRange.roundTrip.readField_write fit.range rfl,
      roundTrip_text.readField_write trivial rfl,
      NodeKind.roundTrip.readField_write trivial rfl,
      roundTrip_text.readField_write trivial rfl]
    rfl
  fits_of_read v := by
    have ranges := ByteRange.roundTrip.fits_of_read
    have spans := Span.roundTrip.fits_of_read
    cases v with
    | obj fields =>
      refine .bind (yields_readField spans fields "loc") fun _ span => ?_
      refine .bind (yields_readField ranges fields "range") fun _ range => ?_
      -- The two texts and the kind are read here and required here, and always fit.
      refine .skip fun _ => .skip fun _ => .skip fun _ => ?_
      refine .skip fun _ => .skip fun _ => .skip fun _ => ?_
      refine .bind (yields_required "range" range) fun _ range => ?_
      refine .bind (yields_required "loc" span) fun _ span => ?_
      exact .ok ⟨range, span⟩
    | arr vs =>
      refine .skip fun _ => .skip fun _ => .skip fun _ => ?_
      refine .bind (yields_readElement ranges vs 3 _) fun _ range => ?_
      refine .bind (yields_readElement spans vs 4 _) fun _ span => ?_
      exact .skip fun _ => .ok ⟨range, span⟩
    | _ => exact .error _

end TextNode

namespace Document

/-- All offsets of a document fit, and those of its children. -/
structure Fits (d : Document) : Prop where
  range : d.range.Fits
  span : d.span.Fits
  children : ∀ n ∈ d.children, n.Fits

instance (d : Document) : Decidable d.Fits :=
  decidable_of_iff (d.range.Fits ∧ d.span.Fits ∧ ∀ n ∈ d.children, n.Fits)
    ⟨fun h => ⟨h.1, h.2.1, h.2.2⟩, fun h => ⟨h.range, h.span, h.children⟩⟩

theorem roundTrip : RoundTrip Fits toJson ofJson where
  read_write d fit := by
    rw [toJson, ofJson, TextNode.roundTrip.list.readField_write fit.children rfl,
      Span.roundTrip.readField_write fit.span rfl,
      ByteRange.roundTrip.readField_write fit.range rfl,
      roundTrip_text.readField_write trivial rfl,
      NodeKind.roundTrip.readField_write trivial rfl]
    rfl
  fits_of_read v := by
    have ranges := ByteRange.roundTrip.fits_of_read
    have spans := Span.roundTrip.fits_of_read
    have lists := TextNode.roundTrip.list.fits_of_read
    cases v with
    | obj fields =>
      refine .bind (yields_readField lists fields "children") fun _ children => ?_
      refine .bind (yields_readField spans fields "loc") fun _ span => ?_
      refine .bind (yields_readField ranges fields "range") fun _ range => ?_
      -- So are the text and the kind of a document.
      refine .skip fun _ => .skip fun _ => ?_
      refine .skip fun _ => .skip fun _ => ?_
      refine .bind (yields_required "range" range) fun _ range => ?_
      refine .bind (yields_required "loc" span) fun _ span => ?_
      refine .bind (yields_required "children" children) fun _ children => ?_
      exact .ok ⟨range, span, children⟩
    | arr vs =>
      refine .skip fun _ => .skip fun _ => ?_
      refine .bind (yields_readElement ranges vs 2 _) fun _ range => ?_
      refine .bind (yields_readElement spans vs 3 _) fun _ span => ?_
      refine .bind (yields_readElement lists vs 4 _) fun _ children => ?_
      exact .skip fun _ => .ok ⟨range, span, children⟩
    | _ => exact .error _

end Document

/-! ## Reports and settings -/

/-- Messages are read as they are. -/
theorem Report.roundTrip : RoundTrip (fun _ => True) Report.toJson Report.ofJson where
  read_write r _ := by
    have messages : r.messages.map id = r.messages := List.map_id _
    rw [Report.toJson, Report.ofJson, roundTrip_text.readField_write trivial rfl,
      roundTrip_any.list.readField_write (x := r.messages) (fun _ _ => trivial)
        (by rw [messages]; rfl)]
    rfl
  fits_of_read _ := .any _

theorem Settings.roundTrip : RoundTrip (fun _ => True) Settings.toJson Settings.ofJson where
  read_write s _ := by
    rw [Settings.toJson, Settings.ofJson,
      roundTrip_text.list.readField_write (x := s.extensions) (fun _ _ => trivial) rfl]
    rfl
  fits_of_read _ := .any _

/-! ## The format -/

/-- Every value of the format whose offsets fit 64 bits is read back from what it is written as.  A
value that was read from JSON of any shape is read again after it is written. -/
theorem readBack :
    (∀ k, NodeKind.ofJson (NodeKind.toJson k) = .ok k) ∧
    (∀ p, Position.Fits p → Position.ofJson p.toJson = .ok p) ∧
    (∀ s, Span.Fits s → Span.ofJson s.toJson = .ok s) ∧
    (∀ n, TextNode.Fits n → TextNode.ofJson n.toJson = .ok n) ∧
    (∀ d, Document.Fits d → Document.ofJson d.toJson = .ok d) ∧
    (∀ r, Report.ofJson (Report.toJson r) = .ok r) ∧
    (∀ s, Settings.ofJson (Settings.toJson s) = .ok s) ∧
    (∀ v k, NodeKind.ofJson v = .ok k → NodeKind.ofJson k.toJson = .ok k) ∧
    (∀ v p, Position.ofJson v = .ok p → Position.ofJson p.toJson = .ok p) ∧
    (∀ v s, Span.ofJson v = .ok s → Span.ofJson s.toJson = .ok s) ∧
    (∀ v n, TextNode.ofJson v = .ok n → TextNode.ofJson n.toJson = .ok n) ∧
    (∀ v d, Document.ofJson v = .ok d → Document.ofJson d.toJson = .ok d) ∧
    (∀ v r, Report.ofJson v = .ok r → Report.ofJson r.toJson = .ok r) ∧
    ∀ v s, Settings.ofJson v = .ok s → Settings.ofJson s.toJson = .ok s := by
  refine ⟨?_, Position.roundTrip.read_write, Span.roundTrip.read_write,
    TextNode.roundTrip.read_write, Document.roundTrip.read_write, ?_, ?_,
    fun _ _ => NodeKind.roundTrip.read_write_of_read,
    fun _ _ => Position.roundTrip.read_write_of_read,
    fun _ _ => Span.roundTrip.read_write_of_read,
    fun _ _ => TextNode.roundTrip.read_write_of_read,
    fun _ _ => Document.roundTrip.read_write_of_read,
    fun _ _ => Report.roundTrip.read_write_of_read,
    fun _ _ => Settings.roundTrip.read_write_of_read⟩
  · intro k
    exact NodeKind.roundTrip.read_write k trivial
  · intro r
    exact Report.roundTrip.read_write r trivial
  · intro s
    exact Settings.roundTrip.read_write s trivial

/-- A text that ends at the last offset there is. -/
def farNode : TextNode := TextNode.new "é\n" ⟨0, maxWord⟩ ⟨⟨1, 0⟩, ⟨2, maxWord⟩⟩

/-- The fields of `farNode` in the order of declaration. -/
def farNodeListed : Json :=
  .arr [.obj [("Str", .null)], .str "é\n", .str "é\n", .arr [.int 0, .int maxWord],
    .arr [.arr [.int 1, .int 0], .obj [("column", .int maxWord), ("line", .int 2)]]]

/-- A node that was given as the list of its fields, and the largest offset. -/
theorem readBack_listed :
    Position.Fits ⟨2, maxWord⟩ ∧
    Position.ofJson (Position.toJson ⟨2, maxWord⟩) = .ok ⟨2, maxWord⟩ ∧
    Span.ofJson farNode.span.toJson = .ok farNode.span ∧
    farNode.Fits ∧ TextNode.ofJson farNodeListed = .ok farNode ∧
    TextNode.ofJson farNode.toJson = .ok farNode ∧
    Document.ofJson (Document.new "" farNode.span [farNode]).toJson =
      .ok (Document.new "" farNode.span [farNode]) ∧
    NodeKind.ofJson NodeKind.str.toJson = .ok .str ∧
    Report.ofJson (Report.mk [.null] "a").toJson = .ok ⟨[.null], "a"⟩ ∧
    Settings.ofJson (Settings.mk []).toJson = .ok ⟨[]⟩ := by
  have start : Position.Fits ⟨1, 0⟩ := ⟨by decide, by decide⟩
  have stop : Position.Fits ⟨2, maxWord⟩ := ⟨by decide, Nat.le_refl maxWord⟩
  have node : farNode.Fits := ⟨⟨by decide, Nat.le_refl maxWord⟩, start, stop⟩
  have document : (Document.new "" farNode.span [farNode]).Fits := by
    refine ⟨⟨by decide, by decide⟩, node.span, ?_⟩
    intro n membership
    rw [List.mem_singleton.1 membership]
    exact node
  have listed : TextNode.ofJson farNodeListed = .ok farNode := rfl
  obtain ⟨-, position, span, -, whole, -, -, kind, -, -, again, -, report, settings⟩ := readBack
  exact ⟨stop, position _ stop, span _ node.span, node, listed, again _ _ listed,
    whole _ document, kind (.obj [("Str", .null)]) _ rfl,
    report (.arr [.arr [.null], .str "a"]) _ rfl, settings (.arr []) _ rfl⟩

end DocProse
