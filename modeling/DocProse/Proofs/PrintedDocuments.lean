import DocProse.CommandLine.Run
import DocProse.Proofs.JsonText
import DocProse.Proofs.RoundTrip
import DocProse.Proofs.SourceConsistency

/-!
# The printed list of documents

The list that `ast` prints can be read again (`readEntries`).  Each entry is an object
with a document and the path of its file, and nothing else, and what is read are the
files and documents that the list was printed for (`readEntries_pretty`).

This takes that all offsets in the documents fit 64 bits.  The documents of texts do,
whatever the grammar, unless the size of a text comes to the last word of 64 bits
(`Grammar.fits_document`).
-/

namespace DocProse

open Text

/-! ## Documents are plain values -/

section Plain

open Json

theorem Json.plain_nat {n : Nat} (fits : n ≤ maxWord) : (nat n).Plain := by
  refine .int (Int.le_trans ?_ (Int.natCast_nonneg n)) (Int.ofNat_le.2 fits)
  decide

theorem Position.Fits.plain {p : Position} (fits : p.Fits) : p.toJson.Plain := by
  have ascending : ["column", "line"].Pairwise (· < ·) := by decide
  exact .obj ascending (by simp [plain_nat, fits.column, fits.line])

theorem Span.Fits.plain {s : Span} (fits : s.Fits) : s.toJson.Plain := by
  have ascending : ["end", "start"].Pairwise (· < ·) := by decide
  exact .obj ascending (by simp [fits.start.plain, fits.stop.plain])

theorem ByteRange.Fits.plain {r : ByteRange} (fits : r.Fits) : r.toJson.Plain :=
  .arr (by simp [plain_nat, fits.start, fits.stop])

theorem TextNode.Fits.plain {n : TextNode} (fits : n.Fits) : n.toJson.Plain := by
  have ascending : ["loc", "range", "raw", "type", "value"].Pairwise (· < ·) := by decide
  have texts : ∀ s, (Json.str s).Plain := .str
  exact .obj ascending (by simp [fits.span.plain, fits.range.plain, texts, NodeKind.toJson])

theorem Document.Fits.plain {d : Document} (fits : d.Fits) : d.toJson.Plain := by
  have ascending : ["children", "loc", "range", "raw", "type"].Pairwise (· < ·) := by decide
  have texts : ∀ s, (Json.str s).Plain := .str
  have nodes : (Json.arr (d.children.map TextNode.toJson)).Plain := by
    refine .arr fun v inside => ?_
    obtain ⟨n, child, rfl⟩ := List.mem_map.1 inside
    exact (fits.children n child).plain
  exact .obj ascending (by simp [nodes, fits.span.plain, fits.range.plain, texts, NodeKind.toJson])

end Plain

/-! ## Documents of texts -/

/-- A cursor gets no further than one line or column for each byte. -/
theorem Position.foldl_advance_le (p : Position) (cs : List Char) :
    (cs.foldl advance p).line ≤ p.line + byteSize cs ∧
      (cs.foldl advance p).column ≤ p.column + byteSize cs := by
  induction cs generalizing p with
  | nil => exact ⟨Nat.le_refl _, Nat.le_refl _⟩
  | cons c cs ih =>
    have behind := ih (p.advance c)
    have size : 0 < c.utf8Size := c.utf8Size_pos
    have one : (p.advance c).line ≤ p.line + c.utf8Size ∧
        (p.advance c).column ≤ p.column + c.utf8Size := by
      rw [advance]
      split
      · exact ⟨Nat.add_le_add_left size p.line, Nat.zero_le _⟩
      · exact ⟨Nat.le_add_right _ _, Nat.le_refl _⟩
    rw [List.foldl_cons, byteSize]
    omega

variable {text : String}

theorem fits_position {offset : Nat} (boundary : IsBoundary offset text.toList)
    (short : text.utf8ByteSize < Json.maxWord) :
    ((LineTable.ofText text).position offset).Fits := by
  obtain ⟨before, behind, whole, rfl⟩ := boundary
  have bounds := Position.foldl_advance_le Position.first before
  rw [utf8ByteSize_eq, whole, byteSize_append] at short
  rw [LineTable.ofText, whole, LineTable.position_ofChars_append]
  have line : Position.first.line = 1 := rfl
  have column : Position.first.column = 0 := rfl
  exact ⟨Nat.le_trans bounds.1 (by omega), Nat.le_trans bounds.2 (by omega)⟩

theorem TextNode.Quotes.fits {c : TextNode} (quotes : c.Quotes text)
    (short : text.utf8ByteSize < Json.maxWord) : c.Fits := by
  have inside := quotes.inside
  have long := quotes.long
  refine ⟨⟨by omega, by omega⟩, ?_⟩
  rw [quotes.span_eq]
  exact ⟨fits_position quotes.start_boundary short, fits_position quotes.stop_boundary short⟩

/-- The offsets in a document of a text fit. -/
theorem Grammar.fits_document {g : Grammar} {dialect : Dialect} {doc : Document}
    (built : g.document dialect text = .ok doc) (short : text.utf8ByteSize < Json.maxWord) :
    doc.Fits := by
  rw [eq_documentOf built]
  have start : Position.first.Fits := ⟨by decide, by decide⟩
  have stop : (endPosition text).Fits := by
    have last := fits_position ⟨text.toList, [], by simp, (utf8ByteSize_eq text).symm⟩ short
    rwa [LineTable.ofText, utf8ByteSize_eq, LineTable.position_byteSize,
      ← endOfChars_eq_behind] at last
  refine ⟨⟨Nat.zero_le _, Nat.le_of_lt short⟩, ⟨start, stop⟩, ?_⟩
  intro c child
  obtain ⟨range, -, found⟩ := List.mem_filterMap.1 child
  exact (quotes_of_textAt?_eq_some found).fits short

/-! ## Reading the list -/

namespace CommandLine

/-- The file and the document of an entry: an object with the document under `ast`, the path under
`filePath`, and nothing else. -/
def readEntry : Json → Option (String × Document)
  | .obj [("ast", ast), ("filePath", .str path)] =>
    match Document.ofJson ast with
    | .ok d => some (path, d)
    | .error _ => none
  | _ => none

/-- The files and documents of an output that is one list of entries. -/
def readEntries : List String → Option (List (String × Document))
  | [text] =>
    match Json.parse text with
    | some (.arr vs) => vs.mapM readEntry
    | _ => none
  | _ => none

variable {entries : List (String × Document)}

theorem readEntry_entryJson (path : String) {d : Document} (fits : d.Fits) :
    readEntry (entryJson path d) = some (path, d) := by
  simp only [readEntry, entryJson, Document.roundTrip.read_write d fits]

theorem plain_entryJson (path : String) {d : Document} (fits : d.Fits) :
    (entryJson path d).Plain := by
  have ascending : ["ast", "filePath"].Pairwise (· < ·) := by decide
  exact .obj ascending (by simp [fits.plain, Json.Plain.str path])

theorem mapM_readEntry (fit : ∀ e ∈ entries, e.2.Fits) :
    (entries.map fun e => entryJson e.1 e.2).mapM readEntry = some entries := by
  induction entries with
  | nil => rfl
  | cons e entries ih =>
    have first := readEntry_entryJson e.1 (fit e List.mem_cons_self)
    have others := ih fun f listed => fit f (List.mem_cons_of_mem e listed)
    rw [List.map_cons, List.mapM_cons, first, others]
    rfl

/-- The list is read as what it was printed for. -/
theorem readEntries_pretty (fit : ∀ e ∈ entries, e.2.Fits) :
    readEntries [(Json.arr (entries.map fun e => entryJson e.1 e.2)).pretty] = some entries := by
  have plain : (Json.arr (entries.map fun e => entryJson e.1 e.2)).Plain := by
    refine .arr fun v inside => ?_
    obtain ⟨e, listed, rfl⟩ := List.mem_map.1 inside
    exact plain_entryJson e.1 (fit e listed)
  rw [readEntries, Json.parse_pretty plain]
  exact mapM_readEntry fit

end CommandLine

end DocProse
