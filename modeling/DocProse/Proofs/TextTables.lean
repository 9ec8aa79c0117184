import DocProse.Proofs.ByteCursor
import Mathlib.Data.List.Chain

/-!
# The tables of texts

The table of a text has an entry at zero and right behind each byte of a line
feed, and nowhere else (`mem_starts_ofText_iff`).  Its entries are in order, so it
passes where the entries of a table are checked (`ofStarts?_eq_some_iff`).

Every table in order that starts at zero is the table of a text.  `blankLines`
writes one, with as many spaces before each line feed as are missing up to the next
entry.  The entries are found in it again (`startsAfterBreaks_blankLines`), and it
ends where its last line starts (`getLast?_eq_byteSize_blankLines`).  Both ways
together are `ofText_exact`.
-/

namespace DocProse

open Text

namespace LineTable

variable {t : LineTable} {offset start i : Nat} {starts : List Nat} {xs : List Char}

/-! ## Entries from elsewhere -/

/-- Entries are in order when neighbours are. -/
theorem isAscending_iff_pairwise : isAscending starts = true ↔ starts.Pairwise (· < ·) := by
  rw [← List.isChain_iff_pairwise]
  fun_induction isAscending starts with
  | case1 a b rest ih =>
    rw [Bool.and_eq_true, decide_eq_true_eq, ih, List.isChain_cons_cons]
  | case2 starts short =>
    match starts, short with
    | [], _ => simp
    | [a], _ => simp
    | a :: b :: rest, short => exact absurd rfl (short a b rest)

/-- Exactly the entries in order make a table. -/
theorem ofStarts?_eq_some_iff {starts : Array Nat} :
    ofStarts? starts = some t ↔ t.starts = starts ∧ t.Increasing := by
  rw [ofStarts?]
  constructor
  · intro made
    split at made
    · next ascending =>
      cases made
      exact ⟨rfl, isAscending_iff_pairwise.1 ascending⟩
    · cases made
  · rintro ⟨rfl, increasing⟩
    rw [if_pos (isAscending_iff_pairwise.2 increasing)]

/-! ## The entries of a text -/

/-- A line starts at zero and right behind each byte of a line feed. -/
theorem mem_starts_ofText_iff {text : String} :
    i ∈ (ofText text).starts ↔
      i = 0 ∨ i ≤ text.utf8ByteSize ∧ (bytes text.toList)[i - 1]? = some newlineByte := by
  rw [utf8ByteSize_eq, ← length_bytes]
  cases i with
  | zero => simp [ofText, ofChars]
  | succ i =>
    rw [← Array.mem_toList_iff, ofText, succ_mem_starts_ofChars_iff, Nat.add_sub_cancel]
    constructor
    · intro byte
      exact .inr ⟨(List.getElem?_eq_some_iff.1 byte).1, byte⟩
    · rintro (zero | ⟨-, byte⟩)
      · cases zero
      · exact byte

/-! ## A text for given entries -/

/-- A line of spaces between two offsets, with its line feed. -/
def blankLine (offset start : Nat) : List Char :=
  List.replicate (start - (offset + 1)) ' ' ++ ['\n']

/-- A text of such lines, behind an offset and up to each of the offsets that follow. -/
def blankLines (offset : Nat) : List Nat → List Char
  | [] => []
  | start :: starts => blankLine offset start ++ blankLines start starts

theorem byteSize_blankLine (next : offset < start) :
    offset + byteSize (blankLine offset start) = start := by
  have space : ' '.utf8Size = 1 := rfl
  have feed : byteSize ['\n'] = 1 := rfl
  rw [blankLine, byteSize_append, byteSize_replicate, space, feed]
  omega

/-- Characters without a line feed only move the line starts behind them. -/
theorem startsAfterBreaks_append_of_not_mem (whole : '\n' ∉ xs) (offset : Nat) (ys : List Char) :
    startsAfterBreaks offset (xs ++ ys) = startsAfterBreaks (offset + byteSize xs) ys := by
  induction xs generalizing offset with
  | nil => rfl
  | cons x xs ih =>
    rw [List.mem_cons, not_or] at whole
    rw [List.cons_append, startsAfterBreaks_of_ne (Ne.symm whole.1), ih whole.2, byteSize,
      Nat.add_assoc]

/-- Behind a blank line the next one starts. -/
theorem startsAfterBreaks_blankLine (next : offset < start) (cs : List Char) :
    startsAfterBreaks offset (blankLine offset start ++ cs) =
      start :: startsAfterBreaks start cs := by
  have blank : '\n' ∉ List.replicate (start - (offset + 1)) ' ' := by
    intro newline
    exact absurd (List.eq_of_mem_replicate newline) (by decide)
  have behind : offset + byteSize (List.replicate (start - (offset + 1)) ' ') + '\n'.utf8Size =
      start := by
    have size := byteSize_blankLine next
    rwa [blankLine, byteSize_append, ← Nat.add_assoc] at size
  rw [blankLine, List.append_assoc, startsAfterBreaks_append_of_not_mem blank,
    List.singleton_append, startsAfterBreaks_newline, behind]

/-- The lines start where they were asked to. -/
theorem startsAfterBreaks_blankLines (ordered : (offset :: starts).Pairwise (· < ·)) :
    startsAfterBreaks offset (blankLines offset starts) = starts := by
  induction starts generalizing offset with
  | nil => rfl
  | cons start starts ih =>
    obtain ⟨before, rest⟩ := List.pairwise_cons.1 ordered
    have next : offset < start := before start List.mem_cons_self
    rw [blankLines, startsAfterBreaks_blankLine next, ih rest]

/-- The text ends where its last line starts. -/
theorem getLast?_eq_byteSize_blankLines (ordered : (offset :: starts).Pairwise (· < ·)) :
    (offset :: starts).getLast? = some (offset + byteSize (blankLines offset starts)) := by
  induction starts generalizing offset with
  | nil => rfl
  | cons start starts ih =>
    obtain ⟨before, rest⟩ := List.pairwise_cons.1 ordered
    have next : offset < start := before start List.mem_cons_self
    rw [List.getLast?_cons_cons, ih rest, blankLines, byteSize_append, ← Nat.add_assoc,
      byteSize_blankLine next]

/-- A table in order that starts at zero is that of a text. -/
theorem exists_ofText (increasing : t.Increasing) (zero : t.starts[0]? = some 0) :
    ∃ text, ofText text = t ∧ t.starts.back? = some text.utf8ByteSize := by
  obtain ⟨⟨entries⟩⟩ := t
  cases entries with
  | nil => cases zero
  | cons start starts =>
    cases zero
    have ordered : (0 :: starts).Pairwise (· < ·) := increasing
    refine ⟨String.ofList (blankLines 0 starts), ?_, ?_⟩
    · rw [ofText, ofChars, String.toList_ofList, startsAfterBreaks_blankLines ordered]
    · rw [utf8ByteSize_eq, String.toList_ofList, List.back?_toArray,
        getLast?_eq_byteSize_blankLines ordered, Nat.zero_add]

/-- The table of a text is in order and starts at zero, and it has an entry right behind each byte
of a line feed and no others, so it passes where entries are checked.  Every table in order that
starts at zero is that of a text, of one that ends where its last line starts. -/
theorem ofText_exact :
    (∀ text : String,
      let bytes := text.toByteArray.data.toList
      let table := ofText text
      table.Increasing ∧ table.starts[0]? = some 0 ∧
      (∀ i, i ∈ table.starts ↔
        i = 0 ∨ i ≤ text.utf8ByteSize ∧ bytes[i - 1]? = some '\n'.toUInt8) ∧
      ofStarts? table.starts = some table) ∧
    ∀ t : LineTable, t.Increasing → t.starts[0]? = some 0 →
      ∃ text, ofText text = t ∧ t.starts.back? = some text.utf8ByteSize := by
  refine ⟨?_, fun _ increasing zero => exists_ofText increasing zero⟩
  intro text
  have increasing : (ofText text).Increasing := increasing_ofChars text.toList
  simp only [toByteArray_toList]
  exact ⟨increasing, rfl, fun _ => mem_starts_ofText_iff,
    ofStarts?_eq_some_iff.2 ⟨rfl, increasing⟩⟩

/-- Two line feeds in a row, and a last line far behind. -/
theorem ofText_exact_farLine :
    Increasing ⟨#[0, 1, 2, 4294967296]⟩ ∧
    ∃ text, ofText text = ⟨#[0, 1, 2, 4294967296]⟩ ∧ text.utf8ByteSize = 4294967296 := by
  have increasing : Increasing ⟨#[0, 1, 2, 4294967296]⟩ := by decide
  obtain ⟨text, table, size⟩ := ofText_exact.2 _ increasing rfl
  exact ⟨increasing, text, table, (Option.some.inj size).symm⟩

end LineTable

end DocProse
