import DocProse.Proofs.Building
import Mathlib.Computability.RegularExpressions

/-!
# Line breaks

A line break is a line feed with a return before it or without (`lineBreak`).
The pieces between the line breaks of a text are what is left when it is cut at
the matches of this pattern: at the leftmost one, then at the leftmost one
behind that, and so on (`CutAt`).  `brokenPieces` gives these pieces and no
others (`cutAt_lineBreak_iff`).

The position behind a text that is counted from these pieces is the one that the
line table gives, although the table knows of no returns.  So every document has
the span from the first to the last offset of its text
(`endPosition_eq_position`).
-/

namespace DocProse

namespace Text

variable {r : RegularExpression Char} {cs found before behind : List Char}
  {ps qs : List (List Char)}

/-! ## Cutting at a pattern -/

/-- A match of a pattern in a text, with no match further left. -/
structure FirstMatch (r : RegularExpression Char) (cs before found behind : List Char) : Prop where
  whole : cs = before ++ (found ++ behind)
  matched : found ∈ r.matches'
  /-- Every other match starts there or further right. -/
  leftmost : ∀ earlier other rest, cs = earlier ++ (other ++ rest) → other ∈ r.matches' →
    before.length ≤ earlier.length

/-- A text cut at its leftmost match of a pattern, at the leftmost one behind it, and so on. -/
inductive CutAt (r : RegularExpression Char) : List Char → List (List Char) → Prop where
  | whole {cs : List Char}
      (unmatched : ∀ before found behind, cs = before ++ (found ++ behind) → found ∉ r.matches') :
      CutAt r cs [cs]
  | cut {cs before found behind : List Char} {ps : List (List Char)}
      (first : FirstMatch r cs before found behind) (rest : CutAt r behind ps) :
      CutAt r cs (before :: ps)

/-- Pieces are determined by a pattern of which no match starts with another one. -/
theorem CutAt.unique
    (apart : ∀ m m' rest rest', m ∈ r.matches' → m' ∈ r.matches' → m ++ rest = m' ++ rest' → m = m')
    (first : CutAt r cs ps) (second : CutAt r cs qs) : ps = qs := by
  induction first generalizing qs with
  | whole unmatched =>
    cases second with
    | whole => rfl
    | cut found _ => exact absurd found.matched (unmatched _ _ _ found.whole)
  | @cut cs before found behind ps match₁ _ ih =>
    cases second with
    | whole unmatched => exact absurd match₁.matched (unmatched _ _ _ match₁.whole)
    | @cut _ before' found' behind' qs match₂ rest =>
      -- Either match is leftmost, so both start at one place, and `apart` makes them one match.
      have size : before.length = before'.length :=
        Nat.le_antisymm (match₁.leftmost _ _ _ match₂.whole match₂.matched)
          (match₂.leftmost _ _ _ match₁.whole match₁.matched)
      have same : before ++ (found ++ behind) = before' ++ (found' ++ behind') :=
        match₁.whole.symm.trans match₂.whole
      obtain ⟨sameBefore, sameRest⟩ := List.append_inj same size
      have sameFound := apart _ _ _ _ match₁.matched match₂.matched sameRest
      subst sameFound
      rw [List.append_cancel_left sameRest] at ih
      rw [sameBefore, ih rest]

/-- A character at which no match starts goes to the first piece. -/
theorem CutAt.cons {c : Char}
    (unmatched : ∀ found behind, c :: cs = found ++ behind → found ∉ r.matches')
    (h : CutAt r cs ps) : CutAt r (c :: cs) (ps.modifyHead (c :: ·)) := by
  -- A match in the longer text starts behind the character.
  have shift {earlier other rest : List Char} (whole : c :: cs = earlier ++ (other ++ rest))
      (matched : other ∈ r.matches') :
      ∃ earlier', earlier = c :: earlier' ∧ cs = earlier' ++ (other ++ rest) := by
    cases earlier with
    | nil => exact absurd matched (unmatched _ _ whole)
    | cons d earlier =>
      obtain ⟨rfl, rest⟩ := List.cons.inj whole
      exact ⟨earlier, rfl, rest⟩
  cases h with
  | whole none =>
    refine .whole ?_
    intro before found behind whole matched
    obtain ⟨before', -, whole'⟩ := shift whole matched
    exact none _ _ _ whole' matched
  | @cut _ before found behind ps first rest =>
    refine .cut ⟨?_, first.matched, ?_⟩ rest
    · rw [first.whole]
      rfl
    · intro earlier other behind' whole matched
      obtain ⟨earlier', rfl, whole'⟩ := shift whole matched
      exact Nat.succ_le_succ (first.leftmost _ _ _ whole' matched)

/-! ## Cutting at line breaks -/

/-- A line feed, with a return before it or without. -/
def lineBreak : RegularExpression Char := (1 + .char '\r') * .char '\n'

theorem mem_lineBreak_iff : found ∈ lineBreak.matches' ↔ found = ['\n'] ∨ found = ['\r', '\n'] := by
  rw [lineBreak, RegularExpression.matches'_mul, RegularExpression.matches'_add,
    RegularExpression.matches'_epsilon, RegularExpression.matches'_char,
    RegularExpression.matches'_char, Language.mem_mul]
  constructor
  · rintro ⟨m, optional, n, feed, rfl⟩
    obtain rfl := Set.mem_singleton_iff.1 feed
    rcases (Language.mem_add _ _ _).1 optional with none | some
    · obtain rfl := (Language.mem_one _).1 none
      exact .inl rfl
    · obtain rfl := Set.mem_singleton_iff.1 some
      exact .inr rfl
  · rintro (rfl | rfl)
    · exact ⟨[], (Language.mem_add _ _ _).2 (.inl Language.nil_mem_one), ['\n'], rfl, rfl⟩
    · exact ⟨['\r'], (Language.mem_add _ _ _).2 (.inr rfl), ['\n'], rfl, rfl⟩

theorem lineBreak_apart (m m' rest rest' : List Char) (first : m ∈ lineBreak.matches')
    (second : m' ∈ lineBreak.matches') (same : m ++ rest = m' ++ rest') : m = m' := by
  rcases mem_lineBreak_iff.1 first with rfl | rfl <;>
    rcases mem_lineBreak_iff.1 second with rfl | rfl <;> simp_all

theorem cutAt_brokenPieces (cs : List Char) : CutAt lineBreak cs (brokenPieces cs) := by
  fun_induction brokenPieces cs with
  | case1 =>
    refine .whole ?_
    intro before found behind whole matched
    rcases mem_lineBreak_iff.1 matched with rfl | rfl <;> simp at whole
  | case2 cs ih =>
    exact .cut ⟨rfl, mem_lineBreak_iff.2 (.inr rfl), fun _ _ _ _ _ => Nat.zero_le _⟩ ih
  | case3 cs ih =>
    exact .cut ⟨rfl, mem_lineBreak_iff.2 (.inl rfl), fun _ _ _ _ _ => Nat.zero_le _⟩ ih
  | case4 c cs noReturn noFeed ih =>
    refine ih.cons ?_
    intro found behind whole matched
    rcases mem_lineBreak_iff.1 matched with rfl | rfl
    · exact noFeed (List.cons.inj whole).1
    · obtain ⟨isReturn, rest⟩ := List.cons.inj whole
      exact noReturn behind isReturn rest

/-- The pieces of a text between its line breaks, and no others, are cut at their pattern. -/
theorem cutAt_lineBreak_iff : CutAt lineBreak cs ps ↔ ps = brokenPieces cs := by
  constructor
  · exact fun h => h.unique lineBreak_apart (cutAt_brokenPieces cs)
  · rintro rfl
    exact cutAt_brokenPieces cs

end Text

open Text

/-! ## The position behind a text -/

/-- The position behind a text, counted from the pieces that the pattern of line breaks cuts it
into, is that of its last offset in the line table, and so the span of each document of the text
is that of all its offsets. -/
theorem endPosition_eq_position (text : String) :
    (∀ ps, CutAt lineBreak text.toList ps ↔ ps = brokenPieces text.toList) ∧
    endPosition text = (LineTable.ofText text).position text.utf8ByteSize ∧
    ∀ parse : SourceParser, (parse.document text).map Document.span =
      (parse text).map fun _ => (LineTable.ofText text).span 0 text.utf8ByteSize := by
  refine ⟨fun _ => cutAt_lineBreak_iff, ?_, ?_⟩
  · rw [endPosition, endOfChars_eq_behind, ← LineTable.position_byteSize, utf8ByteSize_eq]
    rfl
  · intro parse
    rw [SourceParser.document]
    cases parse text with
    | error cause => rfl
    | ok tree => exact congrArg Except.ok (Document.span_ofTree text tree)

end DocProse
