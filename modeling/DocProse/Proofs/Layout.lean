import DocProse.Proofs.LineContents
import Mathlib.Data.List.Forall2

/-!
# The layout of a comment

How a comment is laid out has no part in its description (`description_layout`).
Its lines may be indented in another way, blanks may be added at their ends or
taken from there, and a return may stand before each line feed.

Two lines are one *respaced* when they hold the same text between blanks of their
own, and this is so exactly when trimming leaves the same of both
(`respaced_iff`).
-/

namespace DocProse.Text

variable {p q : List Char} {ps qs : List (List Char)}

/-- Two lines that hold the same text between blanks, each between blanks of its own. -/
def Respaced (p q : List Char) : Prop :=
  ∃ text ws vs ws' vs', (∀ c ∈ ws ++ vs, isBlank c = true) ∧ (∀ c ∈ ws' ++ vs', isBlank c = true) ∧
    p = ws ++ text ++ vs ∧ q = ws' ++ text ++ vs'

theorem respaced_iff : Respaced p q ↔ trim p = trim q := by
  constructor
  · rintro ⟨text, ws, vs, ws', vs', blank, blank', rfl, rfl⟩
    rw [List.forall_mem_append] at blank blank'
    rw [trim_of_blanks blank.1 blank.2, trim_of_blanks blank'.1 blank'.2]
  · intro same
    obtain ⟨ws, vs, before, behind, whole⟩ := exists_trim p
    obtain ⟨ws', vs', before', behind', whole'⟩ := exists_trim q
    rw [← same] at whole'
    exact ⟨trim p, ws, vs, ws', vs', List.forall_mem_append.2 ⟨before, behind⟩,
      List.forall_mem_append.2 ⟨before', behind'⟩, whole, whole'⟩

theorem map_trim_eq_iff :
    ps.map trim = qs.map trim ↔ List.Forall₂ (fun p q => trim p = trim q) ps qs := by
  rw [← List.forall₂_eq_eq_eq, List.forall₂_map_left_iff, List.forall₂_map_right_iff]

/-- Returns before line feeds are blanks at the ends of pieces. -/
theorem map_trim_pieces_withReturns (cs : List Char) :
    (pieces (withReturns cs)).map trim = (pieces cs).map trim := by
  obtain ⟨ps, p, cut, cutReturns⟩ := pieces_withReturns cs
  have blank : ∀ c ∈ ['\r'], isBlank c = true := by simpa using isBlank_return
  have each : trim ∘ (· ++ ['\r']) = trim := funext fun q => trim_append_of_blank blank
  rw [cut, cutReturns, List.map_append, List.map_append, List.map_map, each]

end DocProse.Text

namespace DocProse.Comment

open Text

variable {s t : String} {a b : List Char}

/-- Comments whose bodies hold the same prose have the same description. -/
theorem description_congr (first : s.toList = opening ++ a ++ closing)
    (second : t.toList = opening ++ b ++ closing) (same : prose a = prose b) :
    description s = description t := by
  rw [description_of_body first, description_of_body second, same]

/-- A comment with returns before its line feeds has them in its body. -/
theorem withReturns_comment (a : List Char) :
    withReturns (opening ++ a ++ closing) = opening ++ withReturns a ++ closing := by
  rw [withReturns_append, withReturns_append]
  rfl

/-- Two comments have the same description when their bodies have the same lines but for blanks at
the ends of lines, and so when blanks are put in other places at the ends of the pieces between
their line feeds, or a return is put before each line feed. -/
theorem description_layout (s t : String) (a b : List Char)
    (first : body? s.toList = some a) (second : body? t.toList = some b) :
    (List.Forall₂ (fun p q => trim p = trim q) (lines a) (lines b) →
      description s = description t) ∧
    (List.Forall₂ Respaced (pieces a) (pieces b) → description s = description t) ∧
    description (String.ofList (withReturns s.toList)) = description s := by
  rw [body?_eq_some_iff] at first second
  refine ⟨?_, ?_, ?_⟩
  · intro same
    apply description_congr first second
    rw [prose_eq_proseOf_lines, prose_eq_proseOf_lines]
    exact proseOf_congr (map_trim_eq_iff.2 same)
  · intro respaced
    have same : List.Forall₂ (fun p q => trim p = trim q) (pieces a) (pieces b) :=
      respaced.imp fun _ _ => respaced_iff.1
    apply description_congr first second
    rw [prose_eq_proseOf_pieces, prose_eq_proseOf_pieces]
    exact proseOf_congr (map_trim_eq_iff.2 same)
  · have returned : (String.ofList (withReturns s.toList)).toList =
        opening ++ withReturns a ++ closing := by
      rw [String.toList_ofList, first, withReturns_comment]
    apply description_congr returned first
    rw [prose_eq_proseOf_pieces, prose_eq_proseOf_pieces]
    exact proseOf_congr (map_trim_pieces_withReturns a)

/-- Other indentation, a star with nothing behind it, and blanks that are not spaces. -/
theorem description_layout_respaced :
    body? "/**\n * One\n *\n *   two\n * @tag */".toList =
        some "\n * One\n *\n *   two\n * @tag ".toList ∧
      body? "/**\t\r\n* One \n\t*\t\n *   two\n\u3000* @tag*/".toList =
        some "\t\r\n* One \n\t*\t\n *   two\n\u3000* @tag".toList ∧
      description "/**\n * One\n *\n *   two\n * @tag */" =
        description "/**\t\r\n* One \n\t*\t\n *   two\n\u3000* @tag*/" ∧
      description
          (String.ofList (withReturns "/**\n * One\n *\n *   two\n * @tag */".toList)) =
        description "/**\n * One\n *\n *   two\n * @tag */" := by
  have first : body? "/**\n * One\n *\n *   two\n * @tag */".toList =
      some "\n * One\n *\n *   two\n * @tag ".toList := by decide
  have second : body? "/**\t\r\n* One \n\t*\t\n *   two\n\u3000* @tag*/".toList =
      some "\t\r\n* One \n\t*\t\n *   two\n\u3000* @tag".toList := by decide
  have same : (lines "\n * One\n *\n *   two\n * @tag ".toList).map trim =
      (lines "\t\r\n* One \n\t*\t\n *   two\n\u3000* @tag".toList).map trim := by decide
  obtain ⟨sameLines, -, returned⟩ := description_layout _ _ _ _ first second
  exact ⟨first, second, sameLines (map_trim_eq_iff.1 same), returned⟩

end DocProse.Comment
