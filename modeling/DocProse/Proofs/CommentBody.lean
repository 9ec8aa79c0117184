import DocProse.Proofs.Description
import DocProse.Proofs.Outcomes

/-!
# Slicing the body out of a comment

The body of a documentation comment is taken by its byte offsets: behind the
three bytes of the opening, up to the two bytes of the closing.  A slice can go
wrong in three ways (`SliceFault`).  It succeeds exactly when its ends are
boundaries in order (`exists_cut_iff`).

`describeChecked` computes the description with these faults.  It is the
description of every text, whether a comment or not (`describeChecked_eq_ok`): the
slice is taken only behind the test for a comment, and the size in this test
rules out that opening and closing overlap.  The slice is the one text between
the two (`body_exact`).
-/

namespace DocProse

namespace Text

variable {start stop : Nat} {cs part : List Char}

/-- What can be wrong with the slice of a text. -/
inductive SliceFault where
  /-- An end is computed to be before the start of the text. -/
  | negative
  /-- The upper end is below the lower one. -/
  | inverted
  /-- An end is inside a character or past the text. -/
  | noBoundary
  deriving DecidableEq, Repr

/-- The offset that is some bytes before another one. -/
def offsetBefore (offset count : Nat) : Except SliceFault Nat :=
  if count ≤ offset then .ok (offset - count) else .error .negative

/-- The slice of a text between two offsets, or what is wrong with it. -/
def cut (start stop : Nat) (cs : List Char) : Except SliceFault (List Char) :=
  if stop < start then .error .inverted
  else (slice? start stop cs).elim (.error .noBoundary) .ok

theorem cut_eq_ok_iff : cut start stop cs = .ok part ↔ slice? start stop cs = some part := by
  constructor
  · intro done
    rw [cut] at done
    split at done
    · cases done
    · cases sliced : slice? start stop cs with
      | none => simp [sliced] at done
      | some found =>
        rw [sliced] at done
        exact congrArg some (Except.ok.inj done)
  · intro sliced
    obtain ⟨ordered, -, -⟩ := boundaries_of_slice? sliced
    rw [cut, if_neg (Nat.not_lt.2 ordered), sliced]
    rfl

/-- A slice succeeds exactly between two boundaries in order. -/
theorem exists_cut_iff :
    (∃ part, cut start stop cs = .ok part) ↔
      start ≤ stop ∧ IsBoundary start cs ∧ IsBoundary stop cs := by
  simp only [cut_eq_ok_iff]
  constructor
  · rintro ⟨part, sliced⟩
    exact boundaries_of_slice? sliced
  · rintro ⟨ordered, first, second⟩
    exact exists_slice? ordered first second

end Text

namespace Comment

open Text

/-! ## The description with its faults -/

/-- The description of a comment, where a slice that goes wrong ends it. -/
def describeChecked (text : List Char) : Except SliceFault (Option (List Char)) :=
  if isDoc text then do
    let stop ← offsetBefore (byteSize text) 2
    let p := prose (← cut 3 stop text)
    return if p.isEmpty then none else some p
  else return none

/-- The description of a comment, where a slice that goes wrong ends it. -/
def descriptionChecked (text : String) : Except SliceFault (Option String) :=
  (describeChecked text.toList).map (·.map String.ofList)

/-- The slice of a comment between its opening and its closing succeeds. -/
theorem cut_whole (b : List Char) :
    cut 3 (byteSize (opening ++ b ++ closing) - 2) (opening ++ b ++ closing) = .ok b :=
  cut_eq_ok_iff.2 (slice?_whole b)

/-- No slice goes wrong. -/
theorem describeChecked_eq_ok (text : List Char) :
    describeChecked text = .ok (describe text) := by
  rw [describeChecked]
  split
  · next doc =>
    obtain ⟨b, rfl⟩ := isDoc_iff.1 doc
    have stop : offsetBefore (byteSize (opening ++ b ++ closing)) 2 =
        .ok (byteSize (opening ++ b ++ closing) - 2) := by
      rw [offsetBefore, byteSize_whole]
      exact if_pos (Nat.le_add_left 2 _)
    rw [describe, body?_eq_some_iff.2 rfl]
    exact bind_eq_ok_iff.2 ⟨_, stop, bind_eq_ok_iff.2 ⟨b, cut_whole b, rfl⟩⟩
  · next noDoc =>
    have noBody : body? text = none := if_neg noDoc
    rw [describe, noBody]
    rfl

theorem descriptionChecked_eq_ok (text : String) :
    descriptionChecked text = .ok (description text) := by
  rw [descriptionChecked, describeChecked_eq_ok]
  rfl

/-- Without the test for a comment the slice would go wrong where opening and closing overlap. -/
example : isDoc "/**/".toList = false ∧
    cut 3 (byteSize "/**/".toList - 2) "/**/".toList = .error .inverted := by decide

/-! ## The body -/

/-- Between opening and closing, in characters. -/
theorem eq_whole_iff {text b : String} :
    text = "/**" ++ b ++ "*/" ↔ text.toList = opening ++ b.toList ++ closing := by
  rw [← String.toList_inj, String.toList_append, String.toList_append]
  rfl

/-- A text is a documentation comment exactly when it is an opening, some text and a closing.  This
text is the only one, and it is what stands from the third byte up to two bytes before the end,
which are boundaries of characters in order.  So no text, of whatever form, has a description that
ends in a slice that goes wrong. -/
theorem body_exact (text : String) :
    let size := text.utf8ByteSize
    (isDoc text.toList = true ↔ ∃ b, text = "/**" ++ b ++ "*/") ∧
    (∀ b, text = "/**" ++ b ++ "*/" →
      (∀ b', text = "/**" ++ b' ++ "*/" → b' = b) ∧
      2 ≤ size ∧ 3 ≤ size - 2 ∧ IsBoundary 3 text.toList ∧ IsBoundary (size - 2) text.toList ∧
      slice? 3 (size - 2) text.toList = some b.toList) ∧
    descriptionChecked text = .ok (description text) := by
  refine ⟨?_, ?_, descriptionChecked_eq_ok text⟩
  · rw [isDoc_iff]
    constructor
    · rintro ⟨b, whole⟩
      exact ⟨String.ofList b, eq_whole_iff.2 (by rw [whole, String.toList_ofList])⟩
    · rintro ⟨b, whole⟩
      exact ⟨b.toList, eq_whole_iff.1 whole⟩
  · intro b whole
    have done (b' : String) (whole' : text = "/**" ++ b' ++ "*/") :
        cut 3 (text.utf8ByteSize - 2) text.toList = .ok b'.toList := by
      rw [utf8ByteSize_eq, eq_whole_iff.1 whole', cut_whole]
    -- That the slice succeeds says already where its ends are.
    obtain ⟨ordered, first, second⟩ := exists_cut_iff.1 ⟨_, done b whole⟩
    refine ⟨?_, by omega, ordered, first, second, cut_eq_ok_iff.1 (done b whole)⟩
    intro b' whole'
    have same : b'.toList = b.toList := Except.ok.inj ((done b' whole').symm.trans (done b whole))
    exact String.toList_inj.1 same

/-- A body with characters of several bytes at both of its ends. -/
theorem body_exact_wideEnds :
    "/**é*/😀*/" = "/**" ++ "é*/😀" ++ "*/" ∧ isDoc "/**é*/😀*/".toList = true ∧
      slice? 3 11 "/**é*/😀*/".toList = some "é*/😀".toList ∧
      descriptionChecked "/**é*/😀*/" = .ok (description "/**é*/😀*/") := by
  have whole : "/**é*/😀*/" = "/**" ++ "é*/😀" ++ "*/" := by decide
  obtain ⟨doc, body, described⟩ := body_exact "/**é*/😀*/"
  obtain ⟨-, -, -, -, -, sliced⟩ := body _ whole
  exact ⟨whole, doc.2 ⟨_, whole⟩, sliced, described⟩

end Comment

end DocProse
