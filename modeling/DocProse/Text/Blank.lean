/-!
# Blank characters and trimming

A character is *blank* when it has the Unicode property `White_Space`.  The
property holds of twenty-five characters, which lie in ten ranges.  The
zero-width space, the byte order mark and the information separators
`U+001C` to `U+001F` do not have it.

Trimming removes blanks at one end of a text or at both.  A text here is a list
of characters.  `trimStart` and `trimEnd` keep a text that has no blank at that
end, and leave none there (`trimStart_eq_self_iff`, `trimEnd_eq_self_iff`,
`head?_trimStart`).
-/

namespace DocProse.Text

/-! ## The property -/

/-- The ranges of the characters with the property `White_Space`, ends included. -/
def blankRanges : List (Nat × Nat) :=
  [(0x0009, 0x000D), (0x0020, 0x0020), (0x0085, 0x0085), (0x00A0, 0x00A0), (0x1680, 0x1680),
    (0x2000, 0x200A), (0x2028, 0x2029), (0x202F, 0x202F), (0x205F, 0x205F), (0x3000, 0x3000)]

/-- Whether a character is white space. -/
def isBlank (c : Char) : Bool :=
  blankRanges.any fun r => r.1 ≤ c.toNat && c.toNat ≤ r.2

/-- There are twenty-five blanks. -/
example : (blankRanges.map fun r => r.2 + 1 - r.1).sum = 25 := by decide

/-- The space is blank. -/
theorem isBlank_space : isBlank ' ' = true := by decide

/-- The end of a line is blank. -/
theorem isBlank_newline : isBlank '\n' = true := by decide

/-- The carriage return is blank. -/
theorem isBlank_return : isBlank '\r' = true := by decide

/-- A star is not blank. -/
theorem isBlank_star : isBlank '*' = false := by decide

/-! ## Trimming -/

/-- A text without the blanks it starts with. -/
def trimStart (cs : List Char) : List Char := cs.dropWhile isBlank

/-- A text without the blanks it ends with. -/
def trimEnd (cs : List Char) : List Char := (cs.reverse.dropWhile isBlank).reverse

/-- A text without the blanks at its ends. -/
def trim (cs : List Char) : List Char := trimEnd (trimStart cs)

/-- What is left does not start with a blank. -/
theorem head?_trimStart (cs : List Char) : (trimStart cs).head?.all (!isBlank ·) = true := by
  induction cs with
  | nil => rfl
  | cons c cs ih =>
    by_cases h : isBlank c
    · simpa [trimStart, h] using ih
    · simp [trimStart, h]

/-- A text is kept exactly when it does not start with a blank. -/
theorem trimStart_eq_self_iff (cs : List Char) :
    trimStart cs = cs ↔ cs.head?.all (!isBlank ·) = true := by
  refine ⟨fun h => h ▸ head?_trimStart cs, fun h => ?_⟩
  cases cs with
  | nil => rfl
  | cons c cs => simp_all [trimStart]

/-- A text is kept exactly when it does not end with a blank. -/
theorem trimEnd_eq_self_iff (cs : List Char) :
    trimEnd cs = cs ↔ cs.getLast?.all (!isBlank ·) = true := by
  have h := trimStart_eq_self_iff cs.reverse
  rw [List.head?_reverse] at h
  rw [← h, trimStart, trimEnd]
  exact ⟨fun e => by rw [← List.reverse_reverse (cs.reverse.dropWhile isBlank), e],
    fun e => by rw [e, List.reverse_reverse]⟩

end DocProse.Text
