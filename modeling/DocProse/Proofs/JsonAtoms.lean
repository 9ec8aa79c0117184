import DocProse.Json.Printer
import DocProse.Json.Reader
import Mathlib.Data.List.DropRight

/-!
# Words, numbers and texts in JSON

A value that holds no others is read from what it is printed as, with anything behind
it that does not go on with a number (`EndsNumber`).  The digits of a number come to
the number again (`foldl_toDigits`), and only zero starts with a zero, which the
reader would refuse.  A text is read character by character, whether a character is
escaped or not (`quoted_escapeChar`).
-/

namespace DocProse.Json

variable {cs ds rest : List Char} {fuel n : Nat} {c : Char}

/-! ## Blanks -/

theorem skipBlanks_indent (level : Nat) (cs : List Char) :
    skipBlanks ((indent level).toList ++ cs) = skipBlanks cs := by
  rw [skipBlanks, List.dropWhile_append_of_pos ?_]
  · rfl
  · simp [indent]

theorem skipBlanks_skipBlanks (cs : List Char) : skipBlanks (skipBlanks cs) = skipBlanks cs :=
  List.dropWhile_idempotent _ _

-- Blanks before a value, an element or a field do not matter.

theorem value_congr (h : skipBlanks cs = skipBlanks ds) : value fuel cs = value fuel ds := by
  cases fuel with
  | zero => rw [value, value]
  | succ fuel => rw [value, value, h]

theorem elements_congr {read : List Json} (h : skipBlanks cs = skipBlanks ds) :
    elements read fuel cs = elements read fuel ds := by
  cases fuel with
  | zero => rw [elements, elements]
  | succ fuel => rw [elements, elements, value_congr h]

theorem members_congr {read : List (String × Json)} (h : skipBlanks cs = skipBlanks ds) :
    members read fuel cs = members read fuel ds := by
  cases fuel with
  | zero => rw [members, members]
  | succ fuel => rw [members, members, h]

/-! ## Numbers -/

/-- A text that does not go on with a number. -/
def EndsNumber (rest : List Char) : Prop :=
  ∀ c ∈ rest.head?, c.isDigit = false ∧ c ≠ '.' ∧ c ≠ 'e' ∧ c ≠ 'E'

theorem digits_append (all : ∀ c ∈ ds, c.isDigit = true) (some : ds ≠ []) (ends : EndsNumber rest) :
    digits (ds ++ rest) = .some (ds, rest) := by
  have none : rest.takeWhile Char.isDigit = [] ∧ rest.dropWhile Char.isDigit = rest := by
    cases rest with
    | nil => exact ⟨rfl, rfl⟩
    | cons c rest => simp [(ends c rfl).1]
  rw [digits, List.takeWhile_append_of_pos all, List.dropWhile_append_of_pos all, none.1, none.2]
  simpa using some

theorem fraction_of_endsNumber (ends : EndsNumber rest) : fraction rest = some (none, rest) := by
  cases rest with
  | nil => rfl
  | cons c rest =>
    rw [fraction]
    rintro cs ⟨rfl, rfl⟩
    exact (ends _ rfl).2.1 rfl

theorem exponent_of_endsNumber (ends : EndsNumber rest) : exponent rest = some (none, rest) := by
  cases rest with
  | nil => rfl
  | cons c rest =>
    obtain ⟨-, -, small, large⟩ := ends c rfl
    simp [exponent, small, large]

/-- The value of the digits of a number. -/
theorem foldl_toDigits (n : Nat) :
    (Nat.toDigits 10 n).foldl (fun n c => n * 10 + digitValue c) 0 = n := by
  have same := Nat.ofDigitChars_ten_toDigits (n := n)
  rw [Nat.ofDigitChars_eq_foldl] at same
  simpa only [digitValue, Nat.mul_comm] using same

/-- Only zero starts with a zero. -/
theorem head?_toDigits (positive : 0 < n) : (Nat.toDigits 10 n).head? ≠ some '0' := by
  induction n using Nat.strongRecOn with
  | ind n ih =>
    rw [Nat.toDigits_eq_if (by decide)]
    split
    · next less => simpa using Nat.ne_of_gt positive
    · next more =>
      have front := ih (n / 10) (by omega) (by omega)
      -- The first digit is that of the digits before the last one.
      cases before : Nat.toDigits 10 (n / 10) with
      | nil => exact absurd before Nat.toDigits_ne_nil
      | cons d ds => rwa [before] at front

theorem length_toDigits_of_head? (h : (Nat.toDigits 10 n).head? = some '0') :
    (Nat.toDigits 10 n).length = 1 := by
  cases n with
  | zero => rfl
  | succ n => exact absurd h (head?_toDigits (Nat.succ_pos n))

/-- The sign of a number. -/
def sign (negative : Bool) : List Char := if negative then ['-'] else []

/-- A number is its sign and its digits, if nothing behind it goes on with it. -/
theorem number_append (negative : Bool) (n : Nat) (ends : EndsNumber rest) :
    number (sign negative ++ (Nat.toDigits 10 n ++ rest)) =
      (NumberText.value? ⟨negative, Nat.toDigits 10 n, none, none⟩).map (·, rest) := by
  have all : ∀ c ∈ Nat.toDigits 10 n, c.isDigit = true := fun c inside =>
    Nat.isDigit_of_mem_toDigits (by decide) (by decide) inside
  have found := digits_append all Nat.toDigits_ne_nil ends
  have single : ¬ (1 < (Nat.toDigits 10 n).length ∧ (Nat.toDigits 10 n).head? = some '0') := by
    rintro ⟨long, zero⟩
    rw [length_toDigits_of_head? zero] at long
    exact absurd long (by decide)
  have unsigned : ∀ cs, Nat.toDigits 10 n ++ rest ≠ '-' :: cs := by
    intro cs same
    rw [same, digits] at found
    simp at found
  have fraction := fraction_of_endsNumber ends
  have exponent := exponent_of_endsNumber ends
  cases negative with
  | true =>
    rw [sign, if_pos rfl, List.singleton_append, number]
    cases read : NumberText.value? ⟨true, Nat.toDigits 10 n, none, none⟩ <;>
      simp [found, single, fraction, exponent, read]
  | false =>
    rw [sign, if_neg Bool.false_ne_true, List.nil_append, number]
    · cases read : NumberText.value? ⟨false, Nat.toDigits 10 n, none, none⟩ <;>
        simp [found, single, fraction, exponent, read]
    · exact unsigned

theorem value?_toDigits (fits : n ≤ maxWord) :
    NumberText.value? ⟨false, Nat.toDigits 10 n, none, none⟩ = some (.int n) := by
  simp only [NumberText.value?, foldl_toDigits]
  simp [fits]

theorem value?_toDigits_negative (positive : 0 < n) (fits : n ≤ signedReach) :
    NumberText.value? ⟨true, Nat.toDigits 10 n, none, none⟩ = some (.int (-n)) := by
  simp only [NumberText.value?, foldl_toDigits]
  simp [fits, positive]

/-! ## Texts -/

theorem hexDigit?_digitChar : ∀ n < 16, hexDigit? (Nat.digitChar n) = some n := by decide

/-- A control character is read from its number. -/
theorem escaped_control (control : c.toNat < 0x20) (cs : List Char) :
    escaped ((escapeControl c).tail ++ cs) = some (c, cs) := by
  have high := hexDigit?_digitChar (c.toNat / 16) (by omega)
  have low := hexDigit?_digitChar (c.toNat % 16) (by omega)
  have zero : hexDigit? '0' = some 0 := rfl
  have value : hexValue? ['0', '0', Nat.digitChar (c.toNat / 16), Nat.digitChar (c.toNat % 16)] =
      some c.toNat := by
    simp [hexValue?, zero, high, low]
    omega
  have char : codePoint? c.toNat = some c := by
    have valid : c.toNat.isValidChar := c.valid
    rw [codePoint?, if_pos valid, Char.ofNat_toNat]
  have plane : ¬ (0xD800 ≤ c.toNat ∧ c.toNat < 0xDC00) := by omega
  simp [escapeControl, escaped, value, char, plane]

/-- What a character is written as is read as this character. -/
theorem quoted_escapeChar (c : Char) (read : List Char) (fuel : Nat) (cs : List Char) :
    quoted read (fuel + 1) (escapeChar c ++ cs) = quoted (c :: read) fuel cs := by
  unfold escapeChar
  split
  case h_8 noQuote noBackslash _ _ _ _ _ =>
    split
    · next control =>
      have whole : escapeControl c ++ cs = '\\' :: ((escapeControl c).tail ++ cs) := rfl
      rw [whole, quoted, escaped_control control]
    · next visible =>
      rw [List.singleton_append, quoted, if_neg visible]
      · exact noQuote
      · exact noBackslash
  all_goals rfl

theorem length_le_flatMap_escapeChar (s : List Char) :
    s.length ≤ (s.flatMap escapeChar).length := by
  induction s with
  | nil => exact Nat.le_refl 0
  | cons c s ih =>
    have some : 0 < (escapeChar c).length := by
      unfold escapeChar
      split <;> try split
      all_goals simp [escapeControl]
    rw [List.flatMap_cons, List.length_append, List.length_cons]
    omega

theorem quoted_flatMap (s read : List Char) (rest : List Char) (enough : s.length < fuel) :
    quoted read fuel (s.flatMap escapeChar ++ '"' :: rest) =
      some (String.ofList (read.reverse ++ s), rest) := by
  induction s generalizing read fuel with
  | nil =>
    cases fuel with
    | zero => cases enough
    | succ fuel => simp [quoted]
  | cons c s ih =>
    cases fuel with
    | zero => cases enough
    | succ fuel =>
      rw [List.flatMap_cons, List.append_assoc, quoted_escapeChar,
        ih (c :: read) (Nat.lt_of_succ_lt_succ enough)]
      simp

/-- A key is read from what it is written as. -/
theorem quoted_key (s : String) (enough : s.toList.length < fuel) (rest : List Char) :
    quoted [] fuel (s.toList.flatMap escapeChar ++ '"' :: rest) = some (s, rest) := by
  rw [quoted_flatMap s.toList [] rest enough, List.reverse_nil, List.nil_append,
    String.ofList_toList]

/-! ## Values that hold no others -/

theorem value_null (fuel : Nat) (rest : List Char) :
    value (fuel + 1) ("null".toList ++ rest) = some (.null, rest) := by
  simp [value, skipBlanks, word]

theorem value_bool (b : Bool) (fuel : Nat) (rest : List Char) :
    value (fuel + 1) ((toString b).toList ++ rest) = some (.bool b, rest) := by
  have yes : toString true = "true" := rfl
  have no : toString false = "false" := rfl
  cases b with
  | false => simp [value, skipBlanks, word, no]
  | true => simp [value, skipBlanks, word, yes]

theorem value_quote (s : String) (rest : List Char) (enough : s.toList.length < fuel) :
    value (fuel + 1) ((quote s).toList ++ rest) = some (.str s, rest) := by
  have whole : (quote s).toList ++ rest =
      '"' :: (s.toList.flatMap escapeChar ++ '"' :: rest) := by simp [quote]
  have start (cs : List Char) : skipBlanks ('"' :: cs) = '"' :: cs := rfl
  simp only [whole, value, start, quoted_key s enough, Option.map_some]

/-- A value that starts with a sign or a digit is a number. -/
theorem value_eq_number (h : c = '-' ∨ c.isDigit = true) (fuel : Nat) (cs : List Char) :
    value (fuel + 1) (c :: cs) = number (c :: cs) := by
  have other (d : Char) (nothing : d ≠ '-' ∧ d.isDigit = false) : c ≠ d := by
    rintro rfl
    simp [nothing] at h
  have visible : skipBlanks (c :: cs) = c :: cs := by
    have space := other ' ' (by decide)
    have tab := other '\t' (by decide)
    have lineFeed := other '\n' (by decide)
    have return' := other '\r' (by decide)
    simp [skipBlanks, space, tab, lineFeed, return']
  rw [value, visible]
  split
  · next same => exact absurd (List.cons.inj same).1 (other '"' (by decide))
  · next same => exact absurd (List.cons.inj same).1 (other '[' (by decide))
  · next same => exact absurd (List.cons.inj same).1 (other '\x7b' (by decide))
  · next same =>
    cases same
    simp [h]
  · next same => cases same

theorem value_digits (negative : Bool) (n : Nat) (ends : EndsNumber rest) (fuel : Nat) :
    value (fuel + 1) (sign negative ++ (Nat.toDigits 10 n ++ rest)) =
      (NumberText.value? ⟨negative, Nat.toDigits 10 n, none, none⟩).map (·, rest) := by
  rw [← number_append negative n ends]
  cases negative with
  | true => exact value_eq_number (.inl rfl) fuel _
  | false =>
    cases whole : Nat.toDigits 10 n with
    | nil => exact absurd whole Nat.toDigits_ne_nil
    | cons d ds =>
      have digit : d.isDigit = true :=
        Nat.isDigit_of_mem_toDigits (by decide) (by decide) (whole ▸ List.mem_cons_self)
      exact value_eq_number (.inr digit) fuel _

theorem value_int {n : Int} (least : -signedReach ≤ n) (greatest : n ≤ maxWord)
    (ends : EndsNumber rest) (fuel : Nat) :
    value (fuel + 1) ((toString n).toList ++ rest) = some (.int n, rest) := by
  have digits (n : Nat) : (toString n).toList = Nat.toDigits 10 n := by
    rw [Nat.toString_eq_ofList_toDigits, String.toList_ofList]
  cases n with
  | ofNat n =>
    have fits : n ≤ maxWord := Int.ofNat_le.1 greatest
    have written : (toString (Int.ofNat n)).toList = Nat.toDigits 10 n := digits n
    have read := value_digits false n ends fuel
    rw [value?_toDigits fits] at read
    rw [written]
    exact read
  | negSucc n =>
    have fits : n + 1 ≤ signedReach := by omega
    have signed : toString (Int.negSucc n) = "-" ++ toString (n + 1) := rfl
    have written : (toString (Int.negSucc n)).toList = '-' :: Nat.toDigits 10 (n + 1) := by
      rw [signed, String.toList_append, digits]
      rfl
    have read := value_digits true (n + 1) ends fuel
    rw [value?_toDigits_negative (Nat.succ_pos n) fits] at read
    rw [written]
    exact read

end DocProse.Json
