import DocProse.Text.Blank
import Mathlib.Data.List.TakeWhile

/-!
# What trimming keeps

Trimming at an end takes blanks away and nothing else.  So what is left is the
end or the start of the text (`trimStart_isSuffix`, `trimEnd_isPrefix`), has no
blank at that end, and is the same however many blanks stood there
(`trimStart_append_of_blank`, `trimEnd_append_of_blank`, `trim_of_blanks`).  A
text is what is left with blanks around it (`exists_trim`).

A text is kept by `trim` exactly when it has no blank at either end
(`trim_eq_self_iff`), which makes trimming idempotent (`trim_trim`).
-/

namespace DocProse.Text

variable {cs ws xs ys : List Char}

/-! ## Parts of the text -/

theorem trimStart_isSuffix (cs : List Char) : trimStart cs <:+ cs :=
  List.dropWhile_suffix _

theorem trimEnd_isPrefix (cs : List Char) : trimEnd cs <+: cs := by
  have suffix : cs.reverse.dropWhile isBlank <:+ cs.reverse := List.dropWhile_suffix _
  have reversed := List.reverse_prefix.2 suffix
  rw [List.reverse_reverse] at reversed
  exact reversed

theorem getLast?_trimEnd (cs : List Char) :
    (trimEnd cs).getLast?.all (!isBlank ·) = true := by
  rw [trimEnd, List.getLast?_reverse]
  exact head?_trimStart cs.reverse

/-- What is taken at the start is blank. -/
theorem exists_trimStart (cs : List Char) :
    ∃ ws, (∀ c ∈ ws, isBlank c = true) ∧ cs = ws ++ trimStart cs :=
  ⟨cs.takeWhile isBlank, fun _ => List.mem_takeWhile_imp, List.takeWhile_append_dropWhile.symm⟩

/-- What is taken at the end is blank. -/
theorem exists_trimEnd (cs : List Char) :
    ∃ ws, (∀ c ∈ ws, isBlank c = true) ∧ cs = trimEnd cs ++ ws := by
  obtain ⟨ws, blank, whole⟩ := exists_trimStart cs.reverse
  refine ⟨ws.reverse, ?_, ?_⟩
  · intro c membership
    exact blank c (List.mem_reverse.1 membership)
  · rw [trimEnd, ← trimStart, ← List.reverse_append, ← whole, List.reverse_reverse]

/-- A text is what trimming leaves, between blanks. -/
theorem exists_trim (cs : List Char) :
    ∃ ws vs, (∀ c ∈ ws, isBlank c = true) ∧ (∀ c ∈ vs, isBlank c = true) ∧
      cs = ws ++ trim cs ++ vs := by
  obtain ⟨ws, before, start⟩ := exists_trimStart cs
  obtain ⟨vs, behind, stop⟩ := exists_trimEnd (trimStart cs)
  refine ⟨ws, vs, before, behind, ?_⟩
  rw [trim, List.append_assoc, ← stop, ← start]

/-- Only a text of blanks is trimmed to nothing. -/
theorem trimStart_eq_nil_iff : trimStart cs = [] ↔ ∀ c ∈ cs, isBlank c = true :=
  List.dropWhile_eq_nil_iff

/-! ## Blanks that are added -/

theorem trimStart_append_of_blank (blank : ∀ c ∈ ws, isBlank c = true) :
    trimStart (ws ++ cs) = trimStart cs :=
  List.dropWhile_append_of_pos blank

theorem trimEnd_append_of_blank (blank : ∀ c ∈ ws, isBlank c = true) :
    trimEnd (cs ++ ws) = trimEnd cs := by
  have reversed : ∀ c ∈ ws.reverse, isBlank c = true := by
    intro c membership
    exact blank c (List.mem_reverse.1 membership)
  rw [trimEnd, List.reverse_append, List.dropWhile_append_of_pos reversed, trimEnd]

/-- Only what stands behind the last visible character goes. -/
theorem trimEnd_cons (c : Char) (cs : List Char) :
    trimEnd (c :: cs) = if isBlank c = true ∧ trimEnd cs = [] then [] else c :: trimEnd cs := by
  rw [trimEnd, trimEnd, List.reverse_cons, List.dropWhile_append]
  by_cases empty : cs.reverse.dropWhile isBlank = []
  · cases blank : isBlank c <;> simp [empty, blank]
  · simp [empty]

/-- Trimming at the start stops at the first part that is not all blank. -/
theorem trimStart_append_of_ne_nil (visible : trimStart xs ≠ []) :
    trimStart (xs ++ ys) = trimStart xs ++ ys := by
  rw [trimStart, List.dropWhile_append]
  rw [trimStart] at visible ⊢
  simp [visible]

/-- Blanks around a text do not matter. -/
theorem trim_of_blanks (before : ∀ c ∈ ws, isBlank c = true)
    (behind : ∀ c ∈ ys, isBlank c = true) : trim (ws ++ cs ++ ys) = trim cs := by
  rw [trim, trim, List.append_assoc, trimStart_append_of_blank before]
  by_cases empty : trimStart cs = []
  · -- All of it is blank, so nothing is left on either side.
    have all : ∀ c ∈ cs ++ ys, isBlank c = true := by
      intro c membership
      rcases List.mem_append.1 membership with inside | outside
      · exact trimStart_eq_nil_iff.1 empty c inside
      · exact behind c outside
    rw [trimStart_eq_nil_iff.2 all, empty]
  · rw [trimStart_append_of_ne_nil empty, trimEnd_append_of_blank behind]

theorem trim_append_of_blank (blank : ∀ c ∈ ws, isBlank c = true) : trim (cs ++ ws) = trim cs := by
  have around : trim ([] ++ cs ++ ws) = trim cs := trim_of_blanks (by simp) blank
  rwa [List.nil_append] at around

/-! ## Texts that are kept -/

theorem head?_trimEnd (visible : trimEnd cs ≠ []) : (trimEnd cs).head? = cs.head? := by
  obtain ⟨rest, whole⟩ := trimEnd_isPrefix cs
  cases kept : trimEnd cs with
  | nil => exact absurd kept visible
  | cons c kept =>
    rw [kept] at whole
    rw [← whole]
    rfl

/-- Trimming at the end does not change what the visible part starts with. -/
theorem head?_trimStart_trimEnd (cs : List Char) :
    (trimStart (trimEnd cs)).head? = (trimStart cs).head? := by
  obtain ⟨ws, blank, whole⟩ := exists_trimEnd cs
  conv => rhs; rw [whole]
  by_cases empty : trimStart (trimEnd cs) = []
  · rw [trimStart_append_of_blank (trimStart_eq_nil_iff.1 empty), empty,
      trimStart_eq_nil_iff.2 blank]
  · obtain ⟨c, rest, start⟩ := List.exists_cons_of_ne_nil empty
    rw [trimStart_append_of_ne_nil empty, start]
    rfl

theorem head?_trim (cs : List Char) : (trim cs).head?.all (!isBlank ·) = true := by
  by_cases empty : trim cs = []
  · rw [empty]
    rfl
  · rw [trim, head?_trimEnd empty]
    exact head?_trimStart cs

theorem getLast?_trim (cs : List Char) : (trim cs).getLast?.all (!isBlank ·) = true :=
  getLast?_trimEnd (trimStart cs)

/-- A text is kept exactly when it has no blank at either end. -/
theorem trim_eq_self_iff :
    trim cs = cs ↔
      cs.head?.all (!isBlank ·) = true ∧ cs.getLast?.all (!isBlank ·) = true := by
  constructor
  · intro kept
    have start := head?_trim cs
    have stop := getLast?_trim cs
    rw [kept] at start stop
    exact ⟨start, stop⟩
  · rintro ⟨start, stop⟩
    rw [trim, (trimStart_eq_self_iff cs).2 start]
    exact (trimEnd_eq_self_iff cs).2 stop

theorem trim_trim (cs : List Char) : trim (trim cs) = trim cs :=
  trim_eq_self_iff.2 ⟨head?_trim cs, getLast?_trim cs⟩

/-- Trimming at the start leaves the end of a text as it is. -/
theorem trim_eq_trimStart (kept : trimEnd cs = cs) : trim cs = trimStart cs := by
  obtain ⟨ws, -, whole⟩ := exists_trimStart cs
  rw [trimEnd_eq_self_iff, whole] at kept
  rw [trim, trimEnd_eq_self_iff]
  cases rest : trimStart cs with
  | nil => rfl
  | cons c rest =>
    rw [rest, List.getLast?_append, List.getLast?_cons, Option.some_or] at kept
    rwa [List.getLast?_cons]

end DocProse.Text
