import DocProse.Proofs.Advertising
import DocProse.TypeScript

/-!
# What a document depends on

Between the path of a file and its document the extension is cut from the path,
compared with the entries of the settings, put behind a dot for the hooks, and read
once more to find the dialect.  All that is left of it in the end is whether it is
`tsx`, the case of its letters aside (`Dialect.ofExtension_eq_tsx_iff`).

So two files with the same text have the same document when both are handled and
the extensions of both are `tsx` in that sense, or neither
(`Grammar.preProcess_by_dialect`).  Neither the rest of a path nor the settings that
let it be handled have an influence.  That goes for every grammar.
-/

namespace DocProse

variable {x e path text : String}

/-! ## Spellings of an extension -/

/-- Two texts that differ only in the case of letters from A to Z. -/
def SameLetters (x y : String) : Prop :=
  x.toList.map Char.toLower = y.toList.map Char.toLower

instance (x y : String) : Decidable (SameLetters x y) :=
  inferInstanceAs (Decidable (x.toList.map Char.toLower = y.toList.map Char.toLower))

/-- A text in any case of its letters, with any number of dots before it. -/
def Spells (x e : String) : Prop := ∃ letters, DotsBefore x letters ∧ SameLetters letters e

/-- No capital letter becomes a dot. -/
theorem toLower_eq_dot_iff {c : Char} : c.toLower = '.' ↔ c = '.' := by
  constructor
  · intro lower
    change dite _ _ _ = _ at lower
    split at lower
    · next upper =>
      have code : (c.val + 32).toNat = 46 := congrArg (fun d : Char => d.val.toNat) lower
      have low : 65 ≤ c.val.toNat := UInt32.le_iff_toNat_le.1 upper.1
      have high : c.val.toNat ≤ 90 := UInt32.le_iff_toNat_le.1 upper.2
      have gap : (32 : UInt32).toNat = 32 := rfl
      rw [UInt32.toNat_add, Nat.mod_eq_of_lt (by omega)] at code
      omega
    · exact lower
  · rintro rfl
    rfl

theorem SameLetters.dot_not_mem (h : SameLetters x e) (noDot : '.' ∉ e.toList) :
    '.' ∉ x.toList := by
  intro dot
  have inLower : '.' ∈ x.toList.map Char.toLower := List.mem_map.2 ⟨'.', dot, rfl⟩
  rw [h] at inLower
  obtain ⟨c, membership, lower⟩ := List.mem_map.1 inLower
  exact noDot (toLower_eq_dot_iff.1 lower ▸ membership)

/-- A text without dots is spelled by the texts that are this text behind their dots, in some
case. -/
theorem spells_iff (noDot : '.' ∉ e.toList) : Spells x e ↔ SameLetters (stripDots x) e := by
  constructor
  · rintro ⟨letters, dots, same⟩
    rwa [(stripDots_eq_iff (same.dot_not_mem noDot)).2 dots]
  · intro same
    exact ⟨stripDots x, dotsBefore_stripDots x, same⟩

namespace Dialect

/-- Dots and then `tsx` in any case select the dialect with markup, and nothing else does. -/
theorem ofExtension_eq_tsx_iff : ofExtension x = .tsx ↔ Spells x "tsx" := by
  have noDot : '.' ∉ "tsx".toList := by decide
  rw [spells_iff noDot, SameLetters, stripDots, String.toList_ofList, ofExtension]
  have letters : "tsx".toList.map Char.toLower = ['t', 's', 'x'] := rfl
  rw [letters]
  split
  · next selected => simp [selected]
  · next other => simp [other]

/-- The dialect is the same if both texts spell `tsx` or neither does. -/
theorem ofExtension_eq_iff (x y : String) :
    ofExtension x = ofExtension y ↔ (Spells x "tsx" ↔ Spells y "tsx") := by
  rw [← ofExtension_eq_tsx_iff, ← ofExtension_eq_tsx_iff]
  cases ofExtension x <;> cases ofExtension y <;> decide

/-- Every spelling of an extension selects the same dialect. -/
theorem ofExtension_of_spells (h : Spells x e) (noDot : '.' ∉ e.toList) :
    ofExtension x = ofExtension e := by
  have same : SameLetters (stripDots x) e := (spells_iff noDot).1 h
  have kept : stripDots e = e := (stripDots_eq_iff noDot).2 ⟨0, rfl⟩
  rw [ofExtension_eq_iff, spells_iff (by decide), spells_iff (by decide), kept, SameLetters, same]
  rfl

end Dialect

/-! ## Two files -/

namespace Path

/-- A path whose extension is `tsx`, the case of its letters aside. -/
def IsTsx (path : String) : Prop := ∃ e, HasExtension path e ∧ SameLetters e "tsx"

theorem HasExtension.isTsx_iff (h : HasExtension path e) :
    IsTsx path ↔ Dialect.ofExtension e = .tsx := by
  have found := extension?_eq_some_iff.2 h
  have kept : stripDots e = e :=
    (stripDots_eq_iff (dot_not_mem_of_extension? found)).2 ⟨0, rfl⟩
  rw [Dialect.ofExtension_eq_tsx_iff, spells_iff (by decide), kept]
  constructor
  · rintro ⟨e', has, same⟩
    have found' := extension?_eq_some_iff.2 has
    rw [found] at found'
    cases found'
    exact same
  · intro same
    exact ⟨e, h, same⟩

end Path

namespace Grammar

variable {g : Grammar} {settings : Settings}

/-- The processor that handles a path is the only one there is, and goes by the extension. -/
theorem extension_of_handled
    (handled : ((g.registry settings).findProcessor path).isSome = true) :
    (g.registry settings).findProcessor path = some (g.processor settings) ∧
      ∃ e, Path.extension? path = some e := by
  obtain ⟨p, found⟩ := Option.isSome_iff_exists.1 handled
  obtain ⟨earlier, later, order, handles, -⟩ := Registry.findProcessor_eq_some_iff.1 found
  have registered : p ∈ g.registry settings := by
    rw [order]
    exact List.mem_append_right earlier List.mem_cons_self
  rw [List.mem_singleton.1 registered] at found handles
  exact ⟨found, exists_extension_of_advertises handles⟩

/-- The document of a path that is handled is the one in the dialect of its extension. -/
theorem preProcess_of_handled
    (handled : ((g.registry settings).findProcessor path).isSome = true) :
    ∃ e, Path.HasExtension path e ∧
      (g.registry settings).preProcess path text =
        (g.document (Dialect.ofExtension e) text).map some := by
  obtain ⟨found, e, has⟩ := extension_of_handled handled
  have dotted : Spells ("." ++ e) e := ⟨e, ⟨1, String.toList_append ..⟩, rfl⟩
  have dialect := Dialect.ofExtension_of_spells dotted (Path.dot_not_mem_of_extension? has)
  have hooked : (g.registry settings).preProcess path text =
      (g.document (Dialect.ofExtension ("." ++ e)) text).map some := by
    rw [Registry.preProcess_of_findProcessor found, Registry.hookExtension_of_extension? has]
    rfl
  exact ⟨e, Path.extension?_eq_some_iff.1 has, by rw [hooked, dialect]⟩

/-- The document of a path is one that the grammar gives for the text. -/
theorem document_of_preProcess {doc : Document}
    (handled : ((g.registry settings).findProcessor path).isSome = true)
    (built : (g.registry settings).preProcess path text = .ok (some doc)) :
    ∃ dialect, g.document dialect text = .ok doc := by
  obtain ⟨e, -, hooked⟩ := preProcess_of_handled handled
  rw [hooked] at built
  refine ⟨Dialect.ofExtension e, ?_⟩
  cases given : g.document (Dialect.ofExtension e) text with
  | error cause => simp [given, Except.map] at built
  | ok found => simpa [given, Except.map] using built

/-- Two registries with any settings give the same result for a text in two files that they handle,
if the extensions of both files are `tsx` in some case or neither is.  It is what the hooks give
that a processor without settings has for the extension, spelled in any case and with any number of
dots, whatever path they are told. -/
theorem preProcess_by_dialect (g : Grammar) (settings₁ settings₂ : Settings)
    (path₁ path₂ text : String)
    (handled₁ : ((g.registry settings₁).findProcessor path₁).isSome = true)
    (handled₂ : ((g.registry settings₂).findProcessor path₂).isSome = true)
    (same : Path.IsTsx path₁ ↔ Path.IsTsx path₂) :
    (g.registry settings₁).preProcess path₁ text = (g.registry settings₂).preProcess path₂ text ∧
    ∃ e, Path.HasExtension path₁ e ∧ ∀ x, Spells x e → ∀ shown : Option String,
      (g.registry settings₁).preProcess path₁ text =
        (((g.processor {}).hooks x).preProcess text shown).map some := by
  obtain ⟨e₁, has₁, found₁⟩ := preProcess_of_handled handled₁
  obtain ⟨e₂, has₂, found₂⟩ := preProcess_of_handled handled₂
  refine ⟨?_, e₁, has₁, ?_⟩
  · have dialect : Dialect.ofExtension e₁ = Dialect.ofExtension e₂ := by
      rw [has₁.isTsx_iff, has₂.isTsx_iff] at same
      rwa [Dialect.ofExtension_eq_iff, ← Dialect.ofExtension_eq_tsx_iff,
        ← Dialect.ofExtension_eq_tsx_iff]
    rw [found₁, found₂, dialect]
  · intro x spells shown
    have noDot := Path.dot_not_mem_of_extension? (Path.extension?_eq_some_iff.2 has₁)
    rw [found₁, ← Dialect.ofExtension_of_spells spells noDot]
    rfl

/-- One file has a built-in extension, the other one an entry with other dots and capitals. -/
theorem preProcess_by_dialect_capitals :
    ((Source.scanner.registry {}).findProcessor "src/view.tsx").isSome = true ∧
    ((Source.scanner.registry ⟨["..TsX"]⟩).findProcessor "b/.c.TsX/.").isSome = true ∧
    (Path.IsTsx "src/view.tsx" ↔ Path.IsTsx "b/.c.TsX/.") ∧
    (Source.scanner.registry {}).preProcess "src/view.tsx" "/** a */" =
      (Source.scanner.registry ⟨["..TsX"]⟩).preProcess "b/.c.TsX/." "/** a */" ∧
    Spells "..TSX" "tsx" ∧
    (Source.scanner.registry {}).preProcess "src/view.tsx" "/** a */" =
      (((Source.scanner.processor {}).hooks "..TSX").preProcess "/** a */" none).map some := by
  have handled₁ : ((Source.scanner.registry {}).findProcessor "src/view.tsx").isSome = true := by
    decide
  have handled₂ :
      ((Source.scanner.registry ⟨["..TsX"]⟩).findProcessor "b/.c.TsX/.").isSome = true := by
    decide
  have extension : Path.extension? "src/view.tsx" = some "tsx" := by decide
  have first : Path.IsTsx "src/view.tsx" :=
    ⟨"tsx", Path.extension?_eq_some_iff.1 extension, by decide⟩
  have second : Path.IsTsx "b/.c.TsX/." :=
    ⟨"TsX", Path.extension?_eq_some_iff.1 (by decide), by decide⟩
  have same : Path.IsTsx "src/view.tsx" ↔ Path.IsTsx "b/.c.TsX/." := iff_of_true first second
  have spells : Spells "..TSX" "tsx" := ⟨"TSX", ⟨2, by decide⟩, by decide⟩
  obtain ⟨equal, e, has, spelled⟩ :=
    preProcess_by_dialect Source.scanner {} ⟨["..TsX"]⟩ _ _ "/** a */" handled₁ handled₂ same
  have found := Path.extension?_eq_some_iff.2 has
  rw [extension] at found
  cases found
  exact ⟨handled₁, handled₂, same, equal, spells, spelled _ spells none⟩

end Grammar

end DocProse
