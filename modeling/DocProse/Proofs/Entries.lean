import DocProse.Proofs.Advertising

/-!
# Entries that can match

A processor may be given any text as an entry among its extensions.  The entry
handles the paths whose extension it is, the dots at its start aside
(`advertises_singleton_iff`).  No path has an extension with a dot or a slash in it
(`Path.HasExtension.isPlain`), so an entry that holds one behind those dots is
advertised and never matches, and leaving it out changes nothing
(`advertises_filter_isPlain`).

Every other entry matches (`Registry.entry_matches_iff`).  With a name and a dot
before it, what stands behind the dots of the entry is a path that is handled.  Only
a name that is itself a dot, with nothing behind the second dot, does not do, since
two dots lead to the directory above (`Path.hasExtension_append_iff`).
-/

namespace DocProse

/-- Neither a dot nor a slash is in a text. -/
structure IsPlain (s : String) : Prop where
  noDot : '.' ∉ s.toList
  noSlash : '/' ∉ s.toList

instance (s : String) : Decidable (IsPlain s) :=
  decidable_of_iff ('.' ∉ s.toList ∧ '/' ∉ s.toList)
    ⟨fun h => ⟨h.1, h.2⟩, fun h => ⟨h.noDot, h.noSlash⟩⟩

namespace Path

variable {path stem e : String}

theorem HasExtension.isPlain (h : HasExtension path e) : IsPlain e := by
  obtain ⟨_, _, _, _, _, _, noSlash, noDot, _, _⟩ := h
  exact ⟨noDot, fun slash => noSlash (List.mem_append_right _ slash)⟩

theorem not_hasExtension_parent : ¬ HasExtension ".." e := by
  intro has
  have found : extension? ".." = some e := extension?_eq_some_iff.2 has
  have none : extension? ".." = none := by decide
  rw [none] at found
  cases found

/-- A name, a dot and a text have the text as their extension, unless this gives two dots. -/
theorem hasExtension_append_iff (visible : stem ≠ "") (noSlash : '/' ∉ stem.toList)
    (plain : IsPlain e) : HasExtension (stem ++ "." ++ e) e ↔ ¬ (stem = "." ∧ e = "") := by
  constructor
  · rintro has ⟨rfl, rfl⟩
    exact not_hasExtension_parent has
  · intro name
    refine ⟨[], stem.toList, [], by simp, .inl rfl, .nil, ?_, plain.noDot, by simpa using visible,
      ?_⟩
    · rw [List.mem_append, not_or]
      exact ⟨noSlash, plain.noSlash⟩
    · intro dots
      apply name
      -- Of the two dots one is the separator, so the name is the other one.
      cases front : stem.toList with
      | nil => exact absurd front (by simpa using visible)
      | cons c cs =>
        rw [front, List.cons_append, List.cons.injEq] at dots
        obtain ⟨rfl, behind⟩ := dots
        rcases List.append_eq_singleton_iff.1 behind with ⟨rfl, last⟩ | ⟨-, more⟩
        · rw [List.cons.injEq] at last
          exact ⟨String.toList_inj.1 front, String.toList_inj.1 last.2⟩
        · cases more

end Path

variable {x path : String}

/-- A single entry handles the paths whose extension is what stands behind its dots. -/
theorem advertises_singleton_iff :
    advertises [x] path = true ↔ Path.HasExtension path (stripDots x) := by
  rw [advertises_iff]
  constructor
  · rintro ⟨e, has, entry, only, dots⟩
    rw [List.mem_singleton.1 only] at dots
    rwa [(stripDots_eq_iff has.isPlain.noDot).2 dots]
  · intro has
    exact ⟨stripDots x, has, x, List.mem_singleton_self x, dotsBefore_stripDots x⟩

/-- Entries that hold a dot or a slash behind their dots can be left out. -/
theorem advertises_filter_isPlain (xs : List String) (path : String) :
    advertises (xs.filter fun x => IsPlain (stripDots x)) path = advertises xs path := by
  rw [Bool.eq_iff_iff, advertises_iff, advertises_iff]
  constructor
  · rintro ⟨e, has, entry, kept, dots⟩
    exact ⟨e, has, entry, List.mem_of_mem_filter kept, dots⟩
  · rintro ⟨e, has, entry, inEntries, dots⟩
    have stripped : stripDots entry = e := (stripDots_eq_iff has.isPlain.noDot).2 dots
    refine ⟨e, has, entry, List.mem_filter.2 ⟨inEntries, ?_⟩, dots⟩
    rw [stripped]
    exact decide_eq_true has.isPlain

namespace Registry

variable {p : Processor}

theorem findProcessor_singleton_iff (path : String) :
    (register [] p).findProcessor path = some p ↔ p.canHandle path = true := by
  have nothing : findProcessor [] path = none := rfl
  rw [findProcessor_register, nothing, Option.none_or]
  simp

/-- A processor that advertises one entry and goes by it handles some path exactly if the entry has
neither a dot nor a slash behind the dots at its start.  Then any name with a dot and the rest of
the entry behind it is such a path, but for two dots.  Otherwise the entry is advertised, and no
path is handled that was not handled before. -/
theorem entry_matches_iff (p : Processor) (x : String) (only : p.extensions = [x])
    (byExtension : ByExtension p) :
    ((∃ path, (register [] p).findProcessor path = some p) ↔ IsPlain (stripDots x)) ∧
    (IsPlain (stripDots x) → ∀ stem, stem ≠ "" → '/' ∉ stem.toList →
      ((register [] p).findProcessor (stem ++ "." ++ stripDots x) = some p ↔
        ¬ (stem = "." ∧ stripDots x = ""))) ∧
    ∀ r : Registry, (r.register p).availableExtensions = r.availableExtensions ++ [x] ∧
      (¬ IsPlain (stripDots x) →
        ∀ path, (r.register p).findProcessor path = r.findProcessor path) := by
  have handles (path : String) :
      p.canHandle path = true ↔ Path.HasExtension path (stripDots x) := by
    rw [byExtension, only, advertises_singleton_iff]
  refine ⟨⟨?_, ?_⟩, ?_, ?_⟩
  · rintro ⟨path, found⟩
    exact ((handles path).1 ((findProcessor_singleton_iff path).1 found)).isPlain
  · intro plain
    have has : Path.HasExtension ("a" ++ "." ++ stripDots x) (stripDots x) :=
      (Path.hasExtension_append_iff (by decide) (by decide) plain).2
        fun dot => absurd dot.1 (by decide)
    exact ⟨_, (findProcessor_singleton_iff _).2 ((handles _).2 has)⟩
  · intro plain stem visible noSlash
    rw [findProcessor_singleton_iff, handles, Path.hasExtension_append_iff visible noSlash plain]
  · intro r
    refine ⟨only ▸ availableExtensions_register r p, ?_⟩
    intro other path
    have leftOut : [x].filter (fun x => IsPlain (stripDots x)) = [] := by simp [other]
    have unhandled : ¬ p.canHandle path = true := by
      rw [byExtension, only, ← advertises_filter_isPlain, leftOut, advertises_iff]
      rintro ⟨e, -, entry, none, -⟩
      cases none
    rw [findProcessor_register, if_neg unhandled, Option.or_none]

/-- An entry of dots alone, and a compound one, each as the only entry of a processor. -/
theorem entry_matches_iff_dots :
    (refusing "dots" ["..."]).extensions = ["..."] ∧ ByExtension (refusing "dots" ["..."]) ∧
    (refusing "compound" [".d.ts"]).extensions = [".d.ts"] ∧
    ByExtension (refusing "compound" [".d.ts"]) ∧
    IsPlain (stripDots "...") ∧ ".." ≠ "" ∧ '/' ∉ "..".toList ∧
    (register [] (refusing "dots" ["..."])).findProcessor "..." =
      some (refusing "dots" ["..."]) ∧
    (register [] (refusing "dots" ["..."])).findProcessor ".." ≠
      some (refusing "dots" ["..."]) ∧
    ¬ IsPlain (stripDots ".d.ts") ∧
    ∀ path, (register [] (refusing "compound" [".d.ts"])).findProcessor path = none := by
  have plain : IsPlain (stripDots "...") := by decide
  have compound : ¬ IsPlain (stripDots ".d.ts") := by decide
  obtain ⟨-, matching, -⟩ := entry_matches_iff (refusing "dots" ["..."]) "..." rfl rfl
  obtain ⟨-, -, adds⟩ := entry_matches_iff (refusing "compound" [".d.ts"]) ".d.ts" rfl rfl
  refine ⟨rfl, rfl, rfl, rfl, plain, by decide, by decide, ?_, ?_, compound, (adds []).2 compound⟩
  · exact (matching plain ".." (by decide) (by decide)).2 fun dot => absurd dot.1 (by decide)
  · exact fun found => (matching plain "." (by decide) (by decide)).1 found ⟨rfl, by decide⟩

end Registry

end DocProse
