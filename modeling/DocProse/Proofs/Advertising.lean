import DocProse.Proofs.Dispatch
import Mathlib.Data.List.Forall2

/-!
# Advertised extensions

A registry advertises the extensions of all its processors in one list, while a
path is handed to the processors one by one.  Both agree: when the processors go
by their extensions, one of them is responsible for a path exactly when the
extension of the path is advertised, with any number of dots before it
(`responsible_iff_advertised`).

These dots have no influence at all.  Processors whose entries are written with
other dots before them (`Respelled`) handle the same paths (`advertises_congr`),
so the same one is found, and it gives the same documents.
-/

namespace DocProse

variable {xs ys : List String} {path text : String}

/-! ## By its extension -/

/-- A path is handled by its extension when an entry is this extension behind some dots. -/
theorem advertises_iff :
    advertises xs path = true ↔
      ∃ e, Path.HasExtension path e ∧ ∃ entry ∈ xs, DotsBefore entry e := by
  simp only [← Path.extension?_eq_some_iff, advertises]
  cases found : Path.extension? path with
  | none => simp
  | some e =>
    have noDot := Path.dot_not_mem_of_extension? found
    simp only [List.any_eq_true, beq_iff_eq, stripDots_eq_iff noDot, Option.some.injEq]
    constructor
    · rintro ⟨entry, inEntries, dots⟩
      exact ⟨e, rfl, entry, inEntries, dots⟩
    · rintro ⟨_, rfl, entry, inEntries, dots⟩
      exact ⟨entry, inEntries, dots⟩

/-- Two texts that differ only in the dots before them. -/
def SameBehindDots (x y : String) : Prop := ∃ rest, DotsBefore x rest ∧ DotsBefore y rest

/-- Only what stands behind the dots of an entry matters. -/
theorem advertises_congr (h : List.Forall₂ SameBehindDots xs ys) (path : String) :
    advertises xs path = advertises ys path := by
  have same : xs.map stripDots = ys.map stripDots := by
    rw [← List.forall₂_eq_eq_eq, List.forall₂_map_left_iff, List.forall₂_map_right_iff]
    exact h.imp fun _ _ => stripDots_eq_stripDots_iff.2
  have stripped (zs : List String) (e : String) :
      (zs.any fun z => stripDots z == e) = (zs.map stripDots).any (· == e) := by
    rw [List.any_map]
    rfl
  simp only [advertises, stripped, same]

namespace Registry

variable {p q : Processor} {ps qs : List Processor}

/-- A processor goes by its extensions. -/
def ByExtension (p : Processor) : Prop := p.canHandle = advertises p.extensions

/-- A processor with other dots before the extensions it handles. -/
structure Respelled (p q : Processor) : Prop where
  name : q.name = p.name
  hooks : q.hooks = p.hooks
  byExtension : ByExtension q
  entries : List.Forall₂ SameBehindDots p.extensions q.extensions

theorem Respelled.canHandle_eq (h : Respelled p q) (byExtension : ByExtension p)
    (path : String) : p.canHandle path = q.canHandle path := by
  rw [byExtension, h.byExtension]
  exact advertises_congr h.entries path

/-! ## One processor after the other -/

theorem isSome_findProcessor_iff :
    (findProcessor ps path).isSome = true ↔ ∃ p ∈ ps, p.canHandle path = true := by
  simp [findProcessor]

theorem mem_availableExtensions_iff {entry : String} :
    entry ∈ availableExtensions ps ↔ ∃ p ∈ ps, entry ∈ p.extensions := by
  simp [availableExtensions]

/-- Processors that handle the same paths, one by one, are found at the same place. -/
theorem rel_findProcessor (path : String)
    (same : List.Forall₂ (fun p q => p.canHandle path = q.canHandle path) ps qs) :
    Option.Rel (fun p q => (p, q) ∈ ps.zip qs) (findProcessor ps path)
      (findProcessor qs path) := by
  induction same with
  | nil => exact .none
  | @cons p q ps qs first rest ih =>
    cases handles : p.canHandle path with
    | true =>
      have handles' : q.canHandle path = true := first ▸ handles
      simp only [findProcessor, List.find?_cons, handles, handles']
      exact .some List.mem_cons_self
    | false =>
      have handles' : q.canHandle path = false := first ▸ handles
      have next : findProcessor (p :: ps) path = findProcessor ps path := by
        simp [findProcessor, handles]
      have next' : findProcessor (q :: qs) path = findProcessor qs path := by
        simp [findProcessor, handles']
      rw [next, next']
      generalize findProcessor ps path = found at ih ⊢
      generalize findProcessor qs path = found' at ih ⊢
      cases ih with
      | none => exact .none
      | some later => exact .some (List.mem_cons_of_mem _ later)

/-- Processors that go by their extensions are responsible for the paths whose extension the
registry advertises, with any dots before it, and for no others.  So other dots before the entries
make no difference: of each two processors both handle a path or neither does, the one that
is found stands at the same place, and the documents are the same. -/
theorem responsible_iff_advertised (ps : List Processor) (byExtension : ∀ p ∈ ps, ByExtension p) :
    (∀ path, ((registerAll [] ps).findProcessor path).isSome = true ↔
      ∃ e, Path.HasExtension path e ∧
        ∃ entry ∈ (registerAll [] ps).availableExtensions, DotsBefore entry e) ∧
    ∀ qs, List.Forall₂ Respelled ps qs → ∀ path text,
      List.Forall₂ (fun p q => p.canHandle path = q.canHandle path) ps qs ∧
      Option.Rel (fun p q => (p, q) ∈ ps.zip qs) ((registerAll [] ps).findProcessor path)
        ((registerAll [] qs).findProcessor path) ∧
      (registerAll [] ps).preProcess path text = (registerAll [] qs).preProcess path text := by
  constructor
  · intro path
    have all : (registerAll [] ps).availableExtensions = availableExtensions ps := by
      rw [availableExtensions_registerAll]
      rfl
    rw [findProcessor_registerAll_nil, isSome_findProcessor_iff, all]
    simp only [mem_availableExtensions_iff]
    constructor
    · rintro ⟨p, registered, handles⟩
      rw [byExtension p registered, advertises_iff] at handles
      obtain ⟨e, has, entry, inEntries, dots⟩ := handles
      exact ⟨e, has, entry, ⟨p, registered, inEntries⟩, dots⟩
    · rintro ⟨e, has, entry, ⟨p, registered, inEntries⟩, dots⟩
      refine ⟨p, registered, ?_⟩
      rw [byExtension p registered, advertises_iff]
      exact ⟨e, has, entry, inEntries, dots⟩
  · intro qs respelled path text
    have handle : List.Forall₂ (fun p q => p.canHandle path = q.canHandle path) ps qs := by
      refine List.forall₂_iff_zip.2 ⟨respelled.length_eq, ?_⟩
      intro p q pair
      exact (List.forall₂_zip respelled pair).canHandle_eq
        (byExtension p (List.of_mem_zip pair).1) path
    have found := rel_findProcessor path handle
    rw [← findProcessor_registerAll_nil, ← findProcessor_registerAll_nil qs] at found
    refine ⟨handle, found, ?_⟩
    rw [preProcess, preProcess]
    -- Only the hooks of the processor that is found matter now.
    generalize (registerAll [] ps).findProcessor path = first at found ⊢
    generalize (registerAll [] qs).findProcessor path = second at found ⊢
    cases found with
    | none => rfl
    | some pair => simp only [(List.forall₂_zip respelled pair).hooks]

/-- The overlapping processors with other dots before their entries. -/
def overlappingRespelled : List Processor :=
  [refusing "one" ["ts"], refusing "two" ["...ts", "md"]]

/-- A path with several dots that ends in a slash and a dot. -/
theorem responsible_iff_advertised_overlap :
    (∀ p ∈ overlapping, ByExtension p) ∧
    List.Forall₂ Respelled overlapping overlappingRespelled ∧
    ((registerAll [] overlapping).findProcessor "src/.a.b.md/.").isSome = true ∧
    (registerAll [] overlapping).preProcess "src/.a.b.md/." "" =
      (registerAll [] overlappingRespelled).preProcess "src/.a.b.md/." "" := by
  have byExtension : ∀ p ∈ overlapping, ByExtension p := by
    simp [overlapping, ByExtension, refusing]
  have respelled : List.Forall₂ Respelled overlapping overlappingRespelled :=
    .cons ⟨rfl, rfl, rfl, .cons ⟨"ts", ⟨1, rfl⟩, ⟨0, rfl⟩⟩ .nil⟩
      (.cons ⟨rfl, rfl, rfl, .cons ⟨"ts", ⟨0, rfl⟩, ⟨3, rfl⟩⟩
        (.cons ⟨"md", ⟨1, rfl⟩, ⟨0, rfl⟩⟩ .nil)⟩ .nil)
  have has : Path.HasExtension "src/.a.b.md/." "md" :=
    ⟨"src/".toList, ".a.b".toList, "/.".toList, by decide, .inr ⟨"src".toList, rfl⟩, .dot .nil,
      by decide, by decide, by decide, by decide⟩
  obtain ⟨responsible, same⟩ := responsible_iff_advertised overlapping byExtension
  have found : ((registerAll [] overlapping).findProcessor "src/.a.b.md/.").isSome = true :=
    (responsible _).2 ⟨"md", has, ".md", by decide, 1, rfl⟩
  exact ⟨byExtension, respelled, found, (same _ respelled _ _).2.2⟩

end Registry

end DocProse
