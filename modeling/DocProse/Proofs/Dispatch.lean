import DocProse.Processor
import DocProse.Proofs.Extensions

/-!
# Which processor is responsible

A registry comes about by registrations, one after another (`registerAll`).  One
more registration changes the answer for a path only if there was none, and adds
to the extensions at their end (`findProcessor_register`,
`availableExtensions_register`).  So a whole run of registrations asks the older
processors first (`findProcessor_registerAll`).

The processor that is found is the first one registered that handles the path
(`findProcessor_eq_some_iff`), and its own hooks give the document of a file or
fail (`preProcess_of_findProcessor`).  They are asked for by the extension of the
path behind a dot, and that is the only dot (`Path.dot_not_mem_of_extension?`).
-/

namespace DocProse

/-! ## Extensions of paths -/

/-- A path that is handled by its extension has one. -/
theorem exists_extension_of_advertises {extensions : List String} {path : String}
    (h : advertises extensions path = true) : ∃ e, Path.extension? path = some e := by
  rw [advertises] at h
  split at h
  · next e found => exact ⟨e, found⟩
  · cases h

namespace Registry

variable {r : Registry} {p : Processor} {ps : List Processor} {path text : String}

/-! ## One registration -/

theorem findProcessor_register (r : Registry) (p : Processor) (path : String) :
    (r.register p).findProcessor path =
      (r.findProcessor path).or (if p.canHandle path then some p else none) := by
  rw [register, findProcessor, List.find?_append, List.find?_singleton]
  rfl

theorem availableExtensions_register (r : Registry) (p : Processor) :
    (r.register p).availableExtensions = r.availableExtensions ++ p.extensions := by
  rw [register, availableExtensions, List.flatMap_append, List.flatMap_singleton]
  rfl

/-! ## Runs of registrations -/

/-- A registry after further registrations, one after another. -/
def registerAll (r : Registry) (ps : List Processor) : Registry := ps.foldl register r

/-- The older processors are asked first, and then the newer ones in their order. -/
theorem findProcessor_registerAll (r : Registry) (ps : List Processor) (path : String) :
    (r.registerAll ps).findProcessor path = (r.findProcessor path).or (findProcessor ps path) := by
  -- Each step changes the registry, so the induction is on the run for all registries.
  induction ps generalizing r with
  | nil => simp [registerAll, findProcessor]
  | cons p ps ih =>
    have rest := ih (r.register p)
    rw [registerAll, List.foldl_cons, ← registerAll, rest, findProcessor_register,
      Option.or_assoc]
    congr 1
    cases handles : p.canHandle path with
    | true => simp [findProcessor, handles]
    | false => simp [findProcessor, handles]

theorem availableExtensions_registerAll (r : Registry) (ps : List Processor) :
    (r.registerAll ps).availableExtensions =
      r.availableExtensions ++ (ps.map Processor.extensions).flatten := by
  induction ps generalizing r with
  | nil => simp [registerAll]
  | cons p ps ih =>
    rw [registerAll, List.foldl_cons, ← registerAll, ih, availableExtensions_register,
      List.map_cons, List.flatten_cons, List.append_assoc]

/-! ## The first processor that handles a path -/

/-- A processor in a run that handles a path while none before it does. -/
def HandlesFirst (path : String) (ps : List Processor) (p : Processor) : Prop :=
  ∃ earlier later, ps = earlier ++ p :: later ∧ p.canHandle path = true ∧
    ∀ q ∈ earlier, q.canHandle path = false

theorem findProcessor_eq_some_iff :
    findProcessor ps path = some p ↔ HandlesFirst path ps p := by
  rw [findProcessor, List.find?_eq_some_iff_append, HandlesFirst]
  constructor
  · rintro ⟨handles, earlier, later, order, none⟩
    exact ⟨earlier, later, order, handles, by simpa using none⟩
  · rintro ⟨earlier, later, order, handles, none⟩
    exact ⟨handles, earlier, later, order, by simpa using none⟩

theorem findProcessor_eq_none_iff :
    findProcessor ps path = none ↔ ∀ q ∈ ps, q.canHandle path = false := by
  simp [findProcessor]

/-- A registry that starts empty asks the processors in the order of registration. -/
theorem findProcessor_registerAll_nil (ps : List Processor) (path : String) :
    (registerAll [] ps).findProcessor path = findProcessor ps path := by
  rw [findProcessor_registerAll]
  rfl

/-! ## The document of a file -/

/-- What the hooks of the responsible processor give or fail with is given on. -/
theorem preProcess_of_findProcessor (found : r.findProcessor path = some p) :
    r.preProcess path text =
      ((p.hooks (hookExtension path)).preProcess text (some path)).map some := by
  rw [preProcess, found]

theorem preProcess_eq_ok_none_iff :
    r.preProcess path text = .ok none ↔ r.findProcessor path = none := by
  constructor
  · intro nothing
    cases found : r.findProcessor path with
    | none => rfl
    | some p =>
      rw [preProcess_of_findProcessor found] at nothing
      cases own : (p.hooks (hookExtension path)).preProcess text (some path) with
      | error cause => rw [own] at nothing; cases nothing
      | ok d => rw [own] at nothing; cases nothing
  · intro unhandled
    rw [preProcess, unhandled]

theorem hookExtension_of_extension? {e : String} (h : Path.extension? path = some e) :
    hookExtension path = "." ++ e := by
  rw [hookExtension, h]

/-- After a run of registrations the first processor registered that handles a path is responsible
for it.  Further registrations leave an answer as it is, and where there was none the first new
processor that handles the path comes in.  The extensions are those of all processors in order.
The document of a file is what the hooks of the responsible processor give for the extension of
the path behind one dot, and there is none exactly when no processor is responsible. -/
theorem dispatch_firstRegistered (ps more : List Processor) (path text : String) :
    (∀ p, (registerAll [] ps).findProcessor path = some p ↔ HandlesFirst path ps p) ∧
    ((registerAll [] ps).findProcessor path = none ↔ ∀ q ∈ ps, q.canHandle path = false) ∧
    (∀ p, (registerAll [] ps).findProcessor path = some p →
      ((registerAll [] ps).registerAll more).findProcessor path = some p) ∧
    ((registerAll [] ps).findProcessor path = none →
      (∀ p, ((registerAll [] ps).registerAll more).findProcessor path = some p ↔
        HandlesFirst path more p) ∧
      (((registerAll [] ps).registerAll more).findProcessor path = none ↔
        ∀ q ∈ more, q.canHandle path = false)) ∧
    (registerAll [] ps).availableExtensions = (ps.map Processor.extensions).flatten ∧
    ((registerAll [] ps).preProcess path text = .ok none ↔
      (registerAll [] ps).findProcessor path = none) ∧
    (∀ p, (registerAll [] ps).findProcessor path = some p →
      (∀ d, (registerAll [] ps).preProcess path text = .ok (some d) ↔
        (p.hooks (hookExtension path)).preProcess text (some path) = .ok d) ∧
      (∀ cause, (registerAll [] ps).preProcess path text = .error cause ↔
        (p.hooks (hookExtension path)).preProcess text (some path) = .error cause)) ∧
    (∀ e, Path.extension? path = some e →
      hookExtension path = "." ++ e ∧ '.' ∉ e.toList) ∧
    ∀ p : Processor, p.canHandle = advertises p.extensions → p.canHandle path = true →
      ∃ e, Path.extension? path = some e := by
  refine ⟨?_, ?_, ?_, ?_, ?_, preProcess_eq_ok_none_iff, ?_, ?_, ?_⟩
  · intro p
    rw [findProcessor_registerAll_nil, findProcessor_eq_some_iff]
  · rw [findProcessor_registerAll_nil, findProcessor_eq_none_iff]
  · intro p found
    rw [findProcessor_registerAll, found, Option.some_or]
  · intro unhandled
    rw [findProcessor_registerAll, unhandled, Option.none_or]
    exact ⟨fun p => findProcessor_eq_some_iff, findProcessor_eq_none_iff⟩
  · rw [availableExtensions_registerAll]
    rfl
  · intro p found
    rw [preProcess_of_findProcessor found]
    cases (p.hooks (hookExtension path)).preProcess text (some path) with
    | error own => simp [Except.map]
    | ok own => simp [Except.map]
  · intro e found
    exact ⟨hookExtension_of_extension? found, Path.dot_not_mem_of_extension? found⟩
  · intro p byExtension handles
    rw [byExtension] at handles
    exact exists_extension_of_advertises handles

/-- A processor for some extensions that refuses empty texts. -/
def refusing (name : String) (extensions : List String) : Processor where
  name := name
  extensions := extensions
  hooks extension :=
    { preProcess := fun text _ =>
        if text.isEmpty then .error (.parse (name ++ " " ++ extension))
        else .ok (Document.new text ⟨Position.first, Position.first⟩ [])
      postProcess := fun messages filePath => ⟨messages, filePath.getD name⟩ }

/-- Two processors that handle the same extension, one with a dot and one without. -/
def overlapping : List Processor := [refusing "one" [".ts"], refusing "two" ["ts", ".md"]]

/-- A third processor comes behind two that overlap. -/
theorem dispatch_firstRegistered_overlap :
    ((registerAll [] overlapping).registerAll [refusing "three" [".ts", ".txt"]]).findProcessor
      "a.ts" = some (refusing "one" [".ts"]) ∧
    ((registerAll [] overlapping).registerAll [refusing "three" [".ts", ".txt"]]).findProcessor
      "b.txt" = some (refusing "three" [".ts", ".txt"]) ∧
    (registerAll [] overlapping).preProcess "a.ts" "" = .error (.parse "one .ts") ∧
    hookExtension "a.ts" = "." ++ "ts" ∧
    ∃ e, Path.extension? "a.ts" = some e := by
  have first : (registerAll [] overlapping).findProcessor "a.ts" =
      some (refusing "one" [".ts"]) := rfl
  have unhandled : (registerAll [] overlapping).findProcessor "b.txt" = none := rfl
  have third : HandlesFirst "b.txt" [refusing "three" [".ts", ".txt"]]
      (refusing "three" [".ts", ".txt"]) := ⟨[], [], rfl, rfl, by simp⟩
  obtain ⟨-, -, stays, -, -, -, own, dotted, byExtension⟩ :=
    dispatch_firstRegistered overlapping [refusing "three" [".ts", ".txt"]] "a.ts" ""
  obtain ⟨-, -, -, comesIn, -⟩ :=
    dispatch_firstRegistered overlapping [refusing "three" [".ts", ".txt"]] "b.txt" ""
  exact ⟨stays _ first, ((comesIn unhandled).1 _).2 third, ((own _ first).2 _).2 rfl,
    (dotted "ts" rfl).1, byExtension (refusing "one" [".ts"]) rfl rfl⟩

end Registry

end DocProse
