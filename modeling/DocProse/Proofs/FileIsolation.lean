import DocProse.Proofs.Dialects
import DocProse.Proofs.ListingLines
import DocProse.Proofs.PathsBelow
import DocProse.Proofs.PrintedDocuments

/-!
# Files apart from each other

A run over files that builds their documents comes to the same as taking each
result of the walks by itself (`forEachFile_onDocument`).  A result gives a
document or none (`document?`), and a note or none (`note?`), and neither hangs
on the other results.  What a run keeps is folded from the documents in order,
and its notes are those of the results in order.

So the list that `ast` prints is put together from the results one by one, and a
result that gives no document could as well not be there (`runAst_isolated`).
Read again, the list holds the documents with the paths of their files, provided
that their offsets fit 64 bits, as they do with the built-in processor
(`documentsFit_registry`).  Warnings are about named files only: a walk from a
directory leads to none.
-/

namespace DocProse.CommandLine

variable {σ : Type} {r : Registry} {add : σ → String → Document → σ}

/-! ## One result -/

/-- The document that a result of a walk gives: that of a file which a processor handles, which
can be read, and whose document can be built. -/
def document? (r : Registry) : Visit → Option (String × Document)
  | .file path (.ok text) =>
    match r.findProcessor path, r.preProcess path text with
    | some _, .ok (some d) => some (path, d)
    | _, _ => none
  | _ => none

/-- What the user is told about a result of the walk from a path. -/
def note? (r : Registry) (named : String) : Visit → Option Note
  | .file path content =>
    match r.findProcessor path, content with
    | none, _ => if Path.same path named then some (.unhandled path) else none
    | some _, .error _ => none
    | some _, .ok text =>
      match r.preProcess path text with
      | .error cause => some (.failed path cause)
      | .ok _ => none
  | _ => none

/-- One result adds its document and its note, if it has them, and nothing else. -/
theorem visit_onDocument (p : Progress σ) (named : String) (v : Visit) :
    p.visit r (onDocument r add) named v =
      ⟨(document? r v).elim p.state fun e => add p.state e.1 e.2,
        p.notes ++ (note? r named v).toList⟩ := by
  cases v with
  | failure => simp [Progress.visit, document?, note?]
  | other path => simp [Progress.visit, document?, note?]
  | file path content =>
    simp only [Progress.visit]
    cases handled : r.findProcessor path with
    | none =>
      by_cases same : Path.same path named <;> cases content <;>
        simp [document?, note?, handled, same, Progress.tell]
    | some processor =>
      cases content with
      | error fault => simp [document?, note?, handled]
      | ok text =>
        cases built : r.preProcess path text with
        | error cause => simp [onDocument, document?, note?, handled, built, Progress.tell]
        | ok result => cases result <;> simp [onDocument, document?, note?, handled, built]

/-- The ways in which a result of a walk gives no document: the place could not be visited, it is no
regular file, no processor handles the file, the file cannot be read, or its document cannot be
built. -/
inductive PassedOver (r : Registry) : Visit → Prop where
  | failure : PassedOver r .failure
  | other (path : String) : PassedOver r (.other path)
  | unhandled {path : String} (content : Except FileFault String)
      (none : r.findProcessor path = none) : PassedOver r (.file path content)
  | unreadable (path : String) (fault : FileFault) : PassedOver r (.file path (.error fault))
  | failed {path text : String} {cause : Error} (fails : r.preProcess path text = .error cause) :
      PassedOver r (.file path (.ok text))

/-- A processor that handles a file gives a document or fails. -/
theorem preProcess_ne_none {path text : String} {processor : Processor}
    (handled : r.findProcessor path = some processor) : r.preProcess path text ≠ .ok none := by
  cases built : (processor.hooks (Registry.hookExtension path)).preProcess text (some path) <;>
    simp [Registry.preProcess, handled, built, Except.map]

theorem document?_eq_some_iff {v : Visit} {path : String} {d : Document} :
    document? r v = some (path, d) ↔
      ∃ text, v = .file path (.ok text) ∧ (r.findProcessor path).isSome ∧
        r.preProcess path text = .ok (some d) := by
  constructor
  · intro h
    unfold document? at h
    split at h
    · split at h
      · next handled built =>
        cases h
        exact ⟨_, rfl, by rw [handled]; rfl, built⟩
      · cases h
    · cases h
  · rintro ⟨text, rfl, handled, built⟩
    obtain ⟨processor, found⟩ := Option.isSome_iff_exists.1 handled
    simp [document?, found, built]

/-- A result gives no document in one of these ways, and only then. -/
theorem document?_eq_none_iff {v : Visit} : document? r v = none ↔ PassedOver r v := by
  constructor
  · intro h
    cases v with
    | failure => exact .failure
    | other path => exact .other path
    | file path content =>
      cases content with
      | error fault => exact .unreadable path fault
      | ok text =>
        cases handled : r.findProcessor path with
        | none => exact .unhandled _ handled
        | some processor =>
          cases built : r.preProcess path text with
          | error cause => exact .failed built
          | ok result =>
            -- The hooks of the processor that handles the file leave a result.
            cases result with
            | none => exact absurd built (preProcess_ne_none handled)
            | some d => simp [document?, handled, built] at h
  · intro passed
    cases passed with
    | failure => rfl
    | other path => rfl
    | unhandled content none => cases content <;> simp [document?, none]
    | unreadable path fault => rfl
    | failed fails => simp [document?, fails]

/-- A file that a processor handles and does not fail on has a document. -/
theorem exists_document {path text : String} (handled : (r.findProcessor path).isSome)
    (passes : ∀ cause, r.preProcess path text ≠ .error cause) :
    ∃ d, r.preProcess path text = .ok (some d) ∧
      document? r (.file path (.ok text)) = some (path, d) := by
  obtain ⟨processor, found⟩ := Option.isSome_iff_exists.1 handled
  cases built : r.preProcess path text with
  | error cause => exact absurd built (passes cause)
  | ok result =>
    cases result with
    | none => exact absurd built (preProcess_ne_none found)
    | some d => exact ⟨d, rfl, document?_eq_some_iff.2 ⟨text, rfl, handled, built⟩⟩

/-! ## All results -/

/-- The documents that the results of some walks give, in order. -/
def documents (r : Registry) (walks : List (String × List Visit)) : List (String × Document) :=
  walks.flatMap fun w => w.2.filterMap (document? r)

/-- The notes that the results of some walks give, in order. -/
def notes (r : Registry) (walks : List (String × List Visit)) : List Note :=
  walks.flatMap fun w => w.2.filterMap (note? r w.1)

theorem foldl_visit (p : Progress σ) (named : String) (visits : List Visit) :
    visits.foldl (Progress.visit r (onDocument r add) named) p =
      ⟨(visits.filterMap (document? r)).foldl (fun kept e => add kept e.1 e.2) p.state,
        p.notes ++ visits.filterMap (note? r named)⟩ := by
  induction visits generalizing p with
  | nil => simp
  | cons v visits ih =>
    rw [List.foldl_cons, ih, visit_onDocument]
    cases found : document? r v <;> cases told : note? r named v <;>
      simp [found, told]

/-- A run that builds documents folds them in order, and notes what each result gives. -/
theorem forEachFile_onDocument (r : Registry) (walks : List (String × List Visit))
    (add : σ → String → Document → σ) (start : σ) :
    forEachFile r walks (onDocument r add) start =
      ⟨(documents r walks).foldl (fun kept e => add kept e.1 e.2) start, notes r walks⟩ := by
  -- The induction needs a run that starts behind other walks.
  have run : ∀ p : Progress σ,
      walks.foldl (fun p w => w.2.foldl (Progress.visit r (onDocument r add) w.1) p) p =
        ⟨(documents r walks).foldl (fun kept e => add kept e.1 e.2) p.state,
          p.notes ++ notes r walks⟩ := by
    induction walks with
    | nil => intro p; simp [documents, notes]
    | cons w walks ih =>
      intro p
      rw [List.foldl_cons, foldl_visit, ih]
      simp [documents, notes]
  exact run ⟨start, []⟩

/-- All offsets in the documents of some walks fit 64 bits. -/
def DocumentsFit (r : Registry) (walks : List (String × List Visit)) : Prop :=
  ∀ e ∈ documents r walks, e.2.Fits

instance (r : Registry) (walks : List (String × List Visit)) : Decidable (DocumentsFit r walks) :=
  inferInstanceAs (Decidable (∀ e ∈ documents r walks, e.2.Fits))

theorem collectEntries_eq (r : Registry) (walks : List (String × List Visit)) :
    collectEntries r walks =
      ⟨(documents r walks).map fun e => entryJson e.1 e.2, notes r walks⟩ := by
  have gathered : ∀ (es : List (String × Document)) (entries : List Json),
      es.foldl (fun entries e => entries ++ [entryJson e.1 e.2]) entries =
        entries ++ es.map fun e => entryJson e.1 e.2 := by
    intro es
    induction es with
    | nil => simp
    | cons e es ih => simp [ih]
  rw [collectEntries, forEachFile_onDocument, gathered, List.nil_append]

/-- What `ast` prints, written out. -/
theorem output_runAst (theme : Theme) (r : Registry) (walks : List (String × List Visit)) :
    (runAst theme r walks).output =
      [(Json.arr ((documents r walks).map fun e =>
        .obj [("ast", e.2.toJson), ("filePath", .str e.1)])).pretty] := by
  rw [runAst, collectEntries_eq]
  rfl

/-- What `ast` prints is read as the documents with the paths of their files. -/
theorem readEntries_runAst (theme : Theme) {walks : List (String × List Visit)}
    (fit : DocumentsFit r walks) :
    readEntries (runAst theme r walks).output = some (documents r walks) := by
  rw [output_runAst]
  exact readEntries_pretty fit

theorem documents_append (r : Registry) (walks more : List (String × List Visit)) :
    documents r (walks ++ more) = documents r walks ++ documents r more :=
  List.flatMap_append

theorem DocumentsFit.append {walks more : List (String × List Visit)} (first : DocumentsFit r walks)
    (second : DocumentsFit r more) : DocumentsFit r (walks ++ more) := by
  intro e listed
  rw [documents_append] at listed
  exact (List.mem_append.1 listed).elim (first e) (second e)

/-- The text that a result of a walk comes with. -/
def text? : Visit → Option String
  | .file _ (.ok text) => some text
  | _ => none

/-- The documents of the built-in processor fit, with any settings, whatever the grammar. -/
theorem documentsFit_registry (g : Grammar) (settings : Settings)
    {walks : List (String × List Visit)}
    (short : ∀ w ∈ walks, ∀ v ∈ w.2, ∀ text ∈ text? v, text.utf8ByteSize < Json.maxWord) :
    DocumentsFit (g.registry settings) walks := by
  rintro ⟨path, d⟩ listed
  obtain ⟨w, named, inWalk⟩ := List.mem_flatMap.1 listed
  obtain ⟨v, visited, found⟩ := List.mem_filterMap.1 inWalk
  obtain ⟨text, rfl, handled, built⟩ := document?_eq_some_iff.1 found
  obtain ⟨dialect, document⟩ := Grammar.document_of_preProcess handled built
  exact Grammar.fits_document document (short w named _ visited text rfl)

/-- A result that is passed over could as well not be there. -/
theorem documents_passedOver {v : Visit} (passed : PassedOver r v)
    (front back : List (String × List Visit)) (named : String) (xs ys : List Visit) :
    documents r (front ++ (named, xs ++ v :: ys) :: back) =
      documents r (front ++ (named, xs ++ ys) :: back) := by
  have nothing : document? r v = none := document?_eq_none_iff.2 passed
  simp [documents, nothing]

/-! ## Warnings -/

/-- The path in a note that no processor handles a file. -/
def Note.unhandled? : Note → Option String
  | .unhandled path => some path
  | .failed _ _ => none

/-- Whether a line for the user is a warning, by the sign that it starts with. -/
def isWarning (line : String) : Bool := "⚠️ ".toList.isPrefixOf line.toList

/-- The path to warn of, for a result of the walk from a path: that of a file which no processor
handles and which is the named path itself. -/
def unhandledNamed? (r : Registry) (named : String) : Visit → Option String
  | .file path _ =>
    if (r.findProcessor path).isNone && Path.same path named then some path else none
  | _ => none

theorem isWarning_line (theme : Theme) (n : Note) :
    isWarning (n.line theme) = n.unhandled?.isSome := by
  cases n with
  | unhandled path =>
    rw [Note.line, Listing.warning, isWarning, String.toList_append, Note.unhandled?,
      Option.isSome_some, List.isPrefixOf_iff_prefix]
    exact List.prefix_append _ _
  | failed path cause =>
    rw [Note.line, Listing.failure, isWarning, String.toList_append]
    rfl

theorem filter_isWarning_lines (theme : Theme) (ns : List Note) :
    (ns.map (Note.line theme)).filter isWarning =
      (ns.filterMap Note.unhandled?).map fun path =>
        "⚠️ " ++
          (theme.warn.opening ++ ("No processor handles " ++ path) ++ theme.warn.closing) := by
  induction ns with
  | nil => rfl
  | cons n ns ih =>
    rw [List.map_cons, List.filter_cons, isWarning_line, ih]
    cases n with
    | unhandled path =>
      rw [Note.line, Listing.warning, Style.paint_eq]
      rfl
    | failed path cause => rfl

/-- A result gives a warning when its path is to be warned of. -/
theorem unhandled?_note? (named : String) (v : Visit) :
    (note? r named v).bind Note.unhandled? = unhandledNamed? r named v := by
  cases v with
  | failure => rfl
  | other path => rfl
  | file path content =>
    cases handled : r.findProcessor path with
    | none =>
      by_cases same : Path.same path named <;>
        simp [note?, unhandledNamed?, handled, same, Note.unhandled?]
    | some processor =>
      cases content with
      | error fault => simp [note?, unhandledNamed?, handled]
      | ok text =>
        cases built : r.preProcess path text <;>
          simp [note?, unhandledNamed?, handled, built, Note.unhandled?]

theorem filterMap_unhandled?_notes (r : Registry) (walks : List (String × List Visit)) :
    (notes r walks).filterMap Note.unhandled? =
      walks.flatMap fun w => w.2.filterMap (unhandledNamed? r w.1) := by
  simp only [notes, List.filterMap_flatMap, List.filterMap_filterMap, unhandled?_note?]

/-- A file below the path that a walk started from is not warned of. -/
theorem unhandledNamed?_of_below {named path : String} (below : Path.Below named path)
    (content : Except FileFault String) :
    unhandledNamed? r named (.file path content) = none := by
  simp [unhandledNamed?, Path.not_same_of_below below]

/-- The walk from a directory leads to no warning. -/
theorem filterMap_unhandledNamed?_walk {w : Workspace} {named : String} {place : Place}
    {es : List (String × FileTree)} (resolved : w.resolve named = some place)
    (directory : place.here = .directory es) (names : place.here.WellNamed) :
    (Visit.walk w named).filterMap (unhandledNamed? r named) = [] := by
  rw [List.filterMap_eq_nil_iff]
  intro v visited
  cases v with
  | failure => rfl
  | other path => rfl
  | file path content =>
    have below := Visit.below_of_mem_walk resolved directory names visited
    exact unhandledNamed?_of_below below content

/-! ## Commands -/

/-- The list that `ast` prints is put together from the results of the walks, one by one and in
order.  A result has an entry exactly if it is a file that a processor handles, that can be read and
that the processor does not fail on, and the entry holds the path and the document.  The list for
some walks and then others is that for the first and then that for the others, and nothing changes
with a result that is passed over.  The warnings are those for the files that no processor handles
and that were named themselves, in order, and a walk from a directory leads to none. -/
theorem runAst_isolated (theme : Theme) (r : Registry) (walks : List (String × List Visit)) :
    (runAst theme r walks).output =
      [(Json.arr ((walks.flatMap fun w => w.2.filterMap (document? r)).map fun e =>
        .obj [("ast", e.2.toJson), ("filePath", .str e.1)])).pretty] ∧
    (DocumentsFit r walks → readEntries (runAst theme r walks).output =
      some (walks.flatMap fun w => w.2.filterMap (document? r))) ∧
    (∀ v path d, document? r v = some (path, d) ↔
      ∃ text, v = .file path (.ok text) ∧ (r.findProcessor path).isSome ∧
        r.preProcess path text = .ok (some d)) ∧
    (∀ path text, (r.findProcessor path).isSome →
      (∀ cause, r.preProcess path text ≠ .error cause) →
      ∃ d, r.preProcess path text = .ok (some d) ∧
        document? r (.file path (.ok text)) = some (path, d)) ∧
    (∀ v, document? r v = none ↔ PassedOver r v) ∧
    (∀ more, (runAst theme r (walks ++ more)).output =
      [(Json.arr (((walks.flatMap fun w => w.2.filterMap (document? r)) ++
        more.flatMap fun w => w.2.filterMap (document? r)).map fun e =>
          .obj [("ast", e.2.toJson), ("filePath", .str e.1)])).pretty]) ∧
    (∀ more, DocumentsFit r walks → DocumentsFit r more → ∃ xs ys,
      readEntries (runAst theme r walks).output = some xs ∧
      readEntries (runAst theme r more).output = some ys ∧
      readEntries (runAst theme r (walks ++ more)).output = some (xs ++ ys)) ∧
    (∀ v, PassedOver r v → ∀ front back named xs ys,
      (runAst theme r (front ++ (named, xs ++ v :: ys) :: back)).output =
        (runAst theme r (front ++ (named, xs ++ ys) :: back)).output) ∧
    (runAst theme r walks).errors.filter isWarning =
      (walks.flatMap fun w => w.2.filterMap (unhandledNamed? r w.1)).map (fun path =>
        "⚠️ " ++ (theme.warn.opening ++ ("No processor handles " ++ path) ++ theme.warn.closing)) ∧
    (runComments theme r walks).errors = (runAst theme r walks).errors ∧
    (∀ named path content, Path.Below named path →
      unhandledNamed? r named (.file path content) = none) ∧
    ∀ w named place es, Workspace.resolve w named = some place → place.here = .directory es →
      place.here.WellNamed → (Visit.walk w named).filterMap (unhandledNamed? r named) = [] := by
  have errors : (runAst theme r walks).errors = (notes r walks).map (Note.line theme) := by
    rw [runAst, collectEntries_eq]
  refine ⟨output_runAst theme r walks, readEntries_runAst theme, fun _ _ _ => document?_eq_some_iff,
    fun _ _ => exists_document, fun _ => document?_eq_none_iff, ?_, ?_, ?_, ?_, ?_, ?_, ?_⟩
  · intro more
    rw [output_runAst, documents_append]
    rfl
  · intro more first second
    refine ⟨_, _, readEntries_runAst theme first, readEntries_runAst theme second, ?_⟩
    rw [readEntries_runAst theme (first.append second), documents_append]
  · intro v passed front back named xs ys
    rw [output_runAst, output_runAst, documents_passedOver passed]
  · rw [errors, filter_isWarning_lines, filterMap_unhandled?_notes]
  -- Both commands note the same, whatever they keep.
  · rw [errors, runComments, tallyFiles, forEachFile_onDocument]
  · intro named path content below
    exact unhandledNamed?_of_below below content
  · intro w named place es resolved directory names
    exact filterMap_unhandledNamed?_walk resolved directory names

/-- The built-in processor, and one that fails on empty files. -/
def twoProcessors : Registry :=
  (defaultRegistry {}).register (Registry.refusing "refusing" [".bad"])

/-- A walk with a result of every kind, and one from a file that no processor handles. -/
def mixedWalks : List (String × List Visit) :=
  [("src", [.other "src", .failure, .file "src/a.ts" (.ok "/** a */"), .file "src/b.md" (.ok "b"),
      .file "src/c.ts" (.error .notText), .file "src/d.bad" (.ok "")]),
    ("notes.md", [.file "notes.md" (.ok "")])]

/-- The walk from a file without comments. -/
def laterWalks : List (String × List Visit) := [("b.tsx", [.file "b.tsx" (.ok "let b")])]

/-- The document of the only file in the mixed walks that has one. -/
def mixedDocument : Document :=
  ⟨.document, "/** a */", ⟨0, 8⟩, ⟨⟨1, 0⟩, ⟨1, 8⟩⟩,
    [⟨.str, "a", "a", ⟨0, 8⟩, ⟨⟨1, 0⟩, ⟨1, 8⟩⟩⟩]⟩

/-- The document of the file without comments. -/
def laterDocument : Document := ⟨.document, "let b", ⟨0, 5⟩, ⟨⟨1, 0⟩, ⟨1, 5⟩⟩, []⟩

/-- A file system with a directory that holds a file which no processor handles. -/
def readmeInSources : Workspace :=
  ⟨.directory [("src", .directory [("b.md", .file (some ""))])], []⟩

/-- Of the mixed walks there is one entry and one warning, and the entries of later walks follow.
The file that fails could as well not be there, and a file in a directory is not warned of. -/
theorem runAst_isolated_mixed :
    DocumentsFit twoProcessors mixedWalks ∧ DocumentsFit twoProcessors laterWalks ∧
    readEntries (runAst Theme.colored twoProcessors mixedWalks).output =
      some [("src/a.ts", mixedDocument)] ∧
    readEntries (runAst Theme.colored twoProcessors (mixedWalks ++ laterWalks)).output =
      some [("src/a.ts", mixedDocument), ("b.tsx", laterDocument)] ∧
    (twoProcessors.findProcessor "src/a.ts").isSome ∧
    (∃ d, twoProcessors.preProcess "src/a.ts" "/** a */" = .ok (some d) ∧
      document? twoProcessors (.file "src/a.ts" (.ok "/** a */")) = some ("src/a.ts", d)) ∧
    PassedOver twoProcessors (.file "src/d.bad" (.ok "")) ∧
    (runAst Theme.colored twoProcessors
        [("src",
          [.file "src/a.ts" (.ok "/** a */"), .file "src/d.bad" (.ok ""), .failure])]).output =
      (runAst Theme.colored twoProcessors
        [("src", [.file "src/a.ts" (.ok "/** a */"), .failure])]).output ∧
    (runAst Theme.colored twoProcessors mixedWalks).errors.filter isWarning =
      ["⚠️ \x1b[33;1mNo processor handles notes.md\x1b[0m"] ∧
    Path.Below "src" "src/b.md" ∧
    unhandledNamed? twoProcessors "src" (.file "src/b.md" (.ok "")) = none ∧
    (Visit.walk readmeInSources "src").filterMap (unhandledNamed? twoProcessors "src") = [] := by
  have first : documents twoProcessors mixedWalks = [("src/a.ts", mixedDocument)] := by
    decide +kernel
  have second : documents twoProcessors laterWalks = [("b.tsx", laterDocument)] := by
    decide +kernel
  have fitFirst : DocumentsFit twoProcessors mixedWalks := by decide +kernel
  have fitSecond : DocumentsFit twoProcessors laterWalks := by decide +kernel
  have handled : (twoProcessors.findProcessor "src/a.ts").isSome := by decide
  have isName : Path.IsName "b.md" := by decide
  have below : Path.Below "src" "src/b.md" := Path.Below.entry isName
  have names : (FileTree.directory [("b.md", .file (some ""))]).WellNamed :=
    .directory (List.forall_mem_singleton.2 isName) (List.forall_mem_singleton.2 (.file (some "")))
  obtain ⟨-, list, documented, handles, -, -, joins, skips, warns, -, nested, walked⟩ :=
    runAst_isolated Theme.colored twoProcessors mixedWalks
  obtain ⟨-, later, -⟩ := runAst_isolated Theme.colored twoProcessors laterWalks
  have listFirst := (list fitFirst).trans (congrArg some first)
  have listSecond := (later fitSecond).trans (congrArg some second)
  have joined : readEntries (runAst Theme.colored twoProcessors (mixedWalks ++ laterWalks)).output =
      some [("src/a.ts", mixedDocument), ("b.tsx", laterDocument)] := by
    obtain ⟨xs, ys, readFirst, readSecond, readBoth⟩ := joins laterWalks fitFirst fitSecond
    cases readFirst.symm.trans listFirst
    cases readSecond.symm.trans listSecond
    exact readBoth
  have passes : ∀ cause, twoProcessors.preProcess "src/a.ts" "/** a */" ≠ .error cause := by
    have found : document? twoProcessors (.file "src/a.ts" (.ok "/** a */")) =
        some ("src/a.ts", mixedDocument) := by decide +kernel
    obtain ⟨text, same, -, built⟩ := (documented _ _ _).1 found
    cases same
    intro cause
    rw [built]
    exact nofun
  have fails : twoProcessors.preProcess "src/d.bad" "" = .error (.parse "refusing .bad") := rfl
  have failed : PassedOver twoProcessors (.file "src/d.bad" (.ok "")) := .failed fails
  have named : (mixedWalks.flatMap fun w => w.2.filterMap (unhandledNamed? twoProcessors w.1)) =
      ["notes.md"] := by decide +kernel
  rw [named] at warns
  exact ⟨fitFirst, fitSecond, listFirst, joined, handled, handles _ _ handled passes, failed,
    skips _ failed [] [] "src" [.file "src/a.ts" (.ok "/** a */")] [.failure], warns, below,
    nested "src" "src/b.md" _ below, walked readmeInSources "src" _ _ rfl rfl names⟩

end DocProse.CommandLine
