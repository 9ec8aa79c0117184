import DocProse.Proofs.FileIsolation
import DocProse.Proofs.ListingLines

/-!
# What a listing shows

The files of a listing are those of the list that `ast` prints, without the ones
that have no comments, and the places are those of the comments in their
documents (`sections_shownLines`).  The totals are the length of that list and the
number of all comments in it (`foldl_add`).  So both commands tell the same of a
file tree, by what they print alone (`runComments_agrees`).
-/

namespace DocProse

namespace CommandLine

open Listing

/-- The files of a list that have comments, each with the places of its comments. -/
def commentPlaces (entries : List (String × Document)) : List (String × List String) :=
  (entries.filter fun e => !e.2.isEmpty).map fun e => (e.1, e.2.children.map fun n => n.span.text)

/-- The lines of all files in a list. -/
def shownLines (theme : Theme) (entries : List (String × Document)) : List String :=
  entries.flatMap fun e => fileLines theme e.1 e.2

/-- A file with comments shows its path and then their places. -/
theorem sections_header (theme : Theme) (path : String) (ns : List TextNode) (more : List String) :
    sections theme (fileHeader theme path ::
        (ns.flatMap fun n => comment theme n.span n.value) ++ more) =
      ([], (path, (ns.map fun n => n.span.text) ++ (sections theme more).1)
        :: (sections theme more).2) := by
  have noHeader : ∀ line ∈ ns.flatMap fun n => comment theme n.span n.value,
      headerPath? theme line = none := by
    intro line membership
    obtain ⟨n, -, inComment⟩ := List.mem_flatMap.1 membership
    exact headerPath?_of_mem_comment inComment
  have places : (ns.flatMap fun n => comment theme n.span n.value).filterMap (place? theme) =
      ns.map fun n => n.span.text := by
    rw [List.filterMap_flatMap]
    simp only [filterMap_place?_comment]
    exact List.map_eq_flatMap.symm
  rw [List.cons_append, sections, headerPath?_eq_some_iff.2 rfl,
    sections_append_of_no_header noHeader, places]

/-- The lines of files show the paths of those with comments, and the places of their comments. -/
theorem sections_shownLines (theme : Theme) (entries : List (String × Document)) :
    sections theme (shownLines theme entries) = ([], commentPlaces entries) := by
  induction entries with
  | nil => rfl
  | cons e entries ih =>
    rw [shownLines, List.flatMap_cons, ← shownLines, commentPlaces, List.filter_cons]
    cases nothing : e.2.isEmpty with
    | true =>
      -- A file without comments has no lines, and is left out on the other side too.
      rw [fileLines, if_pos nothing, List.nil_append, ih]
      rfl
    | false =>
      rw [fileLines, if_neg (by simp [nothing]), sections_header, ih]
      simp [commentPlaces]

/-! ## Totals -/

/-- A tally after some files has their lines, their number, and the number of their comments. -/
theorem foldl_add (theme : Theme) (entries : List (String × Document)) (t : Tally) :
    entries.foldl (fun kept e => Tally.add theme kept e.1 e.2) t =
      ⟨t.lines ++ shownLines theme entries, t.files + entries.length,
        t.comments + (entries.flatMap fun e => e.2.children).length⟩ := by
  induction entries generalizing t with
  | nil => simp [shownLines]
  | cons e entries ih =>
    rw [List.foldl_cons, ih, Tally.add]
    simp [shownLines, Nat.add_assoc, Nat.add_comm 1]

theorem tallyFiles_eq (theme : Theme) (r : Registry) (walks : List (String × List Visit)) :
    tallyFiles theme r walks =
      ⟨⟨shownLines theme (documents r walks), (documents r walks).length,
        ((documents r walks).flatMap fun e => e.2.children).length⟩, notes r walks⟩ := by
  rw [tallyFiles, forEachFile_onDocument, foldl_add]
  simp

/-! ## Both commands -/

/-- What `comments` prints is what the list that `ast` prints holds.  The headers name the files of
the list that have a comment, in order, and below each header stand the places of its comments.
Behind them stand the totals, which are the length of the list and the number of the comments in
it. -/
theorem runComments_agrees (theme : Theme) (r : Registry) (walks : List (String × List Visit)) :
    ∃ entries shown,
      (runAst theme r walks).output =
        [(Json.arr (entries.map fun e =>
          .obj [("ast", e.2.toJson), ("filePath", .str e.1)])).pretty] ∧
      (DocumentsFit r walks → readEntries (runAst theme r walks).output = some entries) ∧
      (runComments theme r walks).output = shown ++
        ["",
          "━" ++ (theme.header.opening ++ "Summary" ++ theme.header.closing) ++ "━",
          "  " ++ (theme.dim.opening ++ "Files:" ++ theme.dim.closing) ++ " " ++
            toString entries.length,
          "  " ++ (theme.dim.opening ++ "Comments:" ++ theme.dim.closing) ++ " " ++
            toString (entries.flatMap fun e => e.2.children).length] ∧
      sections theme shown =
        ([], (entries.filter fun e => !e.2.children.isEmpty).map fun e =>
          (e.1, e.2.children.map fun n =>
            toString n.span.start.line ++ ":" ++ toString n.span.start.column ++ "-" ++
              (toString n.span.stop.line ++ ":" ++ toString n.span.stop.column))) := by
  refine ⟨documents r walks, shownLines theme (documents r walks), output_runAst theme r walks,
    readEntries_runAst theme, ?_, ?_⟩
  · rw [runComments, tallyFiles_eq, Tally.listing, sectionTitle, summaryRow, summaryRow,
      Style.paint_eq, Style.paint_eq, Style.paint_eq, List.append_assoc]
    rfl
  · exact sections_shownLines theme (documents r walks)

/-- A file with two comments that is walked to twice, a file without comments, and one that no
processor handles. -/
def listedWalks : List (String × List Visit) :=
  [("src", [.file "src/a.ts" (.ok "/** One */\n/** Two\n * lines */"),
      .file "src/b.ts" (.ok "let b"), .file "src/c.md" (.ok "")]),
    ("src/a.ts", [.file "src/a.ts" (.ok "/** One */\n/** Two\n * lines */")])]

/-- The listing has two headers, and the list three entries with four comments. -/
theorem runComments_agrees_listed :
    DocumentsFit (defaultRegistry {}) listedWalks ∧
    ∃ entries shown,
      readEntries (runAst Theme.colored (defaultRegistry {}) listedWalks).output = some entries ∧
      entries.map Prod.fst = ["src/a.ts", "src/b.ts", "src/a.ts"] ∧
      (runComments Theme.colored (defaultRegistry {}) listedWalks).output = shown ++
        ["", "━\x1b[36;1mSummary\x1b[0m━", "  \x1b[90mFiles:\x1b[0m 3",
          "  \x1b[90mComments:\x1b[0m 4"] ∧
      sections Theme.colored shown =
        ([], [("src/a.ts", ["1:0-1:10", "2:0-3:11"]), ("src/a.ts", ["1:0-1:10", "2:0-3:11"])]) := by
  have fit : DocumentsFit (defaultRegistry {}) listedWalks :=
    documentsFit_registry Source.scanner {} (by decide +kernel)
  obtain ⟨entries, shown, -, list, output, places⟩ :=
    runComments_agrees Theme.colored (defaultRegistry {}) listedWalks
  obtain rfl : documents (defaultRegistry {}) listedWalks = entries :=
    Option.some.inj ((readEntries_runAst Theme.colored fit).symm.trans (list fit))
  exact ⟨fit, _, shown, list fit, by decide +kernel,
    output.trans (congrArg (shown ++ ·) (by decide +kernel)), places.trans (by decide +kernel)⟩

end CommandLine

end DocProse
