import DocProse.CommandLine.Arguments
import DocProse.Document.Format
import DocProse.Json.Printer
import DocProse.Listing
import DocProse.Settings.File
import DocProse.TypeScript
import DocProse.Walk

/-!
# Running commands

What a command line prints, and its exit code.  The results of the walks are
taken one by one, in the order of the paths that were named (`forEachFile`).  A
result is passed over when it is no regular file, when no processor handles it,
or when it cannot be read.  What is left is handed to an action, which may fail.
The user is told about a failure, and the next result is taken.  About a file
without a processor the user is told only if it was named itself.

Both commands that read files run the same action, which builds the document of
a file (`onDocument`).  They differ in what they keep of it: `ast` an entry for a
list, `comments` the lines to show and two numbers.
-/

namespace DocProse.CommandLine

/-! ## Files -/

/-- What the user is told about a file while the others go on. -/
inductive Note where
  /-- No processor handles it. -/
  | unhandled (path : String)
  /-- What was to be done with it failed. -/
  | failed (path : String) (cause : Error)

/-- A note as a line. -/
def Note.line (theme : Theme) : Note → String
  | .unhandled path => Listing.warning theme ("No processor handles " ++ path)
  | .failed path cause => Listing.failure theme (path ++ ": " ++ cause.message)

/-- What a run over files has come to. -/
structure Progress (σ : Type) where
  /-- What was kept of the files. -/
  state : σ
  /-- What there is to tell the user. -/
  notes : List Note

/-- A run with one more thing to tell. -/
def Progress.tell {σ : Type} (p : Progress σ) (note : Note) : Progress σ :=
  { p with notes := p.notes ++ [note] }

/-- What is done with a file that has a processor, by its path and its text.  It may change what
was kept, and it may fail. -/
abbrev Action (σ : Type) := String → String → σ → Except Error Unit × σ

/-- A run with one more result of the walk from a path. -/
def Progress.visit {σ : Type} (r : Registry) (act : Action σ) (named : String) (p : Progress σ) :
    Visit → Progress σ
  | .failure => p
  | .other _ => p
  | .file path content =>
    match r.findProcessor path with
    | none => if Path.same path named then p.tell (.unhandled path) else p
    | some _ =>
      match content with
      | .error _ => p
      | .ok text =>
        match act path text p.state with
        | (.ok (), state) => ⟨state, p.notes⟩
        | (.error cause, state) => Progress.tell ⟨state, p.notes⟩ (.failed path cause)

/-- A run with an action over the results of the walks from some paths. -/
def forEachFile {σ : Type} (r : Registry) (walks : List (String × List Visit)) (act : Action σ)
    (start : σ) : Progress σ :=
  walks.foldl (fun p (named, visits) => visits.foldl (Progress.visit r act named) p)
    ⟨start, []⟩

/-- The action that builds the document of a file and adds it to what was kept. -/
def onDocument {σ : Type} (r : Registry) (add : σ → String → Document → σ) : Action σ :=
  fun path text kept =>
    match r.preProcess path text with
    | .error cause => (.error cause, kept)
    | .ok none => (.ok (), kept)
    | .ok (some document) => (.ok (), add kept path document)

/-! ## Documents as JSON -/

/-- A file with its document as JSON. -/
def entryJson (path : String) (d : Document) : Json :=
  .obj [("ast", d.toJson), ("filePath", .str path)]

/-- The documents of all files as JSON. -/
def collectEntries (r : Registry) (walks : List (String × List Visit)) : Progress (List Json) :=
  forEachFile r walks (onDocument r fun entries path d => entries ++ [entryJson path d]) []

/-! ## Comments in a listing -/

/-- What is shown so far, with the numbers of files and of comments. -/
structure Tally where
  /-- The lines. -/
  lines : List String := []
  /-- The number of files. -/
  files : Nat := 0
  /-- The number of comments. -/
  comments : Nat := 0

/-- The lines for a file.  A file without comments has none. -/
def fileLines (theme : Theme) (path : String) (d : Document) : List String :=
  if d.isEmpty then []
  else
    Listing.fileHeader theme path
      :: d.children.flatMap fun n => Listing.comment theme n.span n.value

/-- A tally with one more file. -/
def Tally.add (theme : Theme) (t : Tally) (path : String) (d : Document) : Tally :=
  ⟨t.lines ++ fileLines theme path d, t.files + 1, t.comments + d.children.length⟩

/-- The tally of all files. -/
def tallyFiles (theme : Theme) (r : Registry) (walks : List (String × List Visit)) :
    Progress Tally :=
  forEachFile r walks (onDocument r (Tally.add theme)) {}

/-- The listing that a tally comes to. -/
def Tally.listing (theme : Theme) (t : Tally) : List String :=
  t.lines ++ Listing.sectionTitle theme "Summary"
    ++ [Listing.summaryRow theme "Files:" (toString t.files),
      Listing.summaryRow theme "Comments:" (toString t.comments)]

/-! ## Programs -/

/-- What a program leaves behind. -/
structure Result where
  /-- The exit code. -/
  exitCode : Nat := 0
  /-- The lines on standard output. -/
  output : List String := []
  /-- The lines on standard error. -/
  errors : List String := []
  /-- The lines on how to use the program, if they are to be shown. -/
  usage : List String := []
  deriving DecidableEq, Repr, Inhabited

/-- The name and version of the program. -/
def versionLine : String := "doctext 0.0.1"

/-- The command that prints documents, with a registry and the walks from the paths it names. -/
def runAst (theme : Theme) (r : Registry) (walks : List (String × List Visit)) : Result :=
  let p := collectEntries r walks
  { output := [(Json.arr p.state).pretty], errors := p.notes.map (Note.line theme) }

/-- The command that lists comments, with a registry and the walks from the paths it names. -/
def runComments (theme : Theme) (r : Registry) (walks : List (String × List Visit)) : Result :=
  let p := tallyFiles theme r walks
  { output := p.state.listing theme, errors := p.notes.map (Note.line theme) }

/-- A command with a registry and a way to walk from a path. -/
def Command.run (theme : Theme) (r : Registry) (walk : String → List Visit) : Command → Result
  | .extensions => { output := r.availableExtensions }
  | .ast paths => runAst theme r (paths.map fun p => (p, walk p))
  | .comments paths => runComments theme r (paths.map fun p => (p, walk p))

/-- The program with arguments in a workspace. -/
def run (theme : Theme) (w : Workspace) (args : List String) : Result :=
  match readArguments args with
  | .error .help => { usage := usageLines }
  | .error .version => { output := [versionLine] }
  | .error .misuse => { exitCode := 2, usage := usageLines }
  | .ok i =>
    match Settings.load w i.options.config with
    | .error cause => { exitCode := 1, errors := ["Error: " ++ cause.message] }
    | .ok settings => i.command.run theme (defaultRegistry (settings.getD {})) (Visit.walk w)

end DocProse.CommandLine
