import DocProse.Dialect
import DocProse.Document
import DocProse.Settings

/-!
# Processors and the registry

A *processor* names the extensions it handles and, for one of them, gives the
*hooks* a host runs around checking a file: one turns the text of the file into
a document, the other attaches the path of the file to the messages about it.

A *registry* holds processors in the order in which they were registered.  The
first one that handles a path is responsible for it.
-/

namespace DocProse

/-! ## Hooks -/

/-- The messages about one file. -/
structure Report where
  /-- The messages as the host produced them. -/
  messages : List Json
  /-- The path of the file. -/
  filePath : String

namespace Report

open Json

/-- A report as an object. -/
def toJson (r : Report) : Json :=
  .obj [("filePath", .str r.filePath), ("messages", .arr r.messages)]

/-- A report. -/
def ofJson : Reader Report
  | .obj fields => do
    let filePath ← readField fields "filePath" readText
    let messages ← readField fields "messages" (readList readAny)
    let messages ← required "messages" messages
    let filePath ← required "filePath" filePath
    return ⟨messages, filePath⟩
  | .arr vs => do
    let wanted := Wanted.fields "PostProcessResult" 2
    let messages ← readElement vs 0 wanted (readList readAny)
    let filePath ← readElement vs 1 wanted readText
    noMore vs 2
    return ⟨messages, filePath⟩
  | v => .error (.wrongKind v (.record "PostProcessResult"))

end Report

/-- What a host runs around checking one file. -/
structure Hooks where
  /-- Turns the text of a file, whose path may be known, into a document. -/
  preProcess : String → Option String → Except Error Document
  /-- Attaches the path of a file, if known, to the messages about it. -/
  postProcess : List Json → Option String → Report

/-! ## Processors -/

/-- Whether one of some extensions is that of a path, the dots before it aside. -/
def advertises (extensions : List String) (path : String) : Bool :=
  match Path.extension? path with
  | some e => extensions.any (stripDots · == e)
  | none => false

/-- Something that handles files with certain extensions. -/
structure Processor where
  /-- The name to show. -/
  name : String
  /-- The extensions it handles, each with a dot. -/
  extensions : List String
  /-- The hooks for files with an extension. -/
  hooks : String → Hooks
  /-- Whether it handles a path: by its extension, unless it says otherwise. -/
  canHandle : String → Bool := advertises extensions

/-! ## The registry -/

/-- Processors in the order of their registration. -/
abbrev Registry := List Processor

namespace Registry

/-- A registry with one more processor. -/
def register (r : Registry) (p : Processor) : Registry := r ++ [p]

/-- The processor responsible for a path. -/
def findProcessor (r : Registry) (path : String) : Option Processor :=
  r.find? (·.canHandle path)

/-- All extensions that are handled. -/
def availableExtensions (r : Registry) : List String := r.flatMap Processor.extensions

/-- The extension of a path as hooks are asked for: with a dot, or empty if there is none. -/
def hookExtension (path : String) : String :=
  match Path.extension? path with
  | some e => "." ++ e
  | none => ""

/-- The document of a file, if a processor is responsible for it. -/
def preProcess (r : Registry) (path text : String) : Except Error (Option Document) :=
  match r.findProcessor path with
  | none => .ok none
  | some p => ((p.hooks (hookExtension path)).preProcess text (some path)).map some

end Registry

end DocProse
