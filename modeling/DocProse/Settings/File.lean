import DocProse.FileTree
import DocProse.Settings
import DocProse.Toml.Reader

/-!
# Settings files

A settings file is a TOML text whose table is read as settings.  A file that is
not there means that there are no settings.
-/

namespace DocProse.Settings

/-- The settings file that is used when none is named. -/
def defaultPath : String := "doctext.toml"

/-- Settings in a table, whose only field may be left out.  Other keys do not matter. -/
def ofTable (fields : List (String × Toml.Value)) : Except Json.ReadError Settings :=
  match fields.lookup "extensions" with
  | none => .ok {}
  | some v => do
    let extensions ← Toml.readTextArray v
    return ⟨extensions⟩

/-- The settings that a text stands for. -/
def ofToml (text : String) : Except Error Settings :=
  match Toml.parse text with
  | none => .error (.settings .malformed)
  | some fields => (ofTable fields).mapError fun cause => .settings (.unreadable cause)

/-- The settings in what a path leads to, if it leads anywhere. -/
def ofFile : Option FileTree → Except Error (Option Settings)
  | none => .ok none
  | some t => do
    let text ← t.readText.mapError Error.file
    let settings ← ofToml text
    return some settings

/-- The settings in the file at a path, or at the default path. -/
def load (w : Workspace) (path : Option String) : Except Error (Option Settings) :=
  ofFile ((w.resolve (path.getD defaultPath)).map Place.here)

end DocProse.Settings
