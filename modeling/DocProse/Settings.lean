import DocProse.Error

/-!
# Settings

Settings name the extensions to handle besides the built-in ones.  A host gives
them as a JSON value; `null` and a record without the field mean none.
-/

namespace DocProse

/-- What a user can choose. -/
structure Settings where
  /-- Further extensions, in the order given. -/
  extensions : List String := []
  deriving DecidableEq, Repr, Inhabited

namespace Settings

open Json

/-- Settings as an object. -/
def toJson (s : Settings) : Json := .obj [("extensions", .arr (s.extensions.map .str))]

/-- Settings, whose only field may be left out. -/
def ofJson : Reader Settings
  | .obj fields => do
    let extensions ← readField fields "extensions" (readList readText)
    return ⟨extensions.getD []⟩
  | .arr [] => .ok {}
  | .arr (v :: vs) => do
    let extensions ← readList readText v
    noMore (v :: vs) 1
    return ⟨extensions⟩
  | v => .error (.wrongKind v (.record "ProcessorOptions"))

/-- The settings a host gives. -/
def ofHost : Json → Except Error Settings
  | .null => .ok {}
  | v => (ofJson v).mapError .json

end Settings

end DocProse
