import DocProse.Json.Schema

/-!
# Errors

What can go wrong between a file and its document, by cause, and the message for
each cause.
-/

namespace DocProse

/-- Why a file could not be read. -/
inductive FileFault where
  /-- It is a directory. -/
  | directory
  /-- Its bytes are no UTF-8. -/
  | notText
  deriving DecidableEq, Repr

/-- Why a settings file could not be used. -/
inductive SettingsFault where
  /-- It is not well formed. -/
  | malformed
  /-- A value in it cannot be read. -/
  | unreadable (cause : Json.ReadError)

/-- What can go wrong. -/
inductive Error where
  /-- The source could not be parsed. -/
  | parse (text : String)
  /-- The grammar could not be used. -/
  | language (text : String)
  /-- A file could not be read. -/
  | file (fault : FileFault)
  /-- A settings file could not be used. -/
  | settings (fault : SettingsFault)
  /-- A JSON value could not be read. -/
  | json (cause : Json.ReadError)

/-- The message for a file that could not be read. -/
def FileFault.message : FileFault → String
  | .directory => "Is a directory (os error 21)"
  | .notText => "stream did not contain valid UTF-8"

/-- The message for a settings file that could not be used. -/
def SettingsFault.message : SettingsFault → String
  | .malformed => "malformed settings"
  | .unreadable cause => cause.message

/-- The message for an error. -/
def Error.message : Error → String
  | .parse text => "Parse error: " ++ text
  | .language text => "Language error: " ++ text
  | .file fault => "IO error: " ++ fault.message
  | .settings fault => "Config error: " ++ fault.message
  | .json cause => "JSON error: " ++ cause.message

end DocProse
