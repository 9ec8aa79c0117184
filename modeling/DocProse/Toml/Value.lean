import DocProse.Json.Schema

/-!
# TOML values

The fields of a table stand in the order of the text.  Nothing here depends on which
date a date is.

A value is read as typed data in the same way as a JSON value, and the reasons why
that fails are the same.
-/

namespace DocProse.Toml

/-- A TOML value. -/
inductive Value where
  /-- A text. -/
  | text (value : String)
  /-- A whole number. -/
  | integer (value : Int)
  /-- Any other number. -/
  | float (value : Float)
  /-- A truth value. -/
  | bool (value : Bool)
  /-- A date, a time of day, or both. -/
  | date
  /-- Some values in order. -/
  | array (elements : List Value)
  /-- Values by key. -/
  | table (fields : List (String × Value))
  deriving Inhabited

open Json (ReadError)

/-- What a message shows of a value: of an array or a table only that it is one.  A date shows as
a table. -/
def Value.shown : Value → Json
  | .text s => .str s
  | .integer n => .int n
  | .float x => .float x
  | .bool b => .bool b
  | .date => .obj []
  | .array _ => .arr []
  | .table _ => .obj []

/-- A text. -/
def readText : Value → Except ReadError String
  | .text s => .ok s
  | v => .error (.wrongKind v.shown .text)

/-- All values as texts, in order. -/
def readTexts : List Value → Except ReadError (List String)
  | [] => .ok []
  | v :: vs => do
    let s ← readText v
    let rest ← readTexts vs
    return s :: rest

/-- An array of texts. -/
def readTextArray : Value → Except ReadError (List String)
  | .array vs => readTexts vs
  | v => .error (.wrongKind v.shown .list)

end DocProse.Toml
