import DocProse.Decimal.Notation
import DocProse.Json.Value

/-!
# JSON text

`Json.compact` writes a value on one line without spaces, `Json.pretty` one
element or field per line, indented by two spaces per level.  Empty lists and
objects take two characters in both.  Of the characters in a text only quotes,
backslashes and controls are escaped.
-/

namespace DocProse.Json

/-- A control character by its number in four hexadecimal digits. -/
def escapeControl (c : Char) : List Char :=
  ['\\', 'u', '0', '0', Nat.digitChar (c.toNat / 16), Nat.digitChar (c.toNat % 16)]

/-- A character inside a quoted text. -/
def escapeChar (c : Char) : List Char :=
  match c with
  | '"' => ['\\', '"']
  | '\\' => ['\\', '\\']
  | '\x08' => ['\\', 'b']
  | '\x0c' => ['\\', 'f']
  | '\n' => ['\\', 'n']
  | '\r' => ['\\', 'r']
  | '\t' => ['\\', 't']
  | c => if c.toNat < 0x20 then escapeControl c else [c]

/-- A text in quotes. -/
def quote (s : String) : String :=
  String.ofList ('"' :: s.toList.flatMap escapeChar ++ ['"'])

/-- A value that holds no others. -/
def atom : Json → String
  | .null => "null"
  | .bool b => toString b
  | .int n => toString n
  | .float x => Decimal.compact x
  | .str s => quote s
  | _ => ""

mutual

/-- A value on one line. -/
def compact : Json → String
  | .arr xs => "[" ++ String.intercalate "," (compactElements xs) ++ "]"
  | .obj fs => "\x7b" ++ String.intercalate "," (compactFields fs) ++ "\x7d"
  | v => atom v

/-- The elements of a list, each on one line. -/
def compactElements : List Json → List String
  | [] => []
  | v :: vs => compact v :: compactElements vs

/-- The fields of an object, each on one line. -/
def compactFields : List (String × Json) → List String
  | [] => []
  | (k, v) :: fs => (quote k ++ ":" ++ compact v) :: compactFields fs

end

/-- The start of a line at a level. -/
def indent (level : Nat) : String := "\n" ++ String.ofList (List.replicate (2 * level) ' ')

/-- Items of a list or an object at a level, one per line, between brackets. -/
def block (level : Nat) (opening closing : String) (items : List String) : String :=
  if items.isEmpty then opening ++ closing
  else
    opening ++ indent (level + 1) ++ String.intercalate ("," ++ indent (level + 1)) items
      ++ indent level ++ closing

mutual

/-- A value whose first line stands at a level. -/
def prettyAt (level : Nat) : Json → String
  | .arr xs => block level "[" "]" (prettyElements (level + 1) xs)
  | .obj fs => block level "\x7b" "\x7d" (prettyFields (level + 1) fs)
  | v => atom v

/-- The elements of a list at a level. -/
def prettyElements (level : Nat) : List Json → List String
  | [] => []
  | v :: vs => prettyAt level v :: prettyElements level vs

/-- The fields of an object at a level. -/
def prettyFields (level : Nat) : List (String × Json) → List String
  | [] => []
  | (k, v) :: fs => (quote k ++ ": " ++ prettyAt level v) :: prettyFields level fs

end

/-- A value over several lines. -/
def pretty (v : Json) : String := prettyAt 0 v

end DocProse.Json
