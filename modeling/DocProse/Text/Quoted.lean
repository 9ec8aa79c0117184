import DocProse.Text.Printable

/-!
# Quoted texts

How messages show a text: in double quotes, with a backslash before quotes and
backslashes, the usual letters for a null, a tabulator, a line feed and a
carriage return, and the code point in braces for what would not show by itself.
-/

namespace DocProse.Text

/-- A character by its code point. -/
def escapeCodePoint (c : Char) : List Char :=
  ['\\', 'u', '\x7b'] ++ Nat.toDigits 16 c.toNat ++ ['\x7d']

/-- A character inside a quoted text. -/
def quoteChar (c : Char) : List Char :=
  match c with
  | '\x00' => ['\\', '0']
  | '\t' => ['\\', 't']
  | '\n' => ['\\', 'n']
  | '\r' => ['\\', 'r']
  | '"' => ['\\', '"']
  | '\\' => ['\\', '\\']
  | c => if extendsGrapheme c || isUnprintable c then escapeCodePoint c else [c]

/-- A text in quotes. -/
def quoted (s : String) : String := String.ofList ('"' :: s.toList.flatMap quoteChar ++ ['"'])

end DocProse.Text
