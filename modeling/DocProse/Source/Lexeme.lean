import DocProse.Text.Blank

/-!
# Lexemes

How far the lexemes of a source text reach.  Each function takes the text behind
the first character or characters of a lexeme, by which it is known, and gives
the number of further characters it has.  A lexeme that has to be closed and is
not has no length.
-/

namespace DocProse.Source

/-! ## Comments -/

/-- The characters that end a comment which runs to the end of its line. -/
def endsLine (c : Char) : Bool := c == '\n' || c == '\r' || c == '\u2028' || c == '\u2029'

/-- The characters of a line that are left. -/
def lineRest (cs : List Char) : Nat := (cs.takeWhile (!endsLine ·)).length

/-- The characters up to the first star with a slash behind it, both included. -/
def blockRest : List Char → Option Nat
  | [] => none
  | '*' :: '/' :: _ => some 2
  | _ :: cs => (blockRest cs).map (· + 1)

/-- The characters of a comment that opens with two characters, the second of which is given. -/
def commentRest (second : Char) (cs : List Char) : Option Nat :=
  if second = '/' then some (lineRest cs + 1)
  else if second = '*' then (blockRest cs).map (· + 1)
  else none

/-- The characters behind a slash that make it the start of a comment. -/
def commentAfterSlash : List Char → Option Nat
  | second :: cs => commentRest second cs
  | [] => none

/-! ## Literals -/

/-- The characters of a quoted literal up to its closing quote or to the end of the line.  A
backslash takes the character behind it along, and a line break counts as one. -/
def quotedRest (quote : Char) : List Char → Nat
  | [] => 0
  | '\\' :: '\r' :: '\n' :: cs => quotedRest quote cs + 3
  | '\\' :: _ :: cs => quotedRest quote cs + 2
  | c :: cs =>
    if c = quote then 1
    else if c = '\n' || c = '\r' then 0
    else quotedRest quote cs + 1

/-- The characters of a regular expression behind its first slash, up to the closing one, which
is on the same line.  A slash in brackets does not close it. -/
def regexRest (inBrackets : Bool) : List Char → Option Nat
  | [] => none
  | '\\' :: c :: cs => if c = '\n' then none else (regexRest inBrackets cs).map (· + 2)
  | c :: cs =>
    if c = '\n' then none
    else if inBrackets then (regexRest (c != ']') cs).map (· + 1)
    else if c = '/' then some 1
    else (regexRest (c == '[') cs).map (· + 1)

/-! ## Words -/

/-- The characters of names, key words and numbers, escapes in names included. -/
def isWordChar (c : Char) : Bool :=
  c.isAlphanum || c == '_' || c == '$' || c == '#' || c == '\\'
    || (0x80 ≤ c.toNat && !Text.isBlank c && c != '\uFEFF')

/-- The word a text starts with.  A number may have points, and an escape in a name may have its
digits in braces. -/
def wordOf (isNumber inBraces : Bool) : List Char → List Char
  | '\\' :: 'u' :: '\x7b' :: cs => '\\' :: 'u' :: '\x7b' :: wordOf isNumber true cs
  | c :: cs =>
    if isWordChar c || (isNumber && c == '.') then c :: wordOf isNumber inBraces cs
    else if inBraces && c == '\x7d' then c :: wordOf isNumber false cs
    else []
  | [] => []

/-- Words after which an operand follows. -/
def operatorWords : List String :=
  ["return", "typeof", "void", "delete", "throw", "new", "in", "instanceof", "case", "await",
    "yield"]

/-- Words after which a statement follows. -/
def statementWords : List String := ["else", "do", "try", "finally", "default"]

/-- Words after which a condition or the head of a loop stands in parentheses. -/
def controlWords : List String := ["if", "while", "for", "with"]

/-- Words that start a function or class. -/
def valueWords : List String := ["function", "class"]

end DocProse.Source
