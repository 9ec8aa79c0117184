import DocProse.Json.Reader

/-!
# TOML texts and keys

Blanks, comments, quoted texts and keys.  Each function takes the text that is
left and gives what it reads with the text after it; where it takes a bound on the
number of steps, the length of the text suffices.  A control character other than
the tabulator is allowed nowhere, and a carriage return only before a line feed.
-/

namespace DocProse.Toml

/-! ## Blanks and comments -/

/-- Whether a character separates on one line. -/
def isBlank (c : Char) : Bool := c == ' ' || c == '\t'

/-- A text without the blanks it starts with. -/
def skipBlanks (cs : List Char) : List Char := cs.dropWhile isBlank

/-- Whether a character may stand in a text or a comment. -/
def isPlain (c : Char) : Bool := c == '\t' || (0x20 ≤ c.toNat && c != '\x7f')

/-- What follows a line break. -/
def newline? : List Char → Option (List Char)
  | '\n' :: cs => some cs
  | '\r' :: '\n' :: cs => some cs
  | _ => none

/-- A text without the comment it starts with, up to the end of the line. -/
def skipComment : List Char → List Char
  | '#' :: cs => cs.dropWhile isPlain
  | cs => cs

/-- What follows the end of a line, with blanks and a comment before it. -/
def lineEnd? (cs : List Char) : Option (List Char) :=
  match skipComment (skipBlanks cs) with
  | [] => some []
  | cs => newline? cs

/-- A text without the blanks, comments and line breaks it starts with. -/
def skipLines (inComment : Bool) : List Char → List Char
  | [] => []
  | '\n' :: cs => skipLines false cs
  | '\r' :: '\n' :: cs => skipLines false cs
  | c :: cs =>
    if inComment then if isPlain c then skipLines true cs else c :: cs
    else if isBlank c then skipLines false cs
    else if c = '#' then skipLines true cs
    else c :: cs

/-- A text without the blanks and line breaks it starts with. -/
def skipSpace : List Char → List Char
  | ' ' :: cs => skipSpace cs
  | '\t' :: cs => skipSpace cs
  | '\n' :: cs => skipSpace cs
  | '\r' :: '\n' :: cs => skipSpace cs
  | cs => cs

/-! ## Texts -/

/-- The character of some hexadecimal digits. -/
def codePoint? (count : Nat) (cs : List Char) : Option (Char × List Char) := do
  if cs.length < count then none
  let c ← Json.codePoint? (← Json.hexValue? (cs.take count))
  return (c, cs.drop count)

/-- The character that an escape stands for, without its backslash. -/
def escaped : List Char → Option (Char × List Char)
  | 'b' :: cs => some ('\x08', cs)
  | 't' :: cs => some ('\t', cs)
  | 'n' :: cs => some ('\n', cs)
  | 'f' :: cs => some ('\x0c', cs)
  | 'r' :: cs => some ('\r', cs)
  | '"' :: cs => some ('"', cs)
  | '\\' :: cs => some ('\\', cs)
  | 'u' :: cs => codePoint? 4 cs
  | 'U' :: cs => codePoint? 8 cs
  | _ => none

/-- The characters of a text in double quotes, after those already read, in reverse. -/
def basic (read : List Char) : Nat → List Char → Option (String × List Char)
  | 0, _ => none
  | _ + 1, [] => none
  | fuel + 1, c :: cs =>
    if c = '"' then some (String.ofList read.reverse, cs)
    else if c = '\\' then
      match escaped cs with
      | some (c, rest) => basic (c :: read) fuel rest
      | none => none
    else if isPlain c then basic (c :: read) fuel cs
    else none

/-- The characters of a text in single quotes. -/
def literal (cs : List Char) : Option (String × List Char) :=
  let inner := cs.takeWhile fun c => c != '\'' && isPlain c
  match cs.drop inner.length with
  | '\'' :: rest => some (String.ofList inner, rest)
  | _ => none

/-- What comes at a run of quotes inside a text over several lines: the quotes that belong to the
text, and whether the text ends behind the run. -/
def quoteRun (count : Nat) : Nat × Bool :=
  if count < 3 then (count, false) else (min 2 (count - 3), true)

/-- The characters of a text over several lines in quotes of a kind, after those already read, in
reverse.  Line breaks count as line feeds.  Only double quotes know escapes, and a backslash at
the end of a line takes the space behind it along. -/
def multiline (quote : Char) (read : List Char) : Nat → List Char → Option (String × List Char)
  | 0, _ => none
  | _ + 1, [] => none
  | fuel + 1, c :: cs =>
    if c = quote then
      let (kept, ends) := quoteRun ((c :: cs).takeWhile (· == quote)).length
      let read := List.replicate kept quote ++ read
      if ends then some (String.ofList read.reverse, (c :: cs).drop (kept + 3))
      else multiline quote read fuel ((c :: cs).drop kept)
    else if c = '\\' && quote = '"' then
      if (newline? (skipBlanks cs)).isSome then multiline quote read fuel (skipSpace cs)
      else
        match escaped cs with
        | some (c, rest) => multiline quote (c :: read) fuel rest
        | none => none
    else
      match newline? (c :: cs) with
      | some rest => multiline quote ('\n' :: read) fuel rest
      | none => if isPlain c then multiline quote (c :: read) fuel cs else none

/-- A text in quotes of any kind.  A line break right behind three quotes is dropped. -/
def text (fuel : Nat) : List Char → Option (String × List Char)
  | '"' :: '"' :: '"' :: cs => multiline '"' [] fuel ((newline? cs).getD cs)
  | '\'' :: '\'' :: '\'' :: cs => multiline '\'' [] fuel ((newline? cs).getD cs)
  | '"' :: cs => basic [] fuel cs
  | '\'' :: cs => literal cs
  | _ => none

/-! ## Keys -/

/-- Whether a character may stand in a key without quotes. -/
def isKeyChar (c : Char) : Bool := c.isAlphanum || c == '_' || c == '-'

/-- A key without dots. -/
def simpleKey (fuel : Nat) : List Char → Option (String × List Char)
  | '"' :: cs => basic [] fuel cs
  | '\'' :: cs => literal cs
  | cs =>
    let name := cs.takeWhile isKeyChar
    if name.isEmpty then none else some (String.ofList name, cs.drop name.length)

/-- How deep keys and values may nest. -/
def depthLimit : Nat := 80

/-- The parts of a key with dots and blanks around them, less than some number. -/
def keyParts (fuel : Nat) : Nat → List Char → Option (List String × List Char)
  | 0, _ => none
  | limit + 1, cs => do
    let (part, rest) ← simpleKey fuel (skipBlanks cs)
    match skipBlanks rest with
    | '.' :: rest => do
      let (parts, rest) ← keyParts fuel limit rest
      return (part :: parts, rest)
    | rest => return ([part], rest)

/-- A key: the parts before the last dot, and the part behind it. -/
def key (fuel : Nat) (cs : List Char) : Option ((List String × String) × List Char) := do
  let (parts, rest) ← keyParts fuel (depthLimit - 1) cs
  return ((parts.dropLast, parts.getLastD ""), rest)

end DocProse.Toml
