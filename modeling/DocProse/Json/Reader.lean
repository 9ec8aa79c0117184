import DocProse.Json.Number

/-!
# Reading JSON text

`Json.parse` reads one value with blanks around it.  Each production is a
function from the text that is left to a value and the text after it.  Lists and
objects nest, so these productions take a bound on the number of steps.  Twice
the length of the text suffices, because of two steps in a row one at least takes
a character.
-/

namespace DocProse.Json

/-- A text without the blanks it starts with. -/
def skipBlanks (cs : List Char) : List Char :=
  cs.dropWhile fun c => c == ' ' || c == '\t' || c == '\n' || c == '\r'

/-- The digits a text starts with, at least one. -/
def digits (cs : List Char) : Option (List Char × List Char) :=
  let ds := cs.takeWhile Char.isDigit
  if ds.isEmpty then none else some (ds, cs.dropWhile Char.isDigit)

/-- The digits behind a point, if there is a point. -/
def fraction : List Char → Option (Option (List Char) × List Char)
  | '.' :: cs => (digits cs).map fun (ds, rest) => (some ds, rest)
  | cs => some (none, cs)

/-- A power of ten, if there is one. -/
def exponent : List Char → Option (Option Int × List Char)
  | c :: cs =>
    if c == 'e' || c == 'E' then
      let (negative, ds) :=
        match cs with
        | '-' :: ds => (true, ds)
        | '+' :: ds => (false, ds)
        | ds => (false, ds)
      (digits ds).map fun (ds, rest) =>
        let n := (ds.foldl (fun n c => n * 10 + digitValue c) 0 : Nat)
        (some (if negative then -(n : Int) else n), rest)
    else some (none, c :: cs)
  | [] => some (none, [])

/-- A number. -/
def number (cs : List Char) : Option (Json × List Char) := do
  let (negative, cs) :=
    match cs with
    | '-' :: rest => (true, rest)
    | rest => (false, rest)
  let (whole, cs) ← digits cs
  if 1 < whole.length && whole.head? == some '0' then none
  let (fraction, cs) ← fraction cs
  let (exponent, cs) ← exponent cs
  let value ← NumberText.value? { negative, whole, fraction, exponent }
  return (value, cs)

/-- The value of a hexadecimal digit. -/
def hexDigit? (c : Char) : Option Nat :=
  if c.isDigit then some (c.toNat - '0'.toNat)
  else if 'a' ≤ c && c ≤ 'f' then some (c.toNat - 'a'.toNat + 10)
  else if 'A' ≤ c && c ≤ 'F' then some (c.toNat - 'A'.toNat + 10)
  else none

/-- The value of hexadecimal digits. -/
def hexValue? (cs : List Char) : Option Nat :=
  cs.foldl (fun n c => do return (← n) * 16 + (← hexDigit? c)) (some 0)

/-- The character of a code point. -/
def codePoint? (n : Nat) : Option Char := if n.isValidChar then some (Char.ofNat n) else none

/-- The character that an escape stands for, without its backslash.  Two escapes of four digits
give a character outside of the first plane. -/
def escaped : List Char → Option (Char × List Char)
  | '"' :: cs => some ('"', cs)
  | '\\' :: cs => some ('\\', cs)
  | '/' :: cs => some ('/', cs)
  | 'b' :: cs => some ('\x08', cs)
  | 'f' :: cs => some ('\x0c', cs)
  | 'n' :: cs => some ('\n', cs)
  | 'r' :: cs => some ('\r', cs)
  | 't' :: cs => some ('\t', cs)
  | 'u' :: cs => do
    let n ← hexValue? (cs.take 4)
    let rest := cs.drop 4
    if 0xD800 ≤ n && n < 0xDC00 then
      let low ← hexValue? ((rest.drop 2).take 4)
      if rest.take 2 == ['\\', 'u'] && 0xDC00 ≤ low && low < 0xE000 then
        let c ← codePoint? (0x10000 + (n - 0xD800) * 0x400 + (low - 0xDC00))
        return (c, rest.drop 6)
      else none
    else return (← codePoint? n, rest)
  | _ => none

/-- The characters up to the closing quote, after those already read, in reverse. -/
def quoted (read : List Char) : Nat → List Char → Option (String × List Char)
  | 0, _ => none
  | _ + 1, [] => none
  | _ + 1, '"' :: cs => some (String.ofList read.reverse, cs)
  | fuel + 1, '\\' :: cs =>
    match escaped cs with
    | some (c, rest) => quoted (c :: read) fuel rest
    | none => none
  | fuel + 1, c :: cs => if c.toNat < 0x20 then none else quoted (c :: read) fuel cs

/-- A word that stands for a value. -/
def word (cs : List Char) : Option (Json × List Char) :=
  if "null".toList.isPrefixOf cs then some (.null, cs.drop 4)
  else if "true".toList.isPrefixOf cs then some (.bool true, cs.drop 4)
  else if "false".toList.isPrefixOf cs then some (.bool false, cs.drop 5)
  else none

mutual

/-- A value. -/
def value : Nat → List Char → Option (Json × List Char)
  | 0, _ => none
  | fuel + 1, cs =>
    match skipBlanks cs with
    | '"' :: cs => (quoted [] fuel cs).map fun (s, rest) => (.str s, rest)
    | '[' :: cs =>
      match skipBlanks cs with
      | ']' :: rest => some (.arr [], rest)
      | cs => elements [] fuel cs
    | '\x7b' :: cs =>
      match skipBlanks cs with
      | '\x7d' :: rest => some (.obj [], rest)
      | cs => members [] fuel cs
    | c :: cs => if c == '-' || c.isDigit then number (c :: cs) else word (c :: cs)
    | [] => none

/-- The elements of a list up to its bracket, after those already read, in reverse. -/
def elements (read : List Json) : Nat → List Char → Option (Json × List Char)
  | 0, _ => none
  | fuel + 1, cs =>
    match value fuel cs with
    | none => none
    | some (v, rest) =>
      match skipBlanks rest with
      | ',' :: rest => elements (v :: read) fuel rest
      | ']' :: rest => some (.arr (v :: read).reverse, rest)
      | _ => none

/-- The fields of an object up to its bracket, after those already read, in reverse. -/
def members (read : List (String × Json)) : Nat → List Char → Option (Json × List Char)
  | 0, _ => none
  | fuel + 1, cs =>
    match skipBlanks cs with
    | '"' :: cs =>
      match quoted [] fuel cs with
      | none => none
      | some (key, rest) =>
        match skipBlanks rest with
        | ':' :: rest =>
          match value fuel rest with
          | none => none
          | some (v, rest) =>
            match skipBlanks rest with
            | ',' :: rest => members ((key, v) :: read) fuel rest
            | '\x7d' :: rest => some (object ((key, v) :: read).reverse, rest)
            | _ => none
        | _ => none
    | _ => none

end

/-- The value of a text that holds nothing else. -/
def parse (text : String) : Option Json := do
  let cs := text.toList
  let (v, rest) ← value (2 * cs.length + 2) cs
  if (skipBlanks rest).isEmpty then return v else none

end DocProse.Json
