import DocProse.Toml.Number
import DocProse.Toml.Table
import DocProse.Toml.Text

/-!
# Reading TOML

`Toml.parse` reads a settings text and gives the fields of the table it stands for,
or nothing if the text is malformed.  A text is a sequence of lines, and
each is blank, gives a key a value, or is a header that says to which table the
following keys belong.

Productions that nest or repeat take a bound on the number of steps, for which
twice the length of the text suffices.
-/

namespace DocProse.Toml

/-! ## Values -/

/-- A truth value. -/
def truth (cs : List Char) : Option (Value × List Char) :=
  if "true".toList.isPrefixOf cs then some (.bool true, cs.drop 4)
  else if "false".toList.isPrefixOf cs then some (.bool false, cs.drop 5)
  else none

mutual

/-- A value inside of `depth` others. -/
def value (depth : Nat) : Nat → List Char → Option (Value × List Char)
  | 0, _ => none
  | fuel + 1, cs =>
    match cs with
    | '[' :: cs =>
      if depthLimit ≤ depth + 1 then none else elements (depth + 1) [] fuel cs
    | '\x7b' :: cs =>
      if depthLimit ≤ depth + 1 then none
      else
        match skipBlanks cs with
        | '\x7d' :: rest => some (.table [], rest)
        | cs => pairs (depth + 1) .empty fuel cs
    | c :: _ =>
      if c = '"' || c = '\'' then (text fuel cs).map fun (s, rest) => (.text s, rest)
      else if c = 't' || c = 'f' then truth cs
      else number cs
    | [] => none

/-- The elements of an array up to its bracket, after those already read, in reverse. -/
def elements (depth : Nat) (read : List Value) : Nat → List Char → Option (Value × List Char)
  | 0, _ => none
  | fuel + 1, cs =>
    match skipLines false cs with
    | ']' :: rest => some (.array read.reverse, rest)
    | cs =>
      match value depth fuel cs with
      | none => none
      | some (v, rest) =>
        match skipLines false rest with
        | ',' :: rest => elements depth (v :: read) fuel rest
        | ']' :: rest => some (.array (v :: read).reverse, rest)
        | _ => none

/-- The keys and values of a table on one line up to its brace, after those already read. -/
def pairs (depth : Nat) (read : Table) : Nat → List Char → Option (Value × List Char)
  | 0, _ => none
  | fuel + 1, cs =>
    match key fuel cs with
    | some ((path, name), '=' :: rest) =>
      match value depth fuel (skipBlanks rest) with
      | none => none
      | some (v, rest) =>
        match read.addValue path name v with
        | none => none
        | some read =>
          match skipBlanks rest with
          | ',' :: rest => pairs depth read fuel rest
          | '\x7d' :: rest => some (.table read.fields, rest)
          | _ => none
    | _ => none

end

/-! ## Lines -/

/-- A text that is partly read: its table so far and the path of the table that keys belong to. -/
structure Progress where
  /-- The table of the text. -/
  root : Table
  /-- The path of the current table. -/
  current : List String

/-- A header behind its bracket. -/
def header (p : Progress) (fuel : Nat) (cs : List Char) : Option (Progress × List Char) :=
  match cs with
  | '[' :: cs =>
    match key fuel cs with
    | some ((path, name), ']' :: ']' :: rest) => do
      let root ← p.root.openArrayTable path name
      return (⟨root, path ++ [name]⟩, rest)
    | _ => none
  | cs =>
    match key fuel cs with
    | some ((path, name), ']' :: rest) => do
      let root ← p.root.openTable path name
      return (⟨root, path ++ [name]⟩, rest)
    | _ => none

/-- A key with its value. -/
def pair (p : Progress) (fuel : Nat) (cs : List Char) : Option (Progress × List Char) :=
  match key fuel cs with
  | some ((path, name), '=' :: rest) => do
    let (v, rest) ← value 0 fuel (skipBlanks rest)
    let root ← p.root.change false (·.addValue path name v) p.current
    return (⟨root, p.current⟩, rest)
  | _ => none

/-- The lines of a text. -/
def lines (p : Progress) : Nat → List Char → Option Table
  | 0, _ => none
  | fuel + 1, cs =>
    match skipBlanks cs with
    | [] => some p.root
    | '#' :: _ => (lineEnd? cs).bind (lines p fuel)
    | '\n' :: rest => lines p fuel rest
    | '\r' :: '\n' :: rest => lines p fuel rest
    | '[' :: rest => do
      let (p, rest) ← header p fuel rest
      lines p fuel (← lineEnd? rest)
    | cs => do
      let (p, rest) ← pair p fuel cs
      lines p fuel (← lineEnd? rest)

/-- The fields of the table of a text.  A byte order mark at the start is skipped. -/
def parse (text : String) : Option (List (String × Value)) :=
  let cs :=
    match text.toList with
    | '\uFEFF' :: cs => cs
    | cs => cs
  (lines ⟨.empty, []⟩ (2 * cs.length + 2) cs).map Table.fields

end DocProse.Toml
