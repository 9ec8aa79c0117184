import DocProse.Source.Lexeme

/-!
# Markup ahead

A less-than sign where an operand is expected opens a markup element or a list of
type parameters.  It opens an element when an opening tag follows, and the tag
either closes itself or has a closing tag of the same name later in the text.
`opensElement` decides this by looking ahead.
-/

namespace DocProse.Source

/-! ## Skipping what may stand between -/

/-- A text without the blanks and comments it starts with.  Each step takes a character. -/
def skipTrivia (cs : List Char) : List Char :=
  match cs with
  | [] => []
  | c :: rest =>
    if Text.isBlank c then skipTrivia rest
    else if c = '/' then
      match commentAfterSlash rest with
      | some n => skipTrivia (rest.drop n)
      | none => c :: rest
    else c :: rest
termination_by cs.length
decreasing_by all_goals (simp only [List.length_drop, List.length_cons]; omega)

/-- Where a character behind an opening brace stands. -/
inductive Inside where
  /-- In code. -/
  | code
  /-- In a literal with this quote. -/
  | literal (quote : Char)
  /-- In a comment up to the end of the line. -/
  | line
  /-- In a comment up to a star and a slash. -/
  | block

/-- What follows the brace that closes `depth` further ones. -/
def skipBraces (depth : Nat) : Inside → List Char → List Char
  | _, [] => []
  | .line, c :: cs => skipBraces depth (if endsLine c then .code else .line) cs
  | .block, '*' :: '/' :: cs => skipBraces depth .code cs
  | .block, _ :: cs => skipBraces depth .block cs
  | .literal q, '\\' :: _ :: cs => skipBraces depth (.literal q) cs
  | .literal q, c :: cs =>
    skipBraces depth (if c = q || (c = '\n' && q != '\x60') then .code else .literal q) cs
  | .code, '/' :: '/' :: cs => skipBraces depth .line cs
  | .code, '/' :: '*' :: cs => skipBraces depth .block cs
  | .code, c :: cs =>
    if c = '\x7b' then skipBraces (depth + 1) .code cs
    else if c = '\x7d' then
      match depth with
      | 0 => cs
      | depth + 1 => skipBraces depth .code cs
    else if c = '"' || c = '\'' || c = '\x60' then skipBraces depth (.literal c) cs
    else skipBraces depth .code cs

/-- What follows the bracket that closes `depth` further ones, in a list of types. -/
def skipAngles (depth : Nat) : List Char → List Char
  | [] => []
  | '=' :: '>' :: cs => skipAngles depth cs
  | '<' :: cs => skipAngles (depth + 1) cs
  | '>' :: cs =>
    match depth with
    | 0 => cs
    | depth + 1 => skipAngles depth cs
  | _ :: cs => skipAngles depth cs

/-! ## Tags -/

/-- The characters of the names of elements and attributes. -/
def isTagNameChar (c : Char) : Bool := isWordChar c || c == '-' || c == '.' || c == ':'

/-- The name a text starts with, and the text behind it. -/
def tagName (cs : List Char) : List Char × List Char :=
  (cs.takeWhile isTagNameChar, cs.dropWhile isTagNameChar)

/-- Whether a closing tag with a name stands anywhere in a text. -/
def closesLater (name : List Char) : List Char → Bool
  | [] => false
  | '<' :: '/' :: cs =>
    let (found, rest) := tagName (skipTrivia cs)
    (found == name && (skipTrivia rest).head? == some '>') || closesLater name cs
  | _ :: cs => closesLater name cs

/-- How an opening tag ends. -/
inductive TagEnd where
  /-- It is the whole element. -/
  | closed
  /-- Children follow, in this text. -/
  | opened (rest : List Char)

/-- How the attributes of an opening tag end, if they are well formed.  Each attribute takes a
character at least, so the length of the text bounds the steps. -/
def attributesEnd : Nat → List Char → Option TagEnd
  | 0, _ => none
  | fuel + 1, cs =>
    match skipTrivia cs with
    | '>' :: rest => some (.opened rest)
    | '/' :: rest => if (skipTrivia rest).head? == some '>' then some .closed else none
    | '\x7b' :: rest =>
      if "...".toList.isPrefixOf (skipTrivia rest) then
        attributesEnd fuel (skipBraces 0 .code rest)
      else none
    | cs =>
      let (name, rest) := tagName cs
      if name.isEmpty then none
      else
        match skipTrivia rest with
        | '=' :: rest =>
          match skipTrivia rest with
          | '"' :: rest => attributesEnd fuel ((rest.dropWhile (· != '"')).drop 1)
          | '\'' :: rest => attributesEnd fuel ((rest.dropWhile (· != '\'')).drop 1)
          | '\x7b' :: rest => attributesEnd fuel (skipBraces 0 .code rest)
          | '<' :: rest => some (.opened rest)
          | _ => none
        | rest => attributesEnd fuel rest

/-- Whether the text behind a less-than sign goes on as a markup element. -/
def opensElement (cs : List Char) : Bool :=
  let start := skipTrivia cs
  let (name, rest) := tagName start
  let rest :=
    match name, skipTrivia rest with
    | _ :: _, '<' :: types => skipAngles 0 types
    | _, _ => rest
  let opening :=
    if name.isEmpty then
      match start with
      | '>' :: rest => some (TagEnd.opened rest)
      | _ => none
    else attributesEnd (rest.length + 1) rest
  match opening with
  | some .closed => true
  | some (.opened rest) => closesLater name rest
  | none => false

end DocProse.Source
