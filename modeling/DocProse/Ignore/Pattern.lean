/-!
# Patterns for paths

A pattern is a sequence of tokens, each of which takes some bytes of a path.  A
star or a question mark takes no slash; a double star between slashes, or at an
end of the pattern next to one, takes whole components.  Brackets hold a class of
bytes, braces a choice between patterns, and a backslash takes its meaning from
the character behind it.

A pattern matches a path when its tokens can take all of it.  `Token.rests` gives
every rest that one token can leave, so `matchesAll` only has to follow all
rests through all tokens.
-/

namespace DocProse.Ignore

/-- The slash as a byte. -/
def slash : UInt8 := 0x2F

/-- A part of a pattern. -/
inductive Token where
  /-- One byte. -/
  | byte (b : UInt8)
  /-- Any byte but a slash. -/
  | any
  /-- Any bytes but slashes. -/
  | star
  /-- Whole components at the start. -/
  | leading
  /-- Whole components between slashes. -/
  | between
  /-- Everything behind a slash. -/
  | trailing
  /-- A byte in some ranges, or outside of them. -/
  | oneOf (negated : Bool) (ranges : List (UInt8 × UInt8))
  /-- One of several patterns. -/
  | choice (branches : List (List Token))
  deriving Inhabited

/-! ## Matching -/

/-- The rests behind the slashes of a path. -/
def afterSlashes : List UInt8 → List (List UInt8)
  | [] => []
  | b :: bs => if b == slash then bs :: afterSlashes bs else afterSlashes bs

/-- The rests of a path behind bytes that are no slashes. -/
def afterNames : List UInt8 → List (List UInt8)
  | [] => [[]]
  | b :: bs => if b == slash then [b :: bs] else (b :: bs) :: afterNames bs

/-- All rests of a path. -/
def tails : List UInt8 → List (List UInt8)
  | [] => [[]]
  | b :: bs => (b :: bs) :: tails bs

/-- Rests that are different from each other. -/
def distinct (rests : List (List UInt8)) : List (List UInt8) := rests.eraseDups

mutual

/-- The rests that a token can leave of a path. -/
def Token.rests (path : List UInt8) : Token → List (List UInt8)
  | .byte b =>
    match path with
    | c :: cs => if b == c then [cs] else []
    | [] => []
  | .any =>
    match path with
    | c :: cs => if c == slash then [] else [cs]
    | [] => []
  | .star => afterNames path
  | .leading => path :: afterSlashes path
  | .between =>
    match path with
    | c :: cs => if c == slash then cs :: afterSlashes cs else []
    | [] => []
  | .trailing =>
    match path with
    | c :: cs => if c == slash then tails cs else []
    | [] => []
  | .oneOf negated ranges =>
    match path with
    | c :: cs => if ranges.any (fun r => r.1 ≤ c && c ≤ r.2) != negated then [cs] else []
    | [] => []
  | .choice branches => restsOfAny path branches

/-- The rests that any of several patterns can leave of a path. -/
def restsOfAny (path : List UInt8) : List (List Token) → List (List UInt8)
  | [] => []
  | b :: bs => restsOfAll [path] b ++ restsOfAny path bs

/-- The rests that a pattern can leave of any of several paths. -/
def restsOfAll (paths : List (List UInt8)) : List Token → List (List UInt8)
  | [] => paths
  | t :: ts => restsOfAll (distinct (paths.flatMap fun path => t.rests path)) ts

end

/-- Whether a pattern takes all of a path. -/
def matchesAll (pattern : List Token) (path : String) : Bool :=
  (restsOfAll [path.toUTF8.toList] pattern).any List.isEmpty

/-! ## Reading patterns -/

/-- The bytes of a character. -/
def bytesOf (c : Char) : List UInt8 := c.toString.toUTF8.toList

/-- The ranges of bytes for a range of characters.  Longer characters take part byte by byte. -/
def byteRanges (low high : Char) : List (UInt8 × UInt8) :=
  let single (b : UInt8) := (b, b)
  if low = high then (bytesOf low).map single
  else
    let lows := bytesOf low
    let highs := bytesOf high
    lows.dropLast.map single ++ [(lows.getLastD 0, highs.headD 0)] ++ (highs.drop 1).map single

/-- The ranges of a class up to its bracket, after those already read, in reverse.  A bracket that
comes first is a member, and so is a dash at an end. -/
def classRanges (first : Bool) (read : List (UInt8 × UInt8)) :
    List Char → Option (List (UInt8 × UInt8) × List Char)
  | [] => none
  | c :: '-' :: d :: cs =>
    if c = ']' && !first then some (read.reverse, '-' :: d :: cs)
    else if d = ']' then some ((byteRanges c c ++ byteRanges '-' '-' ++ read).reverse, cs)
    else if d < c then none
    else classRanges false (byteRanges c d ++ read) cs
  | c :: cs =>
    if c = ']' && !first then some (read.reverse, cs)
    else classRanges false (byteRanges c c ++ read) cs

/-- A class behind its bracket. -/
def classToken : List Char → Option (Token × List Char)
  | c :: cs =>
    if c = '!' || c = '^' then
      (classRanges true [] cs).map fun (ranges, rest) => (.oneOf true ranges, rest)
    else (classRanges true [] (c :: cs)).map fun (ranges, rest) => (.oneOf false ranges, rest)
  | [] => none

/-- A choice that is being read: the tokens before it and its complete branches, in reverse. -/
structure Choice where
  /-- The tokens before the choice, the last one first. -/
  before : List Token
  /-- The branches that are complete, the last one first. -/
  branches : List (List Token)

/-- A double star behind its stars, between a character and the rest of a pattern.  The tokens
before it are given the last one first, and so are those that come back. -/
def doubleStar (inChoice : Bool) (before : List Token) (previous : Option Char)
    (rest : List Char) : List Token × List Char :=
  let plain := (.star :: .star :: before, rest)
  match before with
  | [] =>
    match rest with
    | [] => ([.leading], [])
    | '/' :: rest => ([.leading], rest)
    | _ => plain
  | last :: earlier =>
    if previous != some '/' && !(inChoice && (previous == some ',' || previous == some '\x7b')) then
      plain
    else
      let replace (new : Token) : List Token :=
        match last with
        | .leading => .leading :: earlier
        | .trailing => .trailing :: earlier
        | _ => new :: earlier
      match rest with
      | [] => (replace .trailing, [])
      | '/' :: rest => (replace .between, rest)
      | c :: _ =>
        if inChoice && (c = ',' || c = '\x7d') then (replace .trailing, rest) else plain

/-- The tokens of a pattern, after those already read, the last one first, inside of choices.  A
bracket without its partner stands for itself; a brace without its partner is an error. -/
def tokens (choices : List Choice) (read : List Token) (previous : Option Char) :
    Nat → List Char → Option (List Token)
  | 0, _ => none
  | _ + 1, [] => if choices.isEmpty then some read.reverse else none
  | fuel + 1, c :: cs =>
    let literal (c : Char) := ((bytesOf c).map Token.byte).reverse ++ read
    if c = '?' then tokens choices (.any :: read) (some c) fuel cs
    else if c = '*' then
      match cs with
      | '*' :: rest =>
        let (read, after) := doubleStar (!choices.isEmpty) read previous rest
        let previous := if after.length < rest.length then '/' else '*'
        tokens choices read (some previous) fuel after
      | _ => tokens choices (.star :: read) (some c) fuel cs
    else if c = '[' then
      match classToken cs with
      | some (t, rest) => tokens choices (t :: read) (some ']') fuel rest
      | none => tokens choices (literal c) (some c) fuel cs
    else if c = '\x7b' then tokens (⟨read, []⟩ :: choices) [] (some c) fuel cs
    else if c = '\x7d' then
      match choices with
      | [] => none
      | ⟨before, branches⟩ :: choices =>
        let t := Token.choice (read.reverse :: branches).reverse
        tokens choices (t :: before) (some c) fuel cs
    else if c = ',' then
      match choices with
      | [] => tokens [] (literal c) (some c) fuel cs
      | ⟨before, branches⟩ :: choices =>
        tokens (⟨before, read.reverse :: branches⟩ :: choices) [] (some c) fuel cs
    else if c = '\\' then
      match cs with
      | [] => none
      | d :: rest => tokens choices (literal d) (some d) fuel rest
    else tokens choices (literal c) (some c) fuel cs

/-- The tokens of a pattern, if it is well formed. -/
def parsePattern (cs : List Char) : Option (List Token) := tokens [] [] none (cs.length + 1) cs

end DocProse.Ignore
