import DocProse.Dialect
import DocProse.Source.Markup

/-!
# Scanning source text

`scan` cuts a source text into pieces: each comment is one piece, and what is
between comments is any number of others.  No character is left out or taken
twice, so the places of the comments are sums of lengths.

A scan runs through *modes*.  In code, comments, literals, words and signs
follow one another; in template text, in tags and among the children of an
element only little has a meaning.  Braces lead from the other modes into code
and back, so the scan keeps a stack of what is open.

Whether a slash divides and whether a less-than sign compares depends on what
stands before it, comments and blanks aside: both do after an operand.
Otherwise the slash opens a regular expression, if that closes on its line, and
the less-than sign an element, in the dialect with markup.
-/

namespace DocProse.Source

/-! ## States -/

/-- What the last sign or word in code was. -/
inductive Before where
  /-- Nothing: the text starts here. -/
  | start
  /-- The end of a statement or the start of a block. -/
  | statement
  /-- The end of an operand. -/
  | operand
  /-- Something an operand follows. -/
  | operator
  /-- Something that an operand or a body follows: an arrow or a greater-than sign. -/
  | arrow
  /-- A point, which a name of a member follows. -/
  | point
  /-- A word that a head in parentheses follows. -/
  | control
  deriving DecidableEq, Repr, Inhabited

/-- What is open around the place of a scan, and what comes when it closes. -/
inductive Frame where
  /-- A brace of a block of statements or members. -/
  | block
  /-- A brace of an object, or of the body of a function or class that is a value. -/
  | object
  /-- A parenthesis. -/
  | group
  /-- A parenthesis that a statement follows. -/
  | head
  /-- A bracket. -/
  | bracket
  /-- Template text around code. -/
  | template
  /-- A tag, around code or around an element that is a value. -/
  | tag
  /-- The children of an element, around code or around an element. -/
  | children
  /-- Code around an element. -/
  | code
  /-- The head of a function or class that is a value, up to the brace of its body. -/
  | valueHead
  deriving DecidableEq, Repr, Inhabited

/-- How the text at the place of a scan is to be read. -/
inductive Mode where
  /-- As code. -/
  | code (before : Before)
  /-- As the text of a template. -/
  | template
  /-- As a tag, perhaps behind an equals sign. -/
  | tag (value : Bool)
  /-- As the children of an element. -/
  | children
  /-- As a closing tag. -/
  | closingTag
  deriving DecidableEq, Repr, Inhabited

/-- Where a scan stands. -/
structure State where
  /-- The dialect of the text. -/
  dialect : Dialect
  /-- How to go on. -/
  mode : Mode
  /-- What is open, the innermost first. -/
  stack : List Frame
  deriving Repr, Inhabited

namespace State

/-- The state before a text. -/
def initial (dialect : Dialect) : State := ⟨dialect, .code .start, []⟩

/-- A state in another mode. -/
def go (s : State) (mode : Mode) : State := { s with mode := mode }

/-- A state with one more thing open. -/
def enter (s : State) (frame : Frame) (mode : Mode) : State :=
  { s with mode := mode, stack := frame :: s.stack }

/-- The state behind an element. -/
def leaveElement (s : State) : State :=
  match s.stack with
  | .children :: rest => ⟨s.dialect, .children, rest⟩
  | .tag :: rest => ⟨s.dialect, .tag false, rest⟩
  | .code :: rest => ⟨s.dialect, .code .operand, rest⟩
  | _ => s.go (.code .operand)

/-- The state behind a closing brace.  What was left open inside is closed with it. -/
def closeBrace (s : State) : State := leave s.stack
where
  /-- Closes the innermost brace of a stack. -/
  leave : List Frame → State
    | .block :: rest => ⟨s.dialect, .code .statement, rest⟩
    | .object :: rest => ⟨s.dialect, .code .operand, rest⟩
    | .template :: rest => ⟨s.dialect, .template, rest⟩
    | .tag :: rest => ⟨s.dialect, .tag false, rest⟩
    | .children :: rest => ⟨s.dialect, .children, rest⟩
    | _ :: rest => leave rest
    | [] => s.go (.code .statement)

/-- The state behind a closing parenthesis. -/
def closeParen (s : State) : State :=
  match s.stack with
  | .head :: rest => ⟨s.dialect, .code .statement, rest⟩
  | .group :: rest => ⟨s.dialect, .code .operand, rest⟩
  | _ => s.go (.code .operand)

/-- The state behind a closing bracket. -/
def closeBracket (s : State) : State :=
  match s.stack with
  | .bracket :: rest => ⟨s.dialect, .code .operand, rest⟩
  | _ => s.go (.code .operand)

end State

/-! ## Steps -/

/-- A step of a scan: how many characters it takes besides the first, whether they are a
comment, and the state behind them. -/
structure Step where
  /-- The further characters. -/
  length : Nat
  /-- Whether it is a comment. -/
  isComment : Bool
  /-- Where to go on. -/
  next : State

/-- A step that takes no comment. -/
def Step.plain (length : Nat) (next : State) : Step := ⟨length, false, next⟩

/-- What a word is for what follows it. -/
def wordBefore (before : Before) (word : List Char) : Before :=
  let w := String.ofList word
  if before == .point then .operand
  else if before == .control && w == "await" then .control
  else if w == "of" then if before == .operand then .operator else .operand
  else if operatorWords.contains w then .operator
  else if statementWords.contains w then .statement
  else if controlWords.contains w then .control
  else .operand

/-- Whether a word starts a function or class that is a value: the word stands where an operand is
expected. -/
def startsValue (before : Before) (word : List Char) : Bool :=
  (before == .operator || before == .arrow) && valueWords.contains (String.ofList word)

/-- The state behind a word. -/
def afterWord (s : State) (before : Before) (word : List Char) : State :=
  if startsValue before word then s.enter .valueHead (.code .operand)
  else s.go (.code (wordBefore before word))

/-- The state behind an opening brace in code.  It opens an object where an operand is expected.
Otherwise it opens a block, and the block that is the body of a value ends an operand. -/
def openBrace (s : State) (before : Before) : State :=
  if before == .operator then s.enter .object (.code .operator)
  else
    match s.stack with
    | .valueHead :: rest => ⟨s.dialect, .code .statement, .object :: rest⟩
    | _ => s.enter .block (.code .statement)

/-- Whether the characters behind a sign make it a comment mark of another language, which is
taken as the start of a comment of its line where no operand stands before it. -/
def isForeignMark (c : Char) (cs : List Char) : Bool :=
  (c == '<' && "!--".toList.isPrefixOf cs) || (c == '-' && "->".toList.isPrefixOf cs)

/-- The characters of a line that are left, where a carriage return is one of them. -/
def foreignRest (cs : List Char) : Nat :=
  (cs.takeWhile fun c => c != '\n' && c != '\u2028' && c != '\u2029').length

/-- A sign in code. -/
def signStep (s : State) (before : Before) (c : Char) (cs : List Char) : Step :=
  let isOperand := before == .operand
  let behind (b : Before) := s.go (.code b)
  match c with
  | '"' => .plain (quotedRest '"' cs) (behind .operand)
  | '\'' => .plain (quotedRest '\'' cs) (behind .operand)
  | '\x60' => .plain 0 (s.go .template)
  | '/' =>
    if isOperand then .plain 0 (behind .operator)
    else
      match regexRest false cs with
      | some n => .plain n (behind .operand)
      | none => .plain 0 (behind .operator)
  | '(' => .plain 0 (s.enter (if before == .control then .head else .group) (.code .operator))
  | ')' => .plain 0 s.closeParen
  | '[' => .plain 0 (s.enter .bracket (.code .operator))
  | ']' => .plain 0 s.closeBracket
  | '\x7b' => .plain 0 (openBrace s before)
  | '\x7d' => .plain 0 s.closeBrace
  | '<' =>
    if s.dialect == .tsx && !isOperand && opensElement cs then
      .plain 0 (s.enter .code (.tag false))
    else .plain 0 (behind .operator)
  | '>' => .plain 0 (behind .arrow)
  | ';' => .plain 0 (behind .statement)
  | '.' => .plain 0 (behind .point)
  | '+' => if cs.head? == some '+' then .plain 1 (behind before) else .plain 0 (behind .operator)
  | '-' => if cs.head? == some '-' then .plain 1 (behind before) else .plain 0 (behind .operator)
  | '!' => if isOperand && cs.head? != some '=' then .plain 0 s else .plain 0 (behind .operator)
  | _ => .plain 0 (behind .operator)

/-- A step in code. -/
def codeStep (s : State) (before : Before) (c : Char) (cs : List Char) : Step :=
  if Text.isBlank c || c == '\uFEFF' then .plain 0 s
  else
    match if c = '/' then commentAfterSlash cs else none with
    | some n => ⟨n, true, s⟩
    | none =>
      if before == .start && c == '#' && cs.head? == some '!' then
        .plain (cs.takeWhile (· != '\n')).length s
      else if before != .operand && isForeignMark c cs then .plain (foreignRest cs) s
      else if isWordChar c then
        let word := wordOf c.isDigit false (c :: cs)
        .plain (word.length - 1) (afterWord s before word)
      else signStep s before c cs

/-- A step in the text of a template. -/
def templateStep (s : State) (c : Char) (cs : List Char) : Step :=
  match c, cs with
  | '\x60', _ => .plain 0 (s.go (.code .operand))
  | '\\', _ => .plain 1 s
  | '$', '\x7b' :: _ => .plain 1 (s.enter .template (.code .operator))
  | _, _ => .plain 0 s

/-- A step in a tag. -/
def tagStep (s : State) (value : Bool) (c : Char) (cs : List Char) : Step :=
  match c with
  | '/' =>
    match commentAfterSlash cs with
    | some n => ⟨n, true, s⟩
    | none => if cs.head? == some '>' then .plain 1 s.leaveElement else .plain 0 (s.go (.tag false))
  | '>' => .plain 0 (s.go .children)
  | '"' => .plain ((cs.takeWhile (· != '"')).length + 1) (s.go (.tag false))
  | '\'' => .plain ((cs.takeWhile (· != '\'')).length + 1) (s.go (.tag false))
  | '\x7b' => .plain 0 ((s.go (.tag false)).enter .tag (.code .operator))
  | '=' => .plain 0 (s.go (.tag true))
  | '<' =>
    if value then .plain 0 (s.enter .tag (.tag false))
    else .plain (cs.length - (skipAngles 0 cs).length) s
  | c => if Text.isBlank c then .plain 0 s else .plain 0 (s.go (.tag false))

/-- A step among the children of an element. -/
def childrenStep (s : State) (c : Char) (cs : List Char) : Step :=
  match c, cs with
  | '\x7b', _ => .plain 0 (s.enter .children (.code .operator))
  | '<', cs =>
    if (skipTrivia cs).head? == some '/' then .plain 0 (s.go .closingTag)
    else .plain 0 (s.enter .children (.tag false))
  | _, _ => .plain 0 s

/-- A step in a closing tag. -/
def closingTagStep (s : State) (c : Char) (cs : List Char) : Step :=
  match c with
  | '/' =>
    match commentAfterSlash cs with
    | some n => ⟨n, true, s⟩
    | none => .plain 0 s
  | '>' => .plain 0 s.leaveElement
  | _ => .plain 0 s

/-- One step of a scan at a character and the text behind it. -/
def step (s : State) (c : Char) (cs : List Char) : Step :=
  match s.mode with
  | .code before => codeStep s before c cs
  | .template => templateStep s c cs
  | .tag value => tagStep s value c cs
  | .children => childrenStep s c cs
  | .closingTag => closingTagStep s c cs

/-! ## Scans -/

/-- A stretch of a text. -/
structure Piece where
  /-- Whether it is a comment. -/
  isComment : Bool
  /-- Its characters. -/
  text : List Char
  deriving DecidableEq, Repr, Inhabited

/-- The pieces of a text from a state on. -/
def scanFrom (s : State) : List Char → List Piece
  | [] => []
  | c :: cs =>
    let taken := step s c cs
    ⟨taken.isComment, c :: cs.take taken.length⟩ :: scanFrom taken.next (cs.drop taken.length)
termination_by cs => cs.length
decreasing_by simp only [List.length_drop, List.length_cons]; omega

/-- The pieces of a text. -/
def scan (dialect : Dialect) (text : List Char) : List Piece := scanFrom (.initial dialect) text

end DocProse.Source
