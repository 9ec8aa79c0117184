import DocProse.Decimal.Nearest
import DocProse.Json.Reader
import DocProse.Toml.Value

/-!
# TOML numbers and dates

A number is an integer of 64 bits or a double.  Single underscores may stand
between digits.  A date, a time of day, or both with or without an offset are
checked against the calendar.
-/

namespace DocProse.Toml

/-! ## Digits -/

/-- Digits of a kind with single underscores between them: the digits, and what follows. -/
def digitsAfter (isDigit : Char → Bool) : List Char → List Char × List Char
  | '_' :: c :: cs =>
    if isDigit c then
      let (ds, rest) := digitsAfter isDigit cs
      (c :: ds, rest)
    else ([], '_' :: c :: cs)
  | c :: cs =>
    if isDigit c then
      let (ds, rest) := digitsAfter isDigit cs
      (c :: ds, rest)
    else ([], c :: cs)
  | [] => ([], [])

/-- Digits of a kind, at least one, the first of which no underscore precedes. -/
def digits (isDigit : Char → Bool) : List Char → Option (List Char × List Char)
  | c :: cs =>
    if isDigit c then
      let (ds, rest) := digitsAfter isDigit cs
      some (c :: ds, rest)
    else none
  | [] => none

/-- The number that digits to a base stand for. -/
def numberOf (base : Nat) (ds : List Char) : Nat :=
  ds.foldl (fun n c => n * base + (Json.hexDigit? c).getD 0) 0

/-- A sign and whether it is a minus. -/
def sign : List Char → Bool × List Char
  | '-' :: cs => (true, cs)
  | '+' :: cs => (false, cs)
  | cs => (false, cs)

/-- The digits of a whole number, of which a zero is only the first if it is the only one. -/
def wholeDigits : List Char → Option (List Char × List Char)
  | '0' :: cs => some (['0'], cs)
  | cs => digits Char.isDigit cs

/-! ## Numbers -/

/-- A whole number to a base, behind the letter of the base. -/
def based (base : Nat) (cs : List Char) : Option (Value × List Char) := do
  let (ds, rest) ← digits (fun c => (Json.hexDigit? c).any (· < base)) cs
  let n := numberOf base ds
  if n < Json.signedReach then return (.integer n, rest) else none

/-- A whole number. -/
def integer : List Char → Option (Value × List Char)
  | '0' :: 'x' :: cs => based 16 cs
  | '0' :: 'o' :: cs => based 8 cs
  | '0' :: 'b' :: cs => based 2 cs
  | cs => do
    let (negative, cs) := sign cs
    let (ds, rest) ← wholeDigits cs
    let n := numberOf 10 ds
    if n < Json.signedReach || (negative && n = Json.signedReach) then
      return (.integer (if negative then -(n : Int) else n), rest)
    else none

/-- A power of ten behind its letter, if there is one. -/
def power : List Char → Option (Option Int × List Char)
  | c :: cs =>
    if c == 'e' || c == 'E' then do
      let (negative, cs) := sign cs
      let (ds, rest) ← digits Char.isDigit cs
      let n := numberOf 10 ds
      return (some (if negative then -(n : Int) else n), rest)
    else some (none, c :: cs)
  | [] => some (none, [])

/-- A double with a point or a power of ten.  Positive ones that are too large are refused. -/
def decimal (cs : List Char) : Option (Value × List Char) := do
  let (negative, cs) := sign cs
  let (whole, rest) ← wholeDigits cs
  let (fraction, rest) ←
    match rest with
    | '.' :: rest => digits Char.isDigit rest
    | rest => some ([], rest)
  let (exponent, rest) ← power rest
  if fraction.isEmpty && exponent.isNone then none
  let x := Decimal.nearest (numberOf 10 (whole ++ fraction)) (exponent.getD 0 - fraction.length)
  if negative then return (.float (-x), rest)
  else if x.isInf then none
  else return (.float x, rest)

/-- A double that is no number or not finite. -/
def special (cs : List Char) : Option (Value × List Char) :=
  let (negative, cs) := sign cs
  let signed (x : Float) : Value := .float (if negative then -x else x)
  match cs with
  | 'i' :: 'n' :: 'f' :: rest => some (signed (1.0 / 0.0), rest)
  | 'n' :: 'a' :: 'n' :: rest => some (signed (0.0 / 0.0), rest)
  | _ => none

/-! ## Dates -/

/-- A number of so many digits, no less than the one bound and no more than the other. -/
def field (count low high : Nat) (cs : List Char) : Option (Nat × List Char) :=
  let ds := cs.take count
  let n := numberOf 10 ds
  if ds.length = count && ds.all Char.isDigit && low ≤ n && n ≤ high then some (n, cs.drop count)
  else none

/-- What follows a character. -/
def expect (c : Char) : List Char → Option (List Char)
  | d :: cs => if c = d then some cs else none
  | [] => none

/-- Whether a year has a leap day. -/
def isLeapYear (year : Nat) : Bool := year % 4 == 0 && (year % 100 != 0 || year % 400 == 0)

/-- The number of days of a month. -/
def daysOf (year month : Nat) : Nat :=
  if month = 2 then if isLeapYear year then 29 else 28
  else if [4, 6, 9, 11].contains month then 30
  else 31

/-- What follows a date. -/
def date (cs : List Char) : Option (List Char) := do
  let (year, cs) ← field 4 0 9999 cs
  let (month, cs) ← field 2 1 12 (← expect '-' cs)
  let (_, cs) ← field 2 1 (daysOf year month) (← expect '-' cs)
  return cs

/-- What follows a time of day.  A minute may have a leap second. -/
def time (cs : List Char) : Option (List Char) := do
  let (_, cs) ← field 2 0 23 cs
  let (_, cs) ← field 2 0 59 (← expect ':' cs)
  let (_, cs) ← field 2 0 60 (← expect ':' cs)
  match cs with
  | '.' :: rest =>
    let ds := rest.takeWhile Char.isDigit
    if ds.isEmpty then return cs else return rest.drop ds.length
  | cs => return cs

/-- What follows an offset from universal time, none if it is malformed. -/
def offset : List Char → Option (List Char)
  | 'Z' :: cs => some cs
  | 'z' :: cs => some cs
  | '+' :: cs => clock cs
  | '-' :: cs => clock cs
  | cs => some cs
where
  /-- What follows hours and minutes. -/
  clock (cs : List Char) : Option (List Char) := do
    let (_, cs) ← field 2 0 23 cs
    let (_, cs) ← field 2 0 59 (← expect ':' cs)
    return cs

/-- A date, a time, or both. -/
def moment (cs : List Char) : Option (Value × List Char) :=
  match date cs with
  | none => (time cs).map fun rest => (.date, rest)
  | some rest =>
    match rest with
    | c :: after =>
      if c == 'T' || c == 't' || c == ' ' then
        match (time after).bind offset with
        | some rest => some (.date, rest)
        | none => some (.date, rest)
      else some (.date, rest)
    | [] => some (.date, [])

/-- A number or a date. -/
def number (cs : List Char) : Option (Value × List Char) :=
  (moment cs).or ((decimal cs).or ((special cs).or (integer cs)))

end DocProse.Toml
