import DocProse.Json.Value

/-!
# JSON numbers

A number without fraction and exponent is an integer if it fits 64 bits, signed
or unsigned.  Any other number becomes a double.  Of its digits only the leading
ones that together fit 64 bits count; a digit of the whole part that no longer
fits moves the point by one place.  The double nearest to these digits is then
multiplied or divided by one power of ten.  Numbers that are too large for a
double are refused, and minus zero is a double.
-/

namespace DocProse.Json

/-- The largest natural number of 64 bits. -/
def maxWord : Nat := 0xFFFFFFFFFFFFFFFF

/-- How far signed integers of 64 bits reach below zero; above it they reach one less far. -/
def signedReach : Nat := 0x8000000000000000

/-- The value of a decimal digit. -/
def digitValue (c : Char) : Nat := c.toNat - '0'.toNat

/-- A value with further digits as far as they fit, and the digits that are left. -/
def appendDigits (value : Nat) : List Char → Nat × List Char
  | [] => (value, [])
  | c :: cs =>
    let next := value * 10 + digitValue c
    if next ≤ maxWord then appendDigits next cs else (value, c :: cs)

/-- A power of ten that a double can hold. -/
def powerOfTen (n : Nat) : Float := Float.ofScientific 1 false n

/-- A double times a power of ten, none if that is too large. -/
def scale (x : Float) (power : Int) : Option Float :=
  if 0 ≤ power ∧ power ≤ 308 then
    let y := x * powerOfTen power.toNat
    if y.isInf then none else some y
  else if -308 ≤ power ∧ power < 0 then some (x / powerOfTen (-power).toNat)
  else if x == 0 then some x
  else if 0 ≤ power then none
  else scale (x / powerOfTen 308) (power + 308)
termination_by (-power).toNat

/-- The parts of a number as it is written. -/
structure NumberText where
  /-- Whether it has a minus sign. -/
  negative : Bool
  /-- The digits before the point. -/
  whole : List Char
  /-- The digits behind the point, if there is one. -/
  fraction : Option (List Char)
  /-- The power of ten, if it has one. -/
  exponent : Option Int

/-- The double that a number stands for. -/
def NumberText.float? (t : NumberText) : Option Float := do
  let (whole, left) := appendDigits 0 t.whole
  let fraction := t.fraction.getD []
  let (digits, unused) := appendDigits whole fraction
  let places : Int := left.length - (fraction.length - unused.length : Nat)
  let x ← scale digits.toUInt64.toFloat (places + t.exponent.getD 0)
  return if t.negative then -x else x

/-- The value of a number. -/
def NumberText.value? (t : NumberText) : Option Json :=
  let n := (t.whole.foldl (fun n c => n * 10 + digitValue c) 0 : Nat)
  if t.fraction.isNone && t.exponent.isNone && !t.negative && n ≤ maxWord then
    some (.int n)
  else if t.fraction.isNone && t.exponent.isNone && t.negative && 0 < n && n ≤ signedReach then
    some (.int (-n))
  else t.float?.map .float

end DocProse.Json
