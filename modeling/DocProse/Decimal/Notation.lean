import DocProse.Decimal.Shortest

/-!
# Notations for numbers

Two ways to write a double precision number with its shortest digits.
`positional` never uses an exponent.  `compact` uses one outside of the range
from `1e-5` up to `1e16`.  Both write a whole number with `.0` behind it, and a
zero with its sign.
-/

namespace DocProse.Decimal

/-- A run of zeros. -/
def zeros (n : Nat) : String := String.ofList (List.replicate n '0')

/-- A decimal without exponent, with at least one digit on either side of its point. -/
def Scaled.positional (d : Scaled) : String :=
  let ds := toString d.digits
  let point := ds.length + d.exponent
  if 0 ≤ d.exponent then ds ++ zeros d.exponent.toNat ++ ".0"
  else if 0 < point then
    String.ofList (ds.toList.take point.toNat) ++ "." ++ String.ofList (ds.toList.drop point.toNat)
  else "0." ++ zeros (-point).toNat ++ ds

/-- A decimal with one digit before its point and an exponent. -/
def Scaled.scientific (d : Scaled) : String :=
  let ds := toString d.digits
  let power := toString (ds.length + d.exponent - 1)
  match ds.toList with
  | [c] => c.toString ++ "e" ++ power
  | c :: cs => c.toString ++ "." ++ String.ofList cs ++ "e" ++ power
  | [] => power

/-- The sign bit of a number. -/
def isNegative (x : Float) : Bool := x.toBits >>> 63 != 0

/-- A number with its sign, its magnitude written by `write`.  The words stand for no number. -/
def withSign (write : Scaled → String) (x : Float) : String :=
  if x.isNaN then "NaN"
  else
    let magnitude :=
      if x.isInf then "inf"
      else if x == 0 then "0.0"
      else ((shortest x).map write).getD ""
    if isNegative x then "-" ++ magnitude else magnitude

/-- A number without exponent. -/
def positional (x : Float) : String := withSign Scaled.positional x

/-- A number with an exponent if it is very large or very small. -/
def compact (x : Float) : String :=
  withSign (fun d =>
    let point := (toString d.digits).length + d.exponent
    if -5 < point && point ≤ 16 then d.positional else d.scientific) x

end DocProse.Decimal
