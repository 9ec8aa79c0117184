/-!
# The double nearest to a decimal

`nearest` takes the digits of a decimal, read as a number, and the power of ten
of the last one.  Powers far outside of the range of doubles are decided without
computing them: a decimal from `10 ^ 310` on is infinite, one below `10 ^ -330`
is zero.
-/

namespace DocProse.Decimal

/-- The double nearest to `digits * 10 ^ power`. -/
def nearest (digits : Nat) (power : Int) : Float :=
  let size : Int := (Nat.toDigits 10 digits).length + power
  if digits = 0 || size < -330 then 0.0
  else if 310 < size then 1.0 / 0.0
  else Float.ofScientific digits (power < 0) power.natAbs

end DocProse.Decimal
