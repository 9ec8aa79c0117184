/-!
# Shortest decimals

A double precision number other than zero is `m * 2 ^ q` for natural `m` and
integral `q`.  The reals that round to it form an interval around it: half-way to
each neighbour, ends included exactly when `m` is even.  `shortest` finds the
decimal with the fewest digits in this interval and, among those with that many
digits, the one nearest to the number, an even last digit winning a tie.

It tries one digit, then two, up to seventeen.  On each grid only the two
neighbours of the number are tested: when any point of the grid lies in the
interval, one of these does.  All of it is exact arithmetic on naturals.
-/

namespace DocProse.Decimal

/-- A positive decimal `digits * 10 ^ exponent`. -/
structure Scaled where
  /-- The digits, read as a number. -/
  digits : Nat
  /-- The power of ten of the last digit. -/
  exponent : Int
  deriving DecidableEq, Repr, Inhabited

/-- A fraction with the bounds of the reals that round to it, over a common denominator. -/
structure Rounding where
  /-- The number times `denominator`. -/
  value : Nat
  /-- The lower bound times `denominator`. -/
  low : Nat
  /-- The upper bound times `denominator`. -/
  high : Nat
  /-- The common denominator. -/
  denominator : Nat
  /-- Whether the bounds round to the number as well. -/
  closed : Bool

/-- The interval of `m * 2 ^ q`.  At a power of two the lower neighbour is half as far. -/
def Rounding.ofBinary (m : Nat) (q : Int) (powerOfTwo : Bool) : Rounding :=
  let up := Nat.pow 2 (q - 2).toNat
  { value := 4 * m * up, low := (4 * m - if powerOfTwo then 1 else 2) * up,
    high := (4 * m + 2) * up, denominator := Nat.pow 2 (2 - q).toNat, closed := m % 2 == 0 }

/-- The number of decimal digits, one for zero. -/
def digitCount (n : Nat) : Nat := (Nat.toDigits 10 n).length

/-- The power of ten just above the number: the place of its first digit, from the point. -/
def Rounding.magnitude (r : Rounding) : Int :=
  if r.denominator ≤ r.value then digitCount (r.value / r.denominator)
  else 1 - (digitCount ((r.denominator - 1) / r.value) : Int)

/-- The decimal with `n` digits nearest to the number, if one rounds to it. -/
def Rounding.onGrid (r : Rounding) (n : Nat) : Option Scaled :=
  let e := r.magnitude - n
  let up := Nat.pow 10 (-e).toNat
  let unit := r.denominator * Nat.pow 10 e.toNat
  let inside (d : Nat) : Bool :=
    if r.closed then r.low * up ≤ d * unit && d * unit ≤ r.high * up
    else r.low * up < d * unit && d * unit < r.high * up
  let below := r.value * up / unit
  let above := below + 1
  match inside below, inside above with
  | false, false => none
  | true, false => some ⟨below, e⟩
  | false, true => some ⟨above, e⟩
  | true, true =>
    let gapBelow := r.value * up - below * unit
    let gapAbove := above * unit - r.value * up
    if gapBelow < gapAbove || (gapBelow == gapAbove && below % 2 == 0) then some ⟨below, e⟩
    else some ⟨above, e⟩

/-- The first grid from `n` digits on, of `fuel` many, that has a decimal for the number. -/
def Rounding.firstGrid (r : Rounding) (n : Nat) : Nat → Option Scaled
  | 0 => none
  | fuel + 1 => (r.onGrid n).or (r.firstGrid (n + 1) fuel)

/-- A decimal without zeros at its end, of which it drops at most `fuel`. -/
def Scaled.dropZeros (d : Scaled) : Nat → Scaled
  | 0 => d
  | fuel + 1 =>
    if d.digits % 10 == 0 then Scaled.dropZeros ⟨d.digits / 10, d.exponent + 1⟩ fuel else d

/-- The number of doubles from one power of two up to the next. -/
def perOctave : Nat := 0x10000000000000

/-- The shortest decimal that rounds to the magnitude of a finite number other than zero. -/
def shortest (x : Float) : Option Scaled :=
  let bits := x.toBits.toNat
  let fraction : Nat := bits % perOctave
  let biased : Nat := bits / perOctave % 2048
  let r :=
    if biased == 0 then Rounding.ofBinary fraction (-1074) false
    else
      Rounding.ofBinary (perOctave + fraction) ((biased : Int) - 1075)
        (fraction == 0 && 1 < biased)
  (r.firstGrid 1 17).map (·.dropZeros 17)

end DocProse.Decimal
