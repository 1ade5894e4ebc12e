/-!
# Shortest decimals

A positive binary floating-point number stands for all reals that round to it: an interval that
reaches half way to the neighbouring numbers. The shortest decimal of the number is the one with the
fewest digits in that interval, and the nearest of those.

The ends of the interval belong to it exactly when the significand is even. Everything is exact: the
number and the ends are quarters of a unit in the last place, over a common denominator. A power of
ten is passed over only if neither neighbour of the number on its grid lies in the interval.
-/

namespace ClosureTypes.Decimal

/-- The number `significand * 2 ^ exponent`. -/
structure Binary where
  significand : Nat
  exponent : Int

/-- The significands from here on take all bits that there are for one. -/
def leastNormal : Nat := 0x10000000000000

/-- The finite positive number with the given bits, of which the sign bit is ignored. -/
def Binary.ofBits (bits : UInt64) : Binary :=
  let fraction := (bits &&& 0xfffffffffffff).toNat
  let biased := ((bits >>> 52) &&& 0x7ff).toNat
  if biased = 0 then ⟨fraction, -1074⟩ else ⟨fraction + leastNormal, (biased : Int) - 1075⟩

/-- The decimal `digits * 10 ^ exponent`. -/
structure Scaled where
  digits : Nat
  exponent : Int
  deriving DecidableEq

/-- The reals that round to a number, as fractions over one denominator. -/
structure Interval where
  low : Nat
  value : Nat
  high : Nat
  denominator : Nat
  hasEnds : Bool

namespace Binary

/-- The distance to the next smaller number is half of that to the next larger one. -/
def isBoundary (x : Binary) : Bool := x.significand = leastNormal && -1074 < x.exponent

/-- The reals that round to the number. -/
def interval (x : Binary) : Interval :=
  let scale := Nat.pow 2 (x.exponent - 2).toNat
  { low := (4 * x.significand - if x.isBoundary then 1 else 2) * scale
    value := 4 * x.significand * scale
    high := (4 * x.significand + 2) * scale
    denominator := Nat.pow 2 (2 - x.exponent).toNat
    hasEnds := x.significand % 2 = 0 }

end Binary

namespace Interval

/-- The fraction `n / denominator` lies in the interval. -/
def contains (i : Interval) (n : Nat) : Bool :=
  if i.hasEnds then i.low ≤ n && n ≤ i.high else i.low < n && n < i.high

/-- The interval in units of `10 ^ k`. -/
def inUnits (i : Interval) (k : Int) : Interval :=
  let s := Nat.pow 10 (-k).toNat
  { i with
    low := i.low * s
    value := i.value * s
    high := i.high * s
    denominator := i.denominator * Nat.pow 10 k.toNat }

/-- The whole number in the interval that is nearest to the value, if one of the value's two
neighbours lies in it. Of two equally near ones it is the even one. -/
def gridPoint? (i : Interval) : Option Nat :=
  let below := i.value / i.denominator
  let rest := i.value % i.denominator
  let nearer :=
    if 2 * rest < i.denominator then [below, below + 1]
    else if 2 * rest = i.denominator ∧ below % 2 = 0 then [below, below + 1]
    else [below + 1, below]
  nearer.find? fun n => i.contains (n * i.denominator)

/-- The decimal in the interval with the highest power of ten among `10 ^ k`, `10 ^ (k - 1)`, …,
which are `n` powers. -/
def shortest? (i : Interval) : Nat → Int → Option Scaled
  | 0, _ => none
  | n + 1, k =>
    match (i.inUnits k).gridPoint? with
    | some digits => some ⟨digits, k⟩
    | none => i.shortest? n (k - 1)

end Interval

/-- The highest power of ten that a number of double precision reaches. -/
def highestPower : Int := 308

/-- From the highest power of ten down to the last that any number of double precision needs. -/
def powerCount : Nat := 660

/-- The shortest decimal of a number of double precision. -/
def Binary.shortest? (x : Binary) : Option Scaled :=
  x.interval.shortest? powerCount highestPower

end ClosureTypes.Decimal
