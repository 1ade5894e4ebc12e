import ClosureTypes.Decimal.Shortest

/-!
# Written numbers

A number of double precision is written with the digits of its shortest decimal. A point always
shows that it is no integer, unless an exponent does: numbers up to sixteen digits before the point,
or with up to four zeros after it, are written out, all others with an exponent, which always has a
sign.
-/

namespace ClosureTypes.Decimal

/-- The most digits before the point that are written out. -/
def mostPlaces : Int := 16

/-- The fewest zeros after the point that are not written out. -/
def tooManyZeros : Int := 5

/-- Zeros, `n` of them. -/
def zeros (n : Int) : String := String.ofList (List.replicate n.toNat '0')

/-- The written form of an exponent: its sign, and no more digits than it has. -/
def writtenExponent (n : Int) : String := (if n < 0 then "-" else "+") ++ toString n.natAbs

/-- The written form of a positive decimal. -/
def Scaled.written (d : Scaled) : String :=
  let digits := Nat.toDigits 10 d.digits
  let places : Int := digits.length + d.exponent
  if 0 ≤ d.exponent ∧ places ≤ mostPlaces then
    String.ofList digits ++ zeros d.exponent ++ ".0"
  else if 0 < places ∧ places ≤ mostPlaces then
    String.ofList (digits.take places.toNat) ++ "." ++ String.ofList (digits.drop places.toNat)
  else if -tooManyZeros < places ∧ places ≤ 0 then
    "0." ++ zeros (-places) ++ String.ofList digits
  else
    let fraction := digits.drop 1
    String.ofList (digits.take 1)
      ++ (if fraction.isEmpty then "" else "." ++ String.ofList fraction)
      ++ "e" ++ writtenExponent (places - 1)

/-- The written form of a finite number. -/
def written (x : Float) : String :=
  let sign := if x.toBits >>> 63 = 0 then "" else "-"
  match (Binary.ofBits x.toBits).significand, (Binary.ofBits x.toBits).shortest? with
  | 0, _ | _, none => sign ++ "0.0"
  | _, some d => sign ++ d.written

end ClosureTypes.Decimal
