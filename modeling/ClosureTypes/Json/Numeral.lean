import ClosureTypes.Decimal.Written

/-!
# Reading JSON numbers

A number is an optional minus sign, digits without a needless leading zero, an optional fraction,
and an optional power of ten. It is an integer if it has neither fraction nor power and fits into
64 bits, and is read as a number of double precision otherwise. Of the digits only those are taken
up that fit into an unsigned 64-bit significand; later digits of the integer part count as zeros,
and those of the fraction are dropped. The significand is brought to its power of ten by
multiplying or dividing, in double precision.

`length_readNumeral_lt`: what follows a number is shorter than the number with what follows it.
-/

namespace ClosureTypes.Json

/-- A number as it was read. -/
inductive Numeral
  | integer (n : Int)
  | real (x : Float)

/-- The largest significand. -/
def maxSignificand : Nat := 0xffffffffffffffff

/-- The largest integer behind a minus sign. -/
def maxNegated : Nat := 0x8000000000000000

/-- The value of a decimal digit. -/
def digit (c : Char) : Nat := c.toNat - '0'.toNat

/-- Appends digits to a significand as long as it fits, and tells how many were taken up. -/
def absorb (significand : Nat) : List Char → Nat × Nat
  | [] => (significand, 0)
  | c :: rest =>
    if significand * 10 + digit c ≤ maxSignificand then
      let p := absorb (significand * 10 + digit c) rest
      (p.1, p.2 + 1)
    else (significand, 0)

/-- The number `10 ^ n` in double precision. -/
def tenTo (n : Nat) : Float := Float.ofScientific 1 false n

/-- The largest power of ten in double precision. -/
def maxPower : Nat := 308

/-- The number `x * 10 ^ power` in double precision, unless it is too large. Powers that are out
of reach are divided out in steps. -/
def scale (x : Float) (power : Int) : Option Float :=
  if power.natAbs ≤ maxPower then
    if 0 ≤ power then
      let y := x * tenTo power.natAbs
      if y.isInf then none else some y
    else some (x / tenTo power.natAbs)
  else if x == 0 then some x
  else if 0 ≤ power then none
  else scale (x / tenTo maxPower) (power + maxPower)
termination_by (-power).toNat
decreasing_by
  simp only [maxPower] at *
  omega

/-- The number with the given sign, digits before and after the point and power of ten. -/
def Numeral.ofParts? (negative : Bool) (whole fraction : List Char) (power? : Option Int) :
    Option Numeral :=
  let (significand, taken) := absorb 0 whole
  let dropped := whole.length - taken
  if fraction.isEmpty && power?.isNone && dropped = 0 then
    if !negative then some (.integer significand)
    else if 0 < significand ∧ significand ≤ maxNegated then some (.integer (-significand))
    else some (.real (-significand.toFloat))
  else
    let (significand, taken) := absorb significand fraction
    (scale significand.toFloat ((dropped : Int) - taken + power?.getD 0)).map fun x =>
      .real (if negative then -x else x)

/-! ## Scanning -/

/-- The leading digits, and what follows them. -/
def readDigits (cs : List Char) : List Char × List Char :=
  (cs.takeWhile Char.isDigit, cs.dropWhile Char.isDigit)

theorem length_readDigits_le (cs : List Char) : (readDigits cs).2.length ≤ cs.length :=
  (List.dropWhile_suffix _).length_le

theorem readDigits_append (cs : List Char) : (readDigits cs).1 ++ (readDigits cs).2 = cs :=
  List.takeWhile_append_dropWhile

/-- The digits before the point: a lone zero, or digits that do not begin with one. -/
def readWhole (cs : List Char) : Option (List Char × List Char) :=
  match readDigits cs with
  | ([], _) => none
  | ('0' :: _ :: _, _) => none
  | (whole, rest) => some (whole, rest)

/-- The digits after the point, if there is one. -/
def readFraction : List Char → Option (List Char × List Char)
  | '.' :: rest =>
    match readDigits rest with
    | ([], _) => none
    | (fraction, rest) => some (fraction, rest)
  | cs => some ([], cs)

/-- Whether the sign before the digits of a power of ten is a minus, and what follows it. -/
def readSign : List Char → Bool × List Char
  | '+' :: rest => (false, rest)
  | '-' :: rest => (true, rest)
  | cs => (false, cs)

/-- The power of ten with the given digits. -/
def powerOf (negative : Bool) (digits : List Char) : Int :=
  let n := digits.foldl (fun n c => n * 10 + digit c) 0
  if negative then -n else n

/-- The power of ten after its digits were marked to begin. -/
def readPowerDigits (cs : List Char) : Option (Option Int × List Char) :=
  match readDigits (readSign cs).2 with
  | ([], _) => none
  | (digits, rest) => some (some (powerOf (readSign cs).1 digits), rest)

/-- The power of ten, if there is one. -/
def readPower : List Char → Option (Option Int × List Char)
  | 'e' :: rest => readPowerDigits rest
  | 'E' :: rest => readPowerDigits rest
  | cs => some (none, cs)

/-- The number without its sign. -/
def readUnsigned (negative : Bool) (cs : List Char) : Option (Numeral × List Char) := do
  let (whole, rest) ← readWhole cs
  let (fraction, rest) ← readFraction rest
  let (power?, rest) ← readPower rest
  let n ← Numeral.ofParts? negative whole fraction power?
  return (n, rest)

/-- The number at the beginning, and what follows it. -/
def readNumeral : List Char → Option (Numeral × List Char)
  | '-' :: rest => readUnsigned true rest
  | cs => readUnsigned false cs

theorem length_readWhole_lt {cs whole rest : List Char} (h : readWhole cs = some (whole, rest)) :
    rest.length < cs.length := by
  have ha := congrArg List.length (readDigits_append cs)
  rw [List.length_append] at ha
  unfold readWhole at h
  split at h
  · simp at h
  · simp at h
  · next w r h0 _ hw =>
    simp only [Option.some.injEq, Prod.mk.injEq] at h
    obtain ⟨rfl, rfl⟩ := h
    rw [hw] at ha
    have := List.length_pos_iff.2 h0
    simp only at ha
    omega

theorem length_readFraction_le {cs fraction rest : List Char}
    (h : readFraction cs = some (fraction, rest)) : rest.length ≤ cs.length := by
  unfold readFraction at h
  split at h
  · next tail =>
    have hl := length_readDigits_le tail
    split at h
    · simp at h
    · next hd =>
      simp only [Option.some.injEq, Prod.mk.injEq] at h
      obtain ⟨-, rfl⟩ := h
      rw [hd] at hl
      exact Nat.le_succ_of_le hl
  · simp only [Option.some.injEq, Prod.mk.injEq] at h
    obtain ⟨-, rfl⟩ := h
    exact Nat.le_refl _

theorem length_readSign_le (cs : List Char) : (readSign cs).2.length ≤ cs.length := by
  unfold readSign
  split <;> simp

theorem length_readPowerDigits_le {cs rest : List Char} {power? : Option Int}
    (h : readPowerDigits cs = some (power?, rest)) : rest.length ≤ cs.length := by
  have hl := Nat.le_trans (length_readDigits_le (readSign cs).2) (length_readSign_le cs)
  unfold readPowerDigits at h
  split at h
  · simp at h
  · next hd =>
    simp only [Option.some.injEq, Prod.mk.injEq] at h
    obtain ⟨-, rfl⟩ := h
    rw [hd] at hl
    exact hl

theorem length_readPower_le {cs rest : List Char} {power? : Option Int}
    (h : readPower cs = some (power?, rest)) : rest.length ≤ cs.length := by
  unfold readPower at h
  split at h
  · exact Nat.le_succ_of_le (length_readPowerDigits_le h)
  · exact Nat.le_succ_of_le (length_readPowerDigits_le h)
  · simp only [Option.some.injEq, Prod.mk.injEq] at h
    obtain ⟨-, rfl⟩ := h
    exact Nat.le_refl _

theorem length_readUnsigned_lt {negative : Bool} {cs rest : List Char} {n : Numeral}
    (h : readUnsigned negative cs = some (n, rest)) : rest.length < cs.length := by
  simp only [readUnsigned, Option.bind_eq_bind, Option.bind_eq_some_iff, Option.pure_def,
    Option.some.injEq, Prod.mk.injEq, Prod.exists] at h
  obtain ⟨_, _, hw, _, _, hf, _, _, hp, _, _, rfl, rfl⟩ := h
  have h1 := length_readWhole_lt hw
  have h2 := length_readFraction_le hf
  have h3 := length_readPower_le hp
  omega

theorem length_readNumeral_lt {cs rest : List Char} {n : Numeral}
    (h : readNumeral cs = some (n, rest)) : rest.length < cs.length := by
  unfold readNumeral at h
  split at h
  · exact Nat.lt_succ_of_lt (length_readUnsigned_lt h)
  · exact length_readUnsigned_lt h

end ClosureTypes.Json
