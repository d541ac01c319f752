set_option autoImplicit false

/-! # Binary fractions

A finite binary floating-point number of 64 bits, kept as its bit pattern so that equality is
decidable and a value can be taken apart exactly: it stands for plus or minus `m · 2 ^ q` with a
natural number `m` below `2 ^ 53`. Reading a decimal multiplies or divides a whole number by a
power of ten, each step rounded to the nearest number of this format. -/

namespace NetProbe

/-- A floating-point number of 64 bits, by its bit pattern. -/
structure Binary where
  bits : UInt64
deriving DecidableEq, Repr, Inhabited

namespace Binary

/-- Whether the sign bit is set. -/
def isNegative (x : Binary) : Bool :=
  x.bits.toNat / Nat.pow 2 63 == 1

/-- The eleven bits of the biased exponent. -/
def biasedExponent (x : Binary) : Nat :=
  x.bits.toNat / Nat.pow 2 52 % Nat.pow 2 11

/-- The fifty-two bits of the fraction. -/
def fraction (x : Binary) : Nat :=
  x.bits.toNat % Nat.pow 2 52

/-- The whole number `m` in `m · 2 ^ q`. -/
def significand (x : Binary) : Nat :=
  if x.biasedExponent = 0 then x.fraction else Nat.pow 2 52 + x.fraction

/-- The exponent `q` in `m · 2 ^ q`. -/
def exponent (x : Binary) : Int :=
  (if x.biasedExponent = 0 then 1 else (x.biasedExponent : Int)) - 1075

/-- Whether the number below is only half as far away as the number above. -/
def atBoundary (x : Binary) : Bool :=
  x.fraction == 0 && 1 < x.biasedExponent

/-- The bit pattern of a floating-point value. -/
def ofFloat (x : Float) : Binary :=
  ⟨x.toBits⟩

/-- The floating-point value of a bit pattern. -/
def toFloat (x : Binary) : Float :=
  Float.ofBits x.bits

/-- Equality of the numbers: both zeros are equal. -/
def sameNumber (x y : Binary) : Bool :=
  x.toFloat == y.toFloat

/-- The power of ten nearest to `10 ^ n`. -/
def tenTo (n : Nat) : Float :=
  Float.ofScientific 1 false n

/-- Scales by `10 ^ e`: one multiplication or division by the nearest power of ten, with steps of
    `10 ^ 308` before it for the powers that the format does not reach. `none` when the result is
    too large for the format. The number of steps is bounded by `fuel`. -/
def scale (fuel : Nat) (f : Float) (e : Int) : Option Float :=
  if e.natAbs ≤ 308 then
    if 0 ≤ e then
      let g := f * tenTo e.natAbs
      if g.isInf then none else some g
    else some (f / tenTo e.natAbs)
  else if f == 0.0 then some f
  else if 0 ≤ e then none
  else match fuel with
    | 0 => some 0.0
    | fuel + 1 => scale fuel (f / tenTo 308) (e + 308)

/-- Reads `± s · 10 ^ e` for a whole number `s` below `2 ^ 64`. `none` when the number is too large
    for the format. Four steps take every such number to zero. -/
def ofDecimal (negative : Bool) (s : UInt64) (e : Int) : Option Binary :=
  (scale 4 s.toFloat e).map fun f => ofFloat (if negative then -f else f)

/-- The zero of the given sign. -/
def zero (negative : Bool) : Binary :=
  ⟨if negative then 0x8000000000000000 else 0⟩

end Binary

end NetProbe
