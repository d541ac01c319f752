import NetProbe.Decimal.Binary
set_option autoImplicit false

/-! # The shortest decimal that reads back

For a positive binary fraction, the decimals that round to it form an interval. Among the grids of
decimals with one digit, two digits and so on, the first that has a point in the interval gives the
shortest text; of two such points the nearer one is taken. Everything is exact arithmetic on
natural numbers: values are compared after both sides are brought to whole numbers. -/

namespace NetProbe

/-- A decimal `digits · 10 ^ exponent`. -/
structure Decimal where
  digits : Nat
  exponent : Int
deriving DecidableEq, Repr

namespace Decimal

/-- The quotient `a / b` as numerator and denominator. -/
structure Quotient where
  num : Nat
  den : Nat

/-- The quotient `n · 2 ^ q · 10 ^ (- e)`. -/
def Quotient.scaled (n : Nat) (q e : Int) : Quotient where
  num := n * Nat.pow 2 q.toNat * Nat.pow 10 (-e).toNat
  den := Nat.pow 2 (-q).toNat * Nat.pow 10 e.toNat

/-- Whether the whole number `d`, in units of `10 ^ e`, lies among the numbers that round to
    `m · 2 ^ q`. All values are in units of a quarter of `2 ^ q`. -/
def roundsTo (x : Binary) (e : Int) (d : Nat) : Bool :=
  let m := x.significand
  let low := Quotient.scaled (4 * m - if x.atBoundary then 1 else 2) (x.exponent - 2) e
  let high := Quotient.scaled (4 * m + 2) (x.exponent - 2) e
  if m % 2 == 0 then low.num ≤ d * low.den && d * high.den ≤ high.num
  else low.num < d * low.den && d * high.den < high.num

/-- The point of the grid with unit `10 ^ e` that rounds to `x` and is nearest to it, if one does;
    of two equally near points the even one. -/
def nearestOnGrid (x : Binary) (e : Int) : Option Nat :=
  let v := Quotient.scaled x.significand x.exponent e
  let below := v.num / v.den
  let above := below + 1
  let below? := roundsTo x e below
  let above? := roundsTo x e above
  if below? && above? then
    let distBelow := v.num - below * v.den
    let distAbove := above * v.den - v.num
    if distBelow < distAbove then some below
    else if distAbove < distBelow then some above
    else if below % 2 == 0 then some below else some above
  else if below? then some below
  else if above? then some above
  else none

/-- The number of decimal digits of the whole part of a quotient that is at least one. -/
def digitCount (n : Nat) : Nat :=
  (Nat.toDigits 10 n).length

/-- The exponent `k` with `10 ^ k ≤ m · 2 ^ q < 10 ^ (k + 1)`, for a positive `m`. -/
def leadingExponent (x : Binary) : Int :=
  let v := Quotient.scaled x.significand x.exponent 0
  if v.den ≤ v.num then (digitCount (v.num / v.den) : Int) - 1
  else
    let k := digitCount (v.den / v.num)
    if v.den ≤ v.num * Nat.pow 10 (k - 1) then -((k : Int) - 1) else -(k : Int)

/-- Drops the zeros at the end of the digits. -/
def stripZeros (fuel : Nat) (d : Decimal) : Decimal :=
  match fuel with
  | 0 => d
  | fuel + 1 =>
    if d.digits % 10 == 0 && d.digits != 0 then
      stripZeros fuel ⟨d.digits / 10, d.exponent + 1⟩
    else d

/-- The shortest decimal that reads back as `x`, for a positive finite `x`. -/
def shortest (x : Binary) : Decimal :=
  let k := leadingExponent x
  let found := (List.range 17).findSome? fun (n : Nat) =>
    let e := k - (n : Int)
    (nearestOnGrid x e).map fun d => ⟨d, e⟩
  stripZeros 20 (found.getD ⟨0, 0⟩)

end Decimal

end NetProbe
