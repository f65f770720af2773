import PointElevation.Number.Binary

/-!
# The shortest decimal that reads back

A double precision number is written with the fewest decimal digits from which it can be read
again.  The reals that round to `m * 2 ^ u` form an interval around it, reaching half way to the
neighbour on either side and containing its ends exactly when `m` is even.  For one digit, two
digits and so on, `shortest` looks at the two neighbours of the value on the decimal grid of that
many digits and takes the first grid with a neighbour inside; of two neighbours inside it takes
the nearer, and on a tie the even one.  All comparisons are between natural numbers.
-/

namespace PointElevation.Number

/-- `digits * 10 ^ exponent`. -/
structure Decimal where
  digits : Nat
  exponent : Int
deriving DecidableEq, Repr, Inhabited

/-- Compares `a * 10 ^ i` with `b * 2 ^ j`. -/
def compareScaled (a : Nat) (i : Int) (b : Nat) (j : Int) : Ordering :=
  compare (a * Nat.pow 10 i.toNat * Nat.pow 2 (-j).toNat)
    (b * Nat.pow 2 j.toNat * Nat.pow 10 (-i).toNat)

/-- A positive finite double precision number `mantissa * 2 ^ unit`. -/
structure Positive where
  mantissa : Nat
  unit : Int
deriving DecidableEq, Repr

namespace Positive

/-- Below a power of two the next smaller number is only half as far away as the next larger one,
except at the bottom of the range, where the spacing no longer changes. -/
def narrowBelow (x : Positive) : Bool :=
  x.mantissa == Nat.pow 2 Format.double.fractionBits && x.unit > Format.double.leastUnit

/-- Whether reading the decimal gives the number: the decimal lies between the half-way points, in
quarters of the unit, or on one of them if the mantissa is even. -/
def readsBack (x : Positive) (d : Decimal) : Bool :=
  let low := if x.narrowBelow then 4 * x.mantissa - 1 else 4 * x.mantissa - 2
  let high := 4 * x.mantissa + 2
  let closed := x.mantissa % 2 == 0
  let fromLow := compareScaled d.digits d.exponent low (x.unit - 2)
  let fromHigh := compareScaled d.digits d.exponent high (x.unit - 2)
  (fromLow == .gt || (closed && fromLow == .eq)) && (fromHigh == .lt || (closed && fromHigh == .eq))

/-- The number of digits before the decimal point: the least `k` with `x < 10 ^ k`.  The product
with `1233 / 4096`, a little below the logarithm of two, is at most one off. -/
def scale (x : Positive) : Int :=
  let guess := ((x.mantissa.log2 : Int) + x.unit) * 1233 / 4096
  let fits (k : Int) : Bool := compareScaled 1 k x.mantissa x.unit == .gt
  if fits (guess - 1) then guess - 1
  else if fits guess then guess
  else if fits (guess + 1) then guess + 1
  else guess + 2

/-- The whole part of `x / 10 ^ exponent`. -/
def wholeMultiples (x : Positive) (exponent : Int) : Nat :=
  x.mantissa * Nat.pow 2 x.unit.toNat * Nat.pow 10 (-exponent).toNat
    / (Nat.pow 10 exponent.toNat * Nat.pow 2 (-x.unit).toNat)

/-- The better of the two neighbours of `x` on the grid of multiples of `10 ^ exponent`, if one of
them reads back.  Which is nearer shows in the comparison of twice the value with their sum. -/
def onGrid (x : Positive) (exponent : Int) : Option Decimal :=
  let below := x.wholeMultiples exponent
  let lower : Decimal := ⟨below, exponent⟩
  let upper : Decimal := ⟨below + 1, exponent⟩
  match x.readsBack lower, x.readsBack upper with
  | true, false => some lower
  | false, true => some upper
  | false, false => none
  | true, true =>
      match compareScaled (2 * below + 1) exponent (2 * x.mantissa) x.unit with
      | .gt => some lower
      | .lt => some upper
      | .eq => if below % 2 = 0 then some lower else some upper

/-- The exact value, as a last resort that seventeen digits make unnecessary. -/
def exactDecimal (x : Positive) : Decimal :=
  ⟨x.mantissa * Nat.pow 2 x.unit.toNat * Nat.pow 5 (-x.unit).toNat, -((-x.unit).toNat : Int)⟩

end Positive

/-- Moves factors of ten from the digits to the exponent. -/
def Decimal.stripZeros : Nat → Decimal → Decimal
  | 0, d => d
  | fuel + 1, d =>
      if d.digits ≠ 0 ∧ d.digits % 10 = 0 then stripZeros fuel ⟨d.digits / 10, d.exponent + 1⟩
      else d

/-- The decimal with the fewest digits that reads back as `x`. -/
def Positive.shortest (x : Positive) : Decimal :=
  let scale := x.scale
  let found := (List.range 17).findSome? fun n : Nat => x.onGrid (scale - (n + 1 : Nat))
  let d := found.getD x.exactDecimal
  d.stripZeros (Nat.toDigits 10 d.digits).length

end PointElevation.Number
