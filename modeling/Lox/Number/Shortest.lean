import Lox.Number.Magnitude
/-! The shortest decimal that reads back. The reals that round to a double form
an interval around it, from halfway to the neighbour below to halfway to the
neighbour above, both ends included exactly when the mantissa is even. Of the
decimals in this interval those with the fewest digits are wanted, and of those
the one nearest to the double. The search tries one digit, two digits and so on;
on each grid only the two points beside the double can be nearest. -/

namespace Lox

/-- The decimal `digits * 10 ^ exponent`. -/
structure Decimal where
  digits : Nat
  exponent : Int
  deriving Repr, DecidableEq

/-- Which of two equally near decimals is taken. -/
inductive Tie where
  | up
  | even
  deriving Repr, DecidableEq

namespace Decimal

/-- Compare with `bound * 2 ^ power`, by multiplying out the powers. -/
def compareBinary (decimal : Decimal) (bound : Nat) (power : Int) : Ordering :=
  compare (decimal.digits * Nat.pow 10 decimal.exponent.toNat * Nat.pow 2 (-power).toNat)
    (bound * Nat.pow 2 power.toNat * Nat.pow 10 (-decimal.exponent).toNat)

/-- The decimal lies among the reals that round to this magnitude. In quarters
of the last place the ends are `4 * mantissa - 2` and `4 * mantissa + 2`, and
the lower end is nearer where the gap below is narrow. -/
def readsBack (decimal : Decimal) (size : Magnitude) : Bool :=
  let lower := if size.narrowBelow then 4 * size.mantissa - 1 else 4 * size.mantissa - 2
  let upper := 4 * size.mantissa + 2
  let closed := size.mantissa % 2 == 0
  let toLower := decimal.compareBinary lower (size.exponent - 2)
  let toUpper := decimal.compareBinary upper (size.exponent - 2)
  (toLower == .gt || closed && toLower == .eq) && (toUpper == .lt || closed && toUpper == .eq)

/-- The number of decimal digits of a natural, at least one. -/
def countDigits (value : Nat) : Nat :=
  (Nat.toDigits 10 value).length

/-- The place of the leading digit: the least `place` with the magnitude below
`10 ^ place`, for a magnitude other than zero. -/
def leadingPlace (size : Magnitude) : Int :=
  if size.denominator ≤ size.numerator then
    (countDigits size.whole : Int)
  else
    1 - (countDigits ((size.denominator - 1) / size.numerator) : Int)

/-- The grid point at or below the magnitude, the unit being `10 ^ unit`. -/
def floorOn (size : Magnitude) (unit : Int) : Nat :=
  size.numerator * Nat.pow 10 (-unit).toNat / (size.denominator * Nat.pow 10 unit.toNat)

/-- The magnitude against the middle between a grid point and the next. -/
def compareMiddle (size : Magnitude) (unit : Int) (floor : Nat) : Ordering :=
  compare (2 * size.numerator * Nat.pow 10 (-unit).toNat)
    ((2 * floor + 1) * (size.denominator * Nat.pow 10 unit.toNat))

/-- The nearest point of the grid of `10 ^ unit` that reads back. -/
def onGrid? (tie : Tie) (size : Magnitude) (unit : Int) : Option Decimal :=
  let floor := floorOn size unit
  let lower : Decimal := ⟨floor, unit⟩
  let upper : Decimal := ⟨floor + 1, unit⟩
  match lower.readsBack size, upper.readsBack size with
  | false, false => none
  | true, false => some lower
  | false, true => some upper
  | true, true =>
      match compareMiddle size unit floor, tie with
      | .lt, _ => some lower
      | .gt, _ => some upper
      | .eq, .up => some upper
      | .eq, .even => some (if floor % 2 = 0 then lower else upper)

/-- Move trailing zeros of the digits into the exponent, at most `count` many. -/
def dropZeros : Nat → Decimal → Decimal
  | 0, decimal => decimal
  | count + 1, decimal =>
      if decimal.digits % 10 = 0 then
        dropZeros count ⟨decimal.digits / 10, decimal.exponent + 1⟩
      else
        decimal

/-- The magnitude itself, written out. -/
def exactly (size : Magnitude) : Decimal :=
  ⟨size.numerator * Nat.pow 5 (-size.exponent).toNat, min size.exponent 0⟩

/-- The shortest decimal of a magnitude. Seventeen digits are enough for every
double; were they not, the exact value would still read back. -/
def shortest (tie : Tie) (size : Magnitude) : Decimal :=
  if size.mantissa = 0 then
    ⟨0, 0⟩
  else
    let place := leadingPlace size
    match (List.range 17).findSome? fun (count : Nat) =>
        onGrid? tie size (place - 1 - (count : Int)) with
    | some decimal => dropZeros 17 decimal
    | none => exactly size

/-- A third of a unit needs sixteen digits, a tenth only one. -/
example : shortest .up ⟨6004799503160661, -54, false⟩ = ⟨3333333333333333, -16⟩ := by
  decide +kernel

example : shortest .up ⟨7205759403792794, -56, false⟩ = ⟨1, -1⟩ := by decide +kernel

/-- The power of two with exponent -25 lies in the middle of two shortest decimals. -/
example : shortest .up ⟨2 ^ 52, -77, true⟩ = ⟨29802322387695313, -24⟩ ∧
    shortest .even ⟨2 ^ 52, -77, true⟩ = ⟨29802322387695312, -24⟩ := by decide +kernel

/-- The least positive double, and a carry into the next place. -/
example : shortest .up ⟨1, -1074, false⟩ = ⟨5, -324⟩ ∧
    shortest .up ⟨2 ^ 52 + 2 ^ 51, 1, false⟩ = ⟨13510798882111488, 0⟩ := by decide +kernel

end Decimal

end Lox
