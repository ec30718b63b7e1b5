/-! The exact value of a double. A finite double is a sign and a magnitude
`mantissa * 2 ^ exponent`; everything that is written about a number is decided
on these naturals, never on a rounded text. -/

namespace Lox

/-- The size of a finite double. `narrowBelow` marks the powers of two whose
lower neighbour is half as far away as the upper one. -/
structure Magnitude where
  mantissa : Nat
  exponent : Int
  narrowBelow : Bool
  deriving Repr, DecidableEq

namespace Magnitude

/-! The magnitude as a fraction of two naturals. -/

def numerator (size : Magnitude) : Nat :=
  size.mantissa * Nat.pow 2 size.exponent.toNat

def denominator (size : Magnitude) : Nat :=
  Nat.pow 2 (-size.exponent).toNat

def isWhole (size : Magnitude) : Bool :=
  size.numerator % size.denominator == 0

/-- The whole part, which is the value itself when the magnitude is whole. -/
def whole (size : Magnitude) : Nat :=
  size.numerator / size.denominator

end Magnitude

/-- What a double stands for. -/
inductive Exact where
  | notANumber
  | infinite (negative : Bool)
  | finite (negative : Bool) (size : Magnitude)
  deriving Repr, DecidableEq

namespace Exact

/-- Read the three fields of the 64-bit word. The exponent field is biased by
1075, the mantissa's own 52 places included; the field 0 holds the subnormal
numbers, which lack the leading bit, and the field 2047 what is not finite. -/
def ofBits (bits : UInt64) : Exact :=
  let negative := bits >>> 63 == 1
  let field := ((bits >>> 52) &&& 0x7FF).toNat
  let fraction := (bits &&& 0xFFFFFFFFFFFFF).toNat
  if field = 2047 then
    if fraction = 0 then .infinite negative else .notANumber
  else if field = 0 then
    .finite negative ⟨fraction, -1074, false⟩
  else
    .finite negative ⟨Nat.pow 2 52 + fraction, (field : Int) - 1075, fraction == 0 && field > 1⟩

def ofFloat (number : Float) : Exact :=
  ofBits number.toBits

/-- One is `2 ^ 52 * 2 ^ -52`, with a narrow gap below. -/
example : ofFloat 1.0 = .finite false ⟨2 ^ 52, -52, true⟩ := by decide +kernel

example : ofFloat (-0.0) = .finite true ⟨0, -1074, false⟩ := by decide +kernel

example : ofFloat (1.0 / 0.0) = .infinite false := by decide +kernel

example : ofFloat (0.0 / 0.0) = .notANumber := by decide +kernel

end Exact

end Lox
