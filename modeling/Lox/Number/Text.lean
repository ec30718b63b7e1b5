import Lox.Number.Shortest
/-! How numbers are written. A whole number can be written out exactly, digit by
digit; any other number is written as its shortest decimal. The texts below
differ in whether a point follows a whole number, in the sign of zero, and in
whether very large and very small numbers get an exponent. -/

namespace Lox

namespace Decimal

def zeros (count : Nat) : String :=
  String.ofList (List.replicate count '0')

/-- Write all places, without an exponent and, for a whole number, without a point. -/
def positional (decimal : Decimal) : String :=
  let digits := Nat.repr decimal.digits
  let point := (digits.length : Int) + decimal.exponent
  if 0 ≤ decimal.exponent then
    digits ++ zeros decimal.exponent.toNat
  else if 0 < point then
    String.ofList (digits.toList.take point.toNat) ++ "." ++
      String.ofList (digits.toList.drop point.toNat)
  else
    "0." ++ zeros (-point).toNat ++ digits

example : positional ⟨12345, -2⟩ = "123.45" ∧ positional ⟨1, -7⟩ = "0.0000001" ∧
    positional ⟨1, 23⟩ = "100000000000000000000000" := by decide +kernel

/-- Write one leading digit, the others after a point, and the exponent with its sign. -/
def scientific (decimal : Decimal) : String :=
  let digits := Nat.repr decimal.digits
  let power := (digits.length : Int) - 1 + decimal.exponent
  let lead := String.ofList (digits.toList.take 1)
  let others := String.ofList (digits.toList.drop 1)
  lead ++ (if others.isEmpty then "" else "." ++ others) ++
    (if power < 0 then "e-" else "e+") ++ Nat.repr power.natAbs

example : scientific ⟨11, 58⟩ = "1.1e+59" ∧ scientific ⟨1, -6⟩ = "1e-6" := by decide +kernel

/-- Exponents of the leading digit from -5 to 15 are written with all places, and
such a text always has a point; the others are written with an exponent. -/
def pointed (decimal : Decimal) : String :=
  let power := ((Nat.repr decimal.digits).length : Int) - 1 + decimal.exponent
  if -5 ≤ power ∧ power < 16 then
    if 0 ≤ decimal.exponent then decimal.positional ++ ".0" else decimal.positional
  else
    decimal.scientific

end Decimal

namespace Number

def sign (negative : Bool) : String :=
  if negative then "-" else ""

/-- The shortest text that reads back, all places written; of two shortest
decimals that are equally near the upper one. -/
def plainText (number : Float) : String :=
  match Exact.ofFloat number with
  | .notANumber => "NaN"
  | .infinite negative => sign negative ++ "inf"
  | .finite negative size => sign negative ++ (Decimal.shortest .up size).positional

/-- A whole number as all of its digits followed by `ending`, any other number
as its plain text. Negative zero keeps its sign. -/
def wholeText (ending : String) (number : Float) : String :=
  match Exact.ofFloat number with
  | .finite negative size =>
      if size.isWhole then sign negative ++ Nat.repr size.whole ++ ending else plainText number
  | _ => plainText number

/-- What `print` writes. -/
def valueText (number : Float) : String :=
  wholeText "" number

/-- What the printed form of a tree shows. -/
def literalText (number : Float) : String :=
  wholeText ".0" number

/-- What a token shows: whole numbers below `2 ^ 63` with a point and a zero that
has no sign, all others as plain text. -/
def tokenText (number : Float) : String :=
  match Exact.ofFloat number with
  | .finite negative size =>
      if size.isWhole && size.whole < Nat.pow 2 63 then
        sign (negative && size.whole ≠ 0) ++ Nat.repr size.whole ++ ".0"
      else
        plainText number
  | _ => plainText number

/-- What a token's record holds: a number that always has a point or an exponent,
and `null` for what is not finite. Of two shortest decimals that are equally near
the even one is taken. -/
def recordText (number : Float) : String :=
  match Exact.ofFloat number with
  | .finite negative size => sign negative ++ (Decimal.shortest .even size).pointed
  | _ => "null"

example : valueText 3.0 = "3" ∧ literalText 3.0 = "3.0" ∧ valueText (-0.0) = "-0" ∧
    tokenText (-0.0) = "0.0" := by decide +kernel

example : valueText (0.1 + 0.2) = "0.30000000000000004" := by decide +kernel

/-- Above `2 ^ 63` a value shows all of its digits and a token its shortest ones. -/
example : valueText 1e23 = "99999999999999991611392" ∧
    tokenText 1e23 = "100000000000000000000000" ∧ recordText 1e23 = "1e+23" := by decide +kernel

example : recordText 0.00001 = "0.00001" ∧ recordText 0.000001 = "1e-6" ∧
    recordText 9007199254740992.0 = "9007199254740992.0" ∧ recordText 1e16 = "1e+16" := by
  decide +kernel

end Number

end Lox
