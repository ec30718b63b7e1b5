import Lox.Number.Text
import Lox.Table
import Lox.Tree
/-! Values. Nil, booleans, numbers and strings are plain; functions, classes and
instances are references, which stand for something that a machine has made and
are equal only to themselves. -/

namespace Lox

abbrev FunctionId := Nat
abbrev ClassId := Nat
abbrev ObjectId := Nat

/-- The functions that need no declaration. -/
inductive Native where
  | clock
  deriving Repr, DecidableEq

namespace Native

def name : Native → String
  | clock => "clock"

def arity : Native → Nat
  | clock => 0

def all : List Native := [clock]

end Native

inductive Value where
  | nil
  | bool (value : Bool)
  | number (value : Float)
  | string (value : String)
  | native (native : Native)
  | function (id : FunctionId)
  | classRef (id : ClassId)
  | object (id : ObjectId)
  deriving Repr, DecidableEq

namespace Value

/-- Only `nil` and `false` do not hold. -/
def isTruthy : Value → Bool
  | nil => false
  | bool value => value
  | _ => true

/-- Values of different sorts are never equal. Numbers are compared as numbers, so
the two zeros are equal and a number that is not a number is not equal to itself. -/
def equals : Value → Value → Bool
  | nil, nil => true
  | bool left, bool right => left == right
  | number left, number right => left == right
  | string left, string right => left == right
  | native left, native right => left == right
  | function left, function right => left == right
  | classRef left, classRef right => left == right
  | object left, object right => left == right
  | _, _ => false

example : equals (number 0.0) (number (-0.0)) = true ∧
    equals (number (0.0 / 0.0)) (number (0.0 / 0.0)) = false ∧
    equals (number 1.0) (string "1") = false := by decide +kernel

def ofLiteral : Literal → Value
  | .nil => nil
  | .bool value => bool value
  | .number value => number value
  | .string value => string value

end Value

end Lox
