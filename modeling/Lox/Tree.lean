import Lox.Token
/-! Syntax trees. Names, operators and the tokens that errors are blamed on are
kept as tokens. Every occurrence of a name that can be local has a number of its
own, under which its scope distance is recorded. -/

namespace Lox

abbrev OccurrenceId := Nat

inductive Literal where
  | nil
  | bool (value : Bool)
  | number (value : Float)
  | string (value : String)
  deriving Repr, DecidableEq

inductive Expr where
  | literal (value : Literal)
  | group (inner : Expr)
  | unary (operator : Token) (right : Expr)
  | binary (left : Expr) (operator : Token) (right : Expr)
  | logical (left : Expr) (operator : Token) (right : Expr)
  | read (id : OccurrenceId) (name : Token)
  | assign (id : OccurrenceId) (name : Token) (value : Expr)
  | call (callee : Expr) (paren : Token) (arguments : List Expr)
  | get (object : Expr) (name : Token)
  | set (object : Expr) (name : Token) (value : Expr)
  | this (id : OccurrenceId) (keyword : Token)
  | super (id : OccurrenceId) (keyword : Token) (method : Token)
  deriving Repr

mutual
inductive Stmt where
  | expression (expr : Expr)
  | print (expr : Expr)
  | var (name : Token) (initial : Option Expr)
  | block (body : List Stmt)
  | conditional (condition : Expr) (thenBranch : Stmt) (elseBranch : Option Stmt)
  | loop (condition : Expr) (body : Stmt)
  | function (routine : Routine)
  | returns (keyword : Token) (value : Option Expr)
  | classDecl (name : Token) (superclass : Option Expr) (methods : List Routine)
  deriving Repr

/-- A function or a method, as it is declared. -/
inductive Routine where
  | mk (name : Token) (parameters : List Token) (body : List Stmt)
  deriving Repr
end

namespace Routine

def name : Routine → Token
  | mk name _ _ => name

def parameters : Routine → List Token
  | mk _ parameters _ => parameters

def body : Routine → List Stmt
  | mk _ _ body => body

def arity (routine : Routine) : Nat :=
  routine.parameters.length

end Routine

namespace Expr

/-- The assignment to what an expression denotes, if it denotes a place: a
variable or a property. -/
def assignment? (target value : Expr) : Option Expr :=
  match target with
  | read id name => some (assign id name value)
  | get object name => some (set object name value)
  | _ => none

end Expr

namespace Stmt

/-- A loop with a head of three parts is a loop inside a block: the block holds
the initializer, and the increment follows the body. A missing condition holds. -/
def forLoop (initializer : Option Stmt) (condition : Option Expr) (increment : Option Expr)
    (body : Stmt) : Stmt :=
  let repeated :=
    match increment with
    | some step => block [body, expression step]
    | none => body
  let whole := loop (condition.getD (.literal (.bool true))) repeated
  match initializer with
  | some first => block [first, whole]
  | none => whole

end Stmt

/-! ## Likeness

Trees are alike when they have the same shape and the same occurrence numbers,
their tokens are alike and their literals are equal as values, so that the two
zeros are alike and a number that is not a number is like nothing. -/

def Literal.alike : Literal → Literal → Bool
  | nil, nil => true
  | bool left, bool right => left == right
  | number left, number right => left == right
  | string left, string right => left == right
  | _, _ => false

mutual
def Expr.alike : Expr → Expr → Bool
  | .literal left, .literal right => left.alike right
  | .group left, .group right => left.alike right
  | .unary operator right, .unary operator' right' =>
      operator.alike operator' && right.alike right'
  | .binary left operator right, .binary left' operator' right' =>
      left.alike left' && operator.alike operator' && right.alike right'
  | .logical left operator right, .logical left' operator' right' =>
      left.alike left' && operator.alike operator' && right.alike right'
  | .read id name, .read id' name' => id == id' && name.alike name'
  | .assign id name value, .assign id' name' value' =>
      id == id' && name.alike name' && value.alike value'
  | .call callee paren arguments, .call callee' paren' arguments' =>
      callee.alike callee' && paren.alike paren' && Expr.allAlike arguments arguments'
  | .get object name, .get object' name' => object.alike object' && name.alike name'
  | .set object name value, .set object' name' value' =>
      object.alike object' && name.alike name' && value.alike value'
  | .this id keyword, .this id' keyword' => id == id' && keyword.alike keyword'
  | .super id keyword method, .super id' keyword' method' =>
      id == id' && keyword.alike keyword' && method.alike method'
  | _, _ => false

def Expr.allAlike : List Expr → List Expr → Bool
  | [], [] => true
  | left :: lefts, right :: rights => left.alike right && Expr.allAlike lefts rights
  | _, _ => false
end

def Expr.alike? : Option Expr → Option Expr → Bool
  | none, none => true
  | some left, some right => left.alike right
  | _, _ => false

def Token.allAlike : List Token → List Token → Bool
  | [], [] => true
  | left :: lefts, right :: rights => left.alike right && Token.allAlike lefts rights
  | _, _ => false

mutual
def Stmt.alike : Stmt → Stmt → Bool
  | .expression left, .expression right => left.alike right
  | .print left, .print right => left.alike right
  | .var name initial, .var name' initial' =>
      name.alike name' && Expr.alike? initial initial'
  | .block body, .block body' => Stmt.allAlike body body'
  | .conditional condition thenBranch none, .conditional condition' thenBranch' none =>
      condition.alike condition' && thenBranch.alike thenBranch'
  | .conditional condition thenBranch (some elseBranch),
      .conditional condition' thenBranch' (some elseBranch') =>
      condition.alike condition' && thenBranch.alike thenBranch' &&
        elseBranch.alike elseBranch'
  | .loop condition body, .loop condition' body' =>
      condition.alike condition' && body.alike body'
  | .function routine, .function routine' => routine.alike routine'
  | .returns keyword value, .returns keyword' value' =>
      keyword.alike keyword' && Expr.alike? value value'
  | .classDecl name superclass methods, .classDecl name' superclass' methods' =>
      name.alike name' && Expr.alike? superclass superclass' &&
        Routine.allAlike methods methods'
  | _, _ => false

def Stmt.allAlike : List Stmt → List Stmt → Bool
  | [], [] => true
  | left :: lefts, right :: rights => left.alike right && Stmt.allAlike lefts rights
  | _, _ => false

def Routine.alike : Routine → Routine → Bool
  | .mk name parameters body, .mk name' parameters' body' =>
      name.alike name' && Token.allAlike parameters parameters' && Stmt.allAlike body body'

def Routine.allAlike : List Routine → List Routine → Bool
  | [], [] => true
  | left :: lefts, right :: rights => left.alike right && Routine.allAlike lefts rights
  | _, _ => false
end

end Lox
