import Lox.Tree
import Lox.Number.Text
/-! The printed form of a tree: every node that has parts is a list in
parentheses, its head first. Strings stand without quotes, names as they are. -/

namespace Lox

def Literal.text : Literal → String
  | nil => "nil"
  | bool true => "true"
  | bool false => "false"
  | number value => Number.literalText value
  | string value => value

mutual
def Expr.text : Expr → String
  | .literal value => value.text
  | .group inner => "(group " ++ inner.text ++ ")"
  | .unary operator right => "(" ++ operator.lexeme ++ " " ++ right.text ++ ")"
  | .binary left operator right =>
      "(" ++ operator.lexeme ++ " " ++ left.text ++ " " ++ right.text ++ ")"
  | .logical left operator right =>
      "(" ++ operator.lexeme ++ " " ++ left.text ++ " " ++ right.text ++ ")"
  | .read _ name => name.lexeme
  | .assign _ name value => "(= " ++ name.lexeme ++ " " ++ value.text ++ ")"
  | .call callee _ arguments => "(call " ++ callee.text ++ Expr.tailText arguments ++ ")"
  | .get object name => "(. " ++ object.text ++ " " ++ name.lexeme ++ ")"
  | .set object name value =>
      "(= " ++ object.text ++ "." ++ name.lexeme ++ " " ++ value.text ++ ")"
  | .this _ _ => "this"
  | .super _ _ method => "(super " ++ method.lexeme ++ ")"

/-- The expressions, each with a space in front. -/
def Expr.tailText : List Expr → String
  | [] => ""
  | expr :: rest => " " ++ expr.text ++ Expr.tailText rest
end

mutual
def Stmt.text : Stmt → String
  | .expression expr => "(; " ++ expr.text ++ ")"
  | .print expr => "(print " ++ expr.text ++ ")"
  | .var name none => "(var " ++ name.lexeme ++ ")"
  | .var name (some initial) => "(var " ++ name.lexeme ++ " " ++ initial.text ++ ")"
  | .block body => "(block" ++ Stmt.tailText body ++ ")"
  | .conditional condition thenBranch none =>
      "(if " ++ condition.text ++ " " ++ thenBranch.text ++ ")"
  | .conditional condition thenBranch (some elseBranch) =>
      "(if " ++ condition.text ++ " " ++ thenBranch.text ++ " " ++ elseBranch.text ++ ")"
  | .loop condition body => "(while " ++ condition.text ++ " " ++ body.text ++ ")"
  | .function routine => Routine.text "fun" routine
  | .returns _ none => "(return)"
  | .returns _ (some value) => "(return " ++ value.text ++ ")"
  | .classDecl name none methods =>
      "(class " ++ name.lexeme ++ Routine.methodsText methods ++ ")"
  | .classDecl name (some superclass) methods =>
      "(class " ++ name.lexeme ++ " < " ++ superclass.text ++ Routine.methodsText methods ++ ")"

def Stmt.tailText : List Stmt → String
  | [] => ""
  | stmt :: rest => " " ++ stmt.text ++ Stmt.tailText rest

def Routine.text (head : String) : Routine → String
  | .mk name parameters body =>
      "(" ++ head ++ " " ++ name.lexeme ++ " (" ++
        String.intercalate " " (parameters.map Token.lexeme) ++ ")" ++
        Stmt.tailText body ++ ")"

def Routine.methodsText : List Routine → String
  | [] => ""
  | method :: rest => " " ++ Routine.text "method" method ++ Routine.methodsText rest
end

example : Stmt.text (.forLoop none none (some (.read 0 ⟨.identifier, "i", 1⟩)) (.block [])) =
    "(while true (block (block) (; i)))" := by decide +kernel

end Lox
