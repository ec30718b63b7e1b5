import Lox.Tree
/-! Trees without their occurrence numbers and without the lines of their tokens. Two trees
have the same bare form exactly if they differ in nothing else. -/

namespace Lox

/-- The token on no line. -/
def Token.bare (token : Token) : Token :=
  { token with line := 0 }

theorem Token.bare_eq_iff {token other : Token} :
    token.bare = other.bare ↔ token.kind = other.kind ∧ token.lexeme = other.lexeme := by
  simp [bare]

mutual
def Expr.bare : Expr → Expr
  | .literal value => .literal value
  | .group inner => .group inner.bare
  | .unary operator right => .unary operator.bare right.bare
  | .binary left operator right => .binary left.bare operator.bare right.bare
  | .logical left operator right => .logical left.bare operator.bare right.bare
  | .read _ name => .read 0 name.bare
  | .assign _ name value => .assign 0 name.bare value.bare
  | .call callee paren arguments => .call callee.bare paren.bare (Expr.allBare arguments)
  | .get object name => .get object.bare name.bare
  | .set object name value => .set object.bare name.bare value.bare
  | .this _ keyword => .this 0 keyword.bare
  | .super _ keyword method => .super 0 keyword.bare method.bare

def Expr.allBare : List Expr → List Expr
  | [] => []
  | expr :: rest => expr.bare :: Expr.allBare rest
end

mutual
def Stmt.bare : Stmt → Stmt
  | .expression expr => .expression expr.bare
  | .print expr => .print expr.bare
  | .var name initial => .var name.bare (initial.map Expr.bare)
  | .block body => .block (Stmt.allBare body)
  | .conditional condition thenBranch none => .conditional condition.bare thenBranch.bare none
  | .conditional condition thenBranch (some elseBranch) =>
      .conditional condition.bare thenBranch.bare (some elseBranch.bare)
  | .loop condition body => .loop condition.bare body.bare
  | .function routine => .function routine.bare
  | .returns keyword value => .returns keyword.bare (value.map Expr.bare)
  | .classDecl name superclass methods =>
      .classDecl name.bare (superclass.map Expr.bare) (Routine.allBare methods)

def Stmt.allBare : List Stmt → List Stmt
  | [] => []
  | stmt :: rest => stmt.bare :: Stmt.allBare rest

def Routine.bare : Routine → Routine
  | .mk name parameters body => .mk name.bare (parameters.map Token.bare) (Stmt.allBare body)

def Routine.allBare : List Routine → List Routine
  | [] => []
  | method :: rest => method.bare :: Routine.allBare rest
end

end Lox
