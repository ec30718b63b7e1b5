import Lox.Grammar.Cursor
/-! The grammar, read in place. What is read from a row that ends with a token for it is what
is read from a list of tokens; the constructs stand here in the same order. -/

namespace Lox

namespace Row

open Moving

/-! ## Expressions -/

/-- A method of the superclass, after the word `super`. -/
def superMethod (row : Row) (keyword : Token) : Moving row Expr := do
  let _ ← expect (.mark .dot) .superDot
  let method ← expect .identifier .superMethod
  let id ← freshId
  return .super id keyword method

mutual
def expr (row : Row) : Course row Expr :=
  show Moving row Expr from do
    let target ← row |>.operation .disjunction
    match ← skip? (.mark .equal) with
    | some _ =>
        let equals := (← get).passedPlace
        let value ← row |>.expr
        reportIf (target.assignment? value).isNone .invalidTarget equals
        return (target.assignment? value).getD target
    | none => return target
partial_fixpoint

/-- Operands of the next tighter precedence with operators of this one between them. -/
def operation (row : Row) (level : Precedence) : Course row Expr :=
  show Moving row Expr from do
    let left ← row |>.operand level
    row |>.operators level left
partial_fixpoint

def operand (row : Row) (level : Precedence) : Course row Expr :=
  match level.tighter? with
  | some next => row |>.operation next
  | none => row |>.signed
partial_fixpoint

def operators (row : Row) (level : Precedence) (left : Expr) : Course row Expr :=
  show Moving row Expr from do
    if level.operators.any (← get).shows then
      let operator ← take
      let right ← row |>.operand level
      row |>.operators level (level.combine left operator right)
    else
      return left
partial_fixpoint

def signed (row : Row) : Course row Expr :=
  show Moving row Expr from do
    let cursor ← get
    if cursor.shows (.mark .bang) || cursor.shows (.mark .minus) then
      let sign ← take
      let right ← row |>.signed
      return .unary sign right
    else
      row |>.applied
partial_fixpoint

def applied (row : Row) : Course row Expr :=
  show Moving row Expr from do
    let callee ← row |>.primary
    row |>.applications callee
partial_fixpoint

def applications (row : Row) (callee : Expr) : Course row Expr :=
  show Moving row Expr from do
    match ← skip? (.mark .leftParen) with
    | some _ =>
        let found ← row |>.arguments
        row |>.applications (.call callee found.2 found.1)
    | none =>
        match ← skip? (.mark .dot) with
        | some _ =>
            let name ← expect .identifier .propertyName
            row |>.applications (.get callee name)
        | none => return callee
partial_fixpoint

def arguments (row : Row) : Course row (List Expr × Token) :=
  show Moving row (List Expr × Token) from do
    if (← get).shows (.mark .rightParen) then
      let paren ← expect (.mark .rightParen) .argumentsEnd
      return ([], paren)
    else
      row |>.argumentList []
partial_fixpoint

def argumentList (row : Row) (earlier : List Expr) : Course row (List Expr × Token) :=
  show Moving row (List Expr × Token) from do
    reportIf (decide (maximumArity ≤ earlier.length)) .tooManyArguments (← get).place
    let argument ← row |>.expr
    match ← skip? (.mark .comma) with
    | some _ => row |>.argumentList (earlier ++ [argument])
    | none =>
        let paren ← expect (.mark .rightParen) .argumentsEnd
        return (earlier ++ [argument], paren)
partial_fixpoint

/-- What starts here is told by the token in view, whether it can be taken or not. -/
def primary (row : Row) : Course row Expr :=
  show Moving row Expr from do
    let token := (← get).inView
    match token.kind with
    | .keyword .falseWord => do
        let _ ← take
        return .literal (.bool false)
    | .keyword .trueWord => do
        let _ ← take
        return .literal (.bool true)
    | .keyword .nilWord => do
        let _ ← take
        return .literal .nil
    | .number value => do
        let _ ← take
        return .literal (.number value)
    | .string contents => do
        let _ ← take
        return .literal (.string contents)
    | .keyword .thisWord => do
        let id ← freshId
        let _ ← take
        return .this id token
    | .identifier => do
        let id ← freshId
        let _ ← take
        return .read id token
    | .keyword .superWord => do
        let _ ← take
        row.superMethod token
    | .mark .leftParen => do
        let _ ← take
        let inner ← row |>.expr
        let _ ← expect (.mark .rightParen) .groupEnd
        return .group inner
    | _ => fail .expression
partial_fixpoint
end

/-! ## Statements -/

/-- An expression, unless the token that ends it comes at once. -/
def expr? (row : Row) (ending : TokenKind) : Moving row (Option Expr) := do
  if (← get).shows ending then
    return none
  else
    return some (← row.expr)

def exprStatement (row : Row) : Moving row Stmt := do
  let value ← row.expr
  let _ ← expect (.mark .semicolon) .expressionEnd
  return .expression value

/-- A variable declaration after its first word. -/
def variableStatement (row : Row) : Moving row Stmt := do
  let name ← expect .identifier .variableName
  let initial ←
    match ← skip? (.mark .equal) with
    | some _ => some <$> (show Moving row Expr from row.expr)
    | none => pure none
  let _ ← expect (.mark .semicolon) .variableEnd
  return .var name initial

def printStatement (row : Row) : Moving row Stmt := do
  let value ← row.expr
  let _ ← expect (.mark .semicolon) .printEnd
  return .print value

def returnStatement (row : Row) (keyword : Token) : Moving row Stmt := do
  let value ← row.expr? (.mark .semicolon)
  let _ ← expect (.mark .semicolon) .returnEnd
  return .returns keyword value

/-- The first of the three parts of a loop's head. -/
def forInitializer (row : Row) : Moving row (Option Stmt) := do
  match ← skip? (.mark .semicolon) with
  | some _ => return none
  | none =>
      match ← skip? (.keyword .varWord) with
      | some _ => some <$> row.variableStatement
      | none => some <$> row.exprStatement

/-- The superclass that a class declaration may name. -/
def superclass? (row : Row) : Moving row (Option Expr) := do
  match ← skip? (.mark .less) with
  | some _ =>
      let name ← expect .identifier .superclassName
      let id ← freshId
      return some (.read id name)
  | none => return none

/-- At least one more parameter after `earlier`. -/
def parameterList (row : Row) (earlier : List Token) : Moving row (List Token) := do
  reportIf (decide (maximumArity ≤ earlier.length)) .tooManyParameters (← get).place
  let parameter ← expect .identifier .parameterName
  match ← skip? (.mark .comma) with
  | some _ => row |>.parameterList (earlier ++ [parameter])
  | none => return earlier ++ [parameter]
partial_fixpoint

/-- The parameters of a body and the closing parenthesis. -/
def parameters (row : Row) : Moving row (List Token) := do
  let found ←
    if (← get).shows (.mark .rightParen) then pure [] else row.parameterList []
  let _ ← expect (.mark .rightParen) .parametersEnd
  return found

/-- The error of a declaration that cannot be read is recorded, and the cursor moves on. -/
def recovered (row : Row) : Except (Blame row) Stmt → StateT (Cursor row) Option (Option Stmt)
  | .ok statement => return some statement
  | .error blame => do
      modify fun cursor => (cursor.record blame).recover
      return none

mutual
/-- A declaration or, after an error, what is skipped in its place. -/
def declaration (row : Row) : StateT (Cursor row) Option (Option Stmt) := do
  row.recovered (← (row |>.declared).run)
partial_fixpoint

def declared (row : Row) : Moving row Stmt := do
  match ← skip? (.keyword .classWord) with
  | some _ => row |>.classDeclaration
  | none =>
      match ← skip? (.keyword .funWord) with
      | some _ => return .function (← row |>.routine .function)
      | none =>
          match ← skip? (.keyword .varWord) with
          | some _ => row.variableStatement
          | none => row |>.statement
partial_fixpoint

/-- A class declaration after its first word. -/
def classDeclaration (row : Row) : Moving row Stmt := do
  let name ← expect .identifier .className
  let superclass ← row.superclass?
  let _ ← expect (.mark .leftBrace) .classStart
  let methods ← row |>.methods
  return .classDecl name superclass methods
partial_fixpoint

/-- Methods up to the closing brace, which is taken too. -/
def methods (row : Row) : Moving row (List Routine) := do
  let cursor ← get
  if cursor.shows (.mark .rightBrace) || cursor.atEnd then
    let _ ← expect (.mark .rightBrace) .classEnd
    return []
  else
    let method ← row |>.routine .method
    let others ← row |>.methods
    return method :: others
partial_fixpoint

/-- Name, parameters and body of a function or method. -/
def routine (row : Row) (role : BodyRole) : Moving row Routine := do
  let name ← expect .identifier (.bodyName role)
  let _ ← expect (.mark .leftParen) (.parametersStart role)
  let parameters ← row.parameters
  let _ ← expect (.mark .leftBrace) (.bodyStart role)
  let body ← row |>.block
  return .mk name parameters body
partial_fixpoint

/-- Declarations up to the closing brace, which is taken too. -/
def block (row : Row) : Moving row (List Stmt) := do
  let cursor ← get
  if cursor.shows (.mark .rightBrace) || cursor.atEnd then
    let _ ← expect (.mark .rightBrace) .blockEnd
    return []
  else
    let statement? ← show Moving row (Option Stmt) from
      (do return .ok (← row |>.declaration)
        : StateT (Cursor row) Option (Except (Blame row) (Option Stmt)))
    let others ← row |>.block
    return statement?.toList ++ others
partial_fixpoint

def statement (row : Row) : Moving row Stmt := do
  match ← skip? (.keyword .forWord) with
  | some _ => row |>.forStatement
  | none =>
      match ← skip? (.keyword .ifWord) with
      | some _ => row |>.conditional
      | none =>
          match ← skip? (.keyword .whileWord) with
          | some _ => row |>.loop
          | none =>
              match ← skip? (.keyword .returnWord) with
              | some keyword => row.returnStatement keyword
              | none =>
                  match ← skip? (.mark .leftBrace) with
                  | some _ => return .block (← row |>.block)
                  | none =>
                      match ← skip? (.keyword .printWord) with
                      | some _ => row.printStatement
                      | none => row.exprStatement
partial_fixpoint

/-- A loop with a head of three parts, after its first word. -/
def forStatement (row : Row) : Moving row Stmt := do
  let _ ← expect (.mark .leftParen) .forStart
  let initializer ← row.forInitializer
  let condition ← row.expr? (.mark .semicolon)
  let _ ← expect (.mark .semicolon) .forConditionEnd
  let increment ← row.expr? (.mark .rightParen)
  let _ ← expect (.mark .rightParen) .forEnd
  let body ← row |>.statement
  return .forLoop initializer condition increment body
partial_fixpoint

/-- A conditional after its first word. -/
def conditional (row : Row) : Moving row Stmt := do
  let _ ← expect (.mark .leftParen) .ifStart
  let condition ← row.expr
  let _ ← expect (.mark .rightParen) .ifEnd
  let thenBranch ← row |>.statement
  match ← skip? (.keyword .elseWord) with
  | some _ => return .conditional condition thenBranch (some (← row |>.statement))
  | none => return .conditional condition thenBranch none
partial_fixpoint

/-- A loop after its first word. -/
def loop (row : Row) : Moving row Stmt := do
  let _ ← expect (.mark .leftParen) .whileStart
  let condition ← row.expr
  let _ ← expect (.mark .rightParen) .whileEnd
  let body ← row |>.statement
  return .loop condition body
partial_fixpoint
end

/-- The declarations of a program, in order; those that cannot be read are left out. -/
def program (row : Row) : StateT (Cursor row) Option (List Stmt) := do
  if (← get).atEnd then
    return []
  else
    let statement? ← row.declaration
    let others ← row |>.program
    return statement?.toList ++ others
partial_fixpoint

/-- The declarations of a row, and the cursor behind them; nothing if reading never ends. -/
def read (row : Row) (firstId : OccurrenceId) : Option (List Stmt × Cursor row) :=
  row.program (Cursor.start row firstId)

end Row

/-- What parsing in place yields. -/
structure ParseInPlace where
  statements : List Stmt
  nextId : OccurrenceId
  diagnostics : List Diagnostic

/-- Parse any list of tokens, whether one of them ends the input or none. -/
def parseInPlace (tokens : List Token) (firstId : OccurrenceId) : Option ParseInPlace :=
  if occupied : tokens ≠ [] then
    ((Row.ofList tokens occupied).read firstId).map fun found =>
      ⟨found.1, found.2.nextId, found.2.errors.map Blame.diagnostic⟩
  else
    some ⟨[], firstId, []⟩

end Lox
