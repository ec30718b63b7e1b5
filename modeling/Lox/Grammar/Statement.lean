import Lox.Grammar.Expression
/-! The grammar of statements and declarations. A declaration that cannot be read
is left out: its error is recorded, and reading goes on where the next statement
seems to start. -/

namespace Lox

/-! ## Recovery -/

/-- The words with which a statement or declaration can start. -/
def Token.startsStatement (token : Token) : Bool :=
  match token.kind with
  | .keyword .classWord | .keyword .funWord | .keyword .varWord | .keyword .forWord
  | .keyword .ifWord | .keyword .whileWord | .keyword .printWord | .keyword .returnWord => true
  | _ => false

/-- Skip tokens until the last one skipped is a semicolon or the next one starts
a statement. -/
def skipPast (skipped : Token) : List Token → List Token
  | [] => []
  | token :: rest =>
      if skipped.hasMark .semicolon || token.startsStatement then token :: rest
      else skipPast token rest

/-- Where reading goes on after an error; the offending token itself is skipped. -/
def recover : List Token → List Token
  | [] => []
  | offending :: rest => skipPast offending rest

theorem length_skipPast_le (skipped : Token) (rest : List Token) :
    (skipPast skipped rest).length ≤ rest.length := by
  induction rest generalizing skipped with
  | nil => exact Nat.le_refl _
  | cons token rest induction =>
      unfold skipPast
      split
      · exact Nat.le_refl _
      · exact Nat.le_trans (induction token) (Nat.le_succ _)

theorem length_recover_lt {rest : List Token} {bound : Nat} (inside : rest.length ≤ bound)
    (positive : 0 < bound) : (recover rest).length < bound := by
  cases rest with
  | nil => exact positive
  | cons offending rest =>
      have := length_skipPast_le offending rest
      simp only [recover, List.length_cons] at *
      omega

/-! ## Constructs -/

/-- A declaration that has been passed, whether it could be read or not. -/
structure Passed (input : List Token) where
  statement? : Option Stmt
  rest : Shorter input
  draft : Draft

/-- Record the error of a declaration that cannot be read, and recover. -/
def Parsed.recovered {first : Token} {others : List Token}
    (parsed : Parsed Stmt (first :: others)) : Passed (first :: others) :=
  match parsed with
  | .accept statement rest draft => ⟨some statement, rest, draft⟩
  | .reject error inside draft =>
      ⟨none, ⟨recover error.rest, length_recover_lt inside (Nat.succ_pos _)⟩, draft.report error⟩

namespace Reading

variable {input : List Token}

def expr : Reading input Expr :=
  follow fun rest draft => readExpr rest.1 draft

/-- An expression, unless the token that ends it comes at once. -/
def expr? (ending : TokenKind) : Reading input (Option Expr) := do
  if ← isNext ending then
    return none
  else
    return some (← expr)

/-- An expression and the semicolon that ends it. -/
def exprStatement : Reading input Stmt := do
  let value ← expr
  let _ ← expect (.mark .semicolon) .expressionEnd
  return .expression value

/-- A variable declaration after its first word. -/
def variableStatement : Reading input Stmt := do
  let name ← expect .identifier .variableName
  let initial ←
    match ← skip? (.mark .equal) with
    | some _ => some <$> expr
    | none => pure none
  let _ ← expect (.mark .semicolon) .variableEnd
  return .var name initial

def printStatement : Reading input Stmt := do
  let value ← expr
  let _ ← expect (.mark .semicolon) .printEnd
  return .print value

def returnStatement (keyword : Token) : Reading input Stmt := do
  let value ← expr? (.mark .semicolon)
  let _ ← expect (.mark .semicolon) .returnEnd
  return .returns keyword value

/-- The first of the three parts of a loop's head. -/
def forInitializer : Reading input (Option Stmt) := do
  match ← skip? (.mark .semicolon) with
  | some _ => return none
  | none =>
      match ← skip? (.keyword .varWord) with
      | some _ => some <$> variableStatement
      | none => some <$> exprStatement

/-- The superclass that a class declaration may name. -/
def superclass? : Reading input (Option Expr) := do
  match ← skip? (.mark .less) with
  | some _ =>
      let name ← expect .identifier .superclassName
      let id ← freshId
      return some (.read id name)
  | none => return none

end Reading

/-- At least one more parameter after `earlier`, and the closing parenthesis. A
parameter too many is reported in front of it. -/
def readParameterList (earlier : List Token) (input : List Token) (draft : Draft) :
    Parsed (List Token) input :=
  let draft :=
    if maximumArity ≤ earlier.length then draft.report ⟨.tooManyParameters, input⟩ else draft
  (expectFirst .identifier .parameterName input draft).andThen fun parameter rest draft =>
    match rest with
    | ⟨[], _⟩ => .reject ⟨.missing .parametersEnd, []⟩ (Nat.zero_le _) draft
    | ⟨token :: others, shorter⟩ =>
        if token.hasMark .comma then
          (readParameterList (earlier ++ [parameter]) others draft).within
            (.drop token others shorter)
        else if token.hasMark .rightParen then
          .accept (earlier ++ [parameter]) (.drop token others shorter) draft
        else
          .reject ⟨.missing .parametersEnd, token :: others⟩ (Nat.le_of_lt shorter) draft
termination_by input.length
decreasing_by
  simp only [List.length_cons] at shorter
  omega

/-- The parameters of a body and the closing parenthesis. -/
def readParameters (input : List Token) (draft : Draft) : Parsed (List Token) input :=
  match input with
  | [] => readParameterList [] [] draft
  | token :: others =>
      if token.hasMark .rightParen then
        .accept [] (.tail token others) draft
      else
        readParameterList [] (token :: others) draft

mutual
/-- A declaration or, after an error, what is skipped in its place. -/
def passDeclaration (first : Token) (others : List Token) (draft : Draft) :
    Passed (first :: others) :=
  (readDeclaration first others draft).recovered
termination_by (others.length + 1) * 16 + 6

def readDeclaration (first : Token) (others : List Token) (draft : Draft) :
    Parsed Stmt (first :: others) :=
  let taken : Shorter (first :: others) := .tail first others
  match first.kind with
  | .keyword .classWord => readClass (first :: others) taken draft
  | .keyword .funWord =>
      ((readRoutine .function others draft).within taken).andThen fun routine =>
        return .function routine
  | .keyword .varWord => Reading.variableStatement taken draft
  | _ => readStatement (first :: others) draft
termination_by (others.length + 1) * 16 + 5

/-- A class declaration after its first word. -/
def readClass (input : List Token) : Reading input Stmt := do
  let name ← Reading.expect .identifier .className
  let superclass ← Reading.superclass?
  let _ ← Reading.expect (.mark .leftBrace) .classStart
  let methods ← Reading.follow fun rest draft => readMethods rest.1 draft
  return .classDecl name superclass methods
termination_by input.length * 16
decreasing_by
  have := rest.2
  omega

/-- Methods up to the closing brace, which is taken too. -/
def readMethods (input : List Token) (draft : Draft) : Parsed (List Routine) input :=
  match input with
  | [] => .reject ⟨.missing .classEnd, []⟩ (Nat.le_refl _) draft
  | token :: others =>
      if token.hasMark .rightBrace then
        .accept [] (.tail token others) draft
      else
        (readRoutine .method (token :: others) draft).andThen fun method rest draft =>
          ((readMethods rest.1 draft).within rest).andThen fun methods =>
            return method :: methods
termination_by input.length * 16 + 3
decreasing_by
  · omega
  · have := rest.2
    omega

/-- Name, parameters and body of a function or method. -/
def readRoutine (role : BodyRole) (input : List Token) (draft : Draft) :
    Parsed Routine input :=
  (expectFirst .identifier (.bodyName role) input draft).andThen fun name => do
    let _ ← Reading.expect (.mark .leftParen) (.parametersStart role)
    let parameters ← Reading.follow fun rest draft => readParameters rest.1 draft
    let _ ← Reading.expect (.mark .leftBrace) (.bodyStart role)
    let body ← Reading.follow fun rest draft => readBlock rest.1 draft
    return .mk name parameters body
termination_by input.length * 16 + 2
decreasing_by
  have := rest.2
  omega

/-- Declarations up to the closing brace, which is taken too. -/
def readBlock (input : List Token) (draft : Draft) : Parsed (List Stmt) input :=
  match input with
  | [] => .reject ⟨.missing .blockEnd, []⟩ (Nat.le_refl _) draft
  | token :: others =>
      if token.hasMark .rightBrace then
        .accept [] (.tail token others) draft
      else
        match passDeclaration token others draft with
        | ⟨statement?, rest, draft⟩ =>
            ((readBlock rest.1 draft).within rest).andThen fun statements =>
              return statement?.toList ++ statements
termination_by input.length * 16 + 7
decreasing_by
  · simp only [List.length_cons]
    omega
  · have := rest.2
    omega

def readStatement (input : List Token) (draft : Draft) : Parsed Stmt input :=
  match input with
  | [] => .reject ⟨.missing .expression, []⟩ (Nat.le_refl _) draft
  | first :: others =>
      let taken : Shorter (first :: others) := .tail first others
      match first.kind with
      | .keyword .forWord => readFor (first :: others) taken draft
      | .keyword .ifWord => readConditional (first :: others) taken draft
      | .keyword .whileWord => readLoop (first :: others) taken draft
      | .keyword .returnWord => Reading.returnStatement first taken draft
      | .mark .leftBrace =>
          ((readBlock others draft).within taken).andThen fun body =>
            return .block body
      | .keyword .printWord => Reading.printStatement taken draft
      | _ =>
          (readExpr (first :: others) draft).andThen fun value => do
            let _ ← Reading.expect (.mark .semicolon) .expressionEnd
            return .expression value
termination_by input.length * 16 + 4
decreasing_by all_goals (simp only [List.length_cons]; omega)

/-- A loop with a head of three parts, after its first word. -/
def readFor (input : List Token) : Reading input Stmt := do
  let _ ← Reading.expect (.mark .leftParen) .forStart
  let initializer ← Reading.forInitializer
  let condition ← Reading.expr? (.mark .semicolon)
  let _ ← Reading.expect (.mark .semicolon) .forConditionEnd
  let increment ← Reading.expr? (.mark .rightParen)
  let _ ← Reading.expect (.mark .rightParen) .forEnd
  let body ← Reading.follow fun rest draft => readStatement rest.1 draft
  return .forLoop initializer condition increment body
termination_by input.length * 16
decreasing_by
  have := rest.2
  omega

/-- A conditional after its first word. An `else` belongs to the nearest
conditional that can take it. -/
def readConditional (input : List Token) : Reading input Stmt := do
  let _ ← Reading.expect (.mark .leftParen) .ifStart
  let condition ← Reading.expr
  let _ ← Reading.expect (.mark .rightParen) .ifEnd
  let thenBranch ← Reading.follow fun rest draft => readStatement rest.1 draft
  match ← Reading.skip? (.keyword .elseWord) with
  | some _ =>
      let elseBranch ← Reading.follow fun rest draft => readStatement rest.1 draft
      return .conditional condition thenBranch (some elseBranch)
  | none => return .conditional condition thenBranch none
termination_by input.length * 16
decreasing_by
  all_goals
    have := rest.2
    omega

/-- A loop after its first word. -/
def readLoop (input : List Token) : Reading input Stmt := do
  let _ ← Reading.expect (.mark .leftParen) .whileStart
  let condition ← Reading.expr
  let _ ← Reading.expect (.mark .rightParen) .whileEnd
  let body ← Reading.follow fun rest draft => readStatement rest.1 draft
  return .loop condition body
termination_by input.length * 16
decreasing_by
  have := rest.2
  omega
end

end Lox
