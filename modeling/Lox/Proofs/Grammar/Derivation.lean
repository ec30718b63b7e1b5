import Lox.Grammar.Statement
/-! The grammar as a relation between tokens and trees. A phrase relates the tokens
of a construct to its tree; the two numbers beside the tree are the next free
occurrence number before and after the construct. Each rule below is one alternative
of the grammar:

    program      = declaration* ;
    declaration  = "class" NAME ("<" NAME)? "{" function* "}" | "fun" function
                 | variable | statement ;
    function     = NAME "(" (NAME ("," NAME)*)? ")" block ;
    variable     = "var" NAME ("=" expression)? ";" ;
    statement    = expression ";" | "print" expression ";" | "return" expression? ";"
                 | "for" "(" (variable | expression ";" | ";") expression? ";"
                   expression? ")" statement
                 | "if" "(" expression ")" statement ("else" statement)?
                 | "while" "(" expression ")" statement | block ;
    block        = "{" declaration* "}" ;
    expression   = (applied ".")? NAME "=" expression | disjunction ;
    disjunction  = conjunction ("or" conjunction)* ;
    conjunction  = equality ("and" equality)* ;
    equality     = comparison (("!=" | "==") comparison)* ;
    comparison   = sum ((">" | ">=" | "<" | "<=") sum)* ;
    sum          = product (("-" | "+") product)* ;
    product      = signed (("*" | "/") signed)* ;
    signed       = ("!" | "-") signed | applied ;
    applied      = primary ("(" (expression ("," expression)*)? ")" | "." NAME)* ;
    primary      = NUMBER | STRING | "true" | "false" | "nil" | "this" | NAME
                 | "(" expression ")" | "super" "." NAME ;

Repetitions that group to the left are written as left recursion. The six rows from
the disjunction to the product differ in a table only. -/

namespace Lox.Grammar

/-! ## Expressions -/

inductive Form where
  | expression
  | operation (level : Precedence)
  | signed
  | applied
  | primary
  deriving DecidableEq

/-- A row of operations: what stands between its operators, the operators, and the node of an
operation. -/
structure Tier where
  operand : Form
  operators : List TokenKind
  node : Expr → Token → Expr → Expr

/-- The six rows, the loosest first. -/
def tier : Precedence → Tier
  | .disjunction => ⟨.operation .conjunction, [.keyword .orWord], .logical⟩
  | .conjunction => ⟨.operation .equality, [.keyword .andWord], .logical⟩
  | .equality => ⟨.operation .comparison, [.mark .bangEqual, .mark .equalEqual], .binary⟩
  | .comparison => ⟨.operation .sum,
      [.mark .greater, .mark .greaterEqual, .mark .less, .mark .lessEqual], .binary⟩
  | .sum => ⟨.operation .product, [.mark .minus, .mark .plus], .binary⟩
  | .product => ⟨.signed, [.mark .star, .mark .slash], .binary⟩

/-- The value that a token writes, if it writes one. -/
def literal? (token : Token) : Option Literal :=
  match token.kind with
  | .keyword .falseWord => some (.bool false)
  | .keyword .trueWord => some (.bool true)
  | .keyword .nilWord => some .nil
  | .number value => some (.number value)
  | .string contents => some (.string contents)
  | _ => none

mutual
inductive Derives : Form → List Token → OccurrenceId → Expr → OccurrenceId → Prop
  | operation {tokens first tree next} :
      Derives (.operation .disjunction) tokens first tree next →
      Derives .expression tokens first tree next
  | assign {name equals : Token} {tokens first value next} :
      name.kind = .identifier → equals.kind = .mark .equal →
      Derives .expression tokens (first + 1) value next →
      Derives .expression (name :: equals :: tokens) first (.assign first name value) next
  | set {dot name equals : Token} {objectTokens tokens first object middle value next} :
      Derives .applied objectTokens first object middle →
      dot.kind = .mark .dot → name.kind = .identifier → equals.kind = .mark .equal →
      Derives .expression tokens middle value next →
      Derives .expression (objectTokens ++ dot :: name :: equals :: tokens) first
        (.set object name value) next
  | operand {level tokens first tree next} :
      Derives (tier level).operand tokens first tree next →
      Derives (.operation level) tokens first tree next
  | combine {level} {operator : Token} {tokens first left middle others right next} :
      Derives (.operation level) tokens first left middle →
      operator.kind ∈ (tier level).operators →
      Derives (tier level).operand others middle right next →
      Derives (.operation level) (tokens ++ operator :: others) first
        ((tier level).node left operator right) next
  | unary {sign : Token} {tokens first right next} :
      sign.kind = .mark .bang ∨ sign.kind = .mark .minus →
      Derives .signed tokens first right next →
      Derives .signed (sign :: tokens) first (.unary sign right) next
  | unsigned {tokens first tree next} :
      Derives .applied tokens first tree next → Derives .signed tokens first tree next
  | unapplied {tokens first tree next} :
      Derives .primary tokens first tree next → Derives .applied tokens first tree next
  | callEmpty {start paren : Token} {tokens first callee next} :
      Derives .applied tokens first callee next →
      start.kind = .mark .leftParen → paren.kind = .mark .rightParen →
      Derives .applied (tokens ++ [start, paren]) first (.call callee paren []) next
  | call {start paren : Token} {tokens first callee middle others arguments next} :
      Derives .applied tokens first callee middle → start.kind = .mark .leftParen →
      DerivesArguments others middle arguments next → arguments.length ≤ maximumArity →
      paren.kind = .mark .rightParen →
      Derives .applied (tokens ++ start :: (others ++ [paren])) first
        (.call callee paren arguments) next
  | get {dot name : Token} {tokens first object next} :
      Derives .applied tokens first object next →
      dot.kind = .mark .dot → name.kind = .identifier →
      Derives .applied (tokens ++ [dot, name]) first (.get object name) next
  | literal {token : Token} {value first} :
      literal? token = some value → Derives .primary [token] first (.literal value) first
  | this {keyword : Token} {first} :
      keyword.kind = .keyword .thisWord →
      Derives .primary [keyword] first (.this first keyword) (first + 1)
  | read {name : Token} {first} :
      name.kind = .identifier → Derives .primary [name] first (.read first name) (first + 1)
  | group {start finish : Token} {tokens first inner next} :
      start.kind = .mark .leftParen → Derives .expression tokens first inner next →
      finish.kind = .mark .rightParen →
      Derives .primary (start :: (tokens ++ [finish])) first (.group inner) next
  | super {keyword dot method : Token} {first} :
      keyword.kind = .keyword .superWord → dot.kind = .mark .dot →
      method.kind = .identifier →
      Derives .primary [keyword, dot, method] first (.super first keyword method) (first + 1)

/-- At least one argument; commas stand between them. -/
inductive DerivesArguments :
    List Token → OccurrenceId → List Expr → OccurrenceId → Prop
  | one {tokens first argument next} :
      Derives .expression tokens first argument next →
      DerivesArguments tokens first [argument] next
  | more {comma : Token} {tokens first argument middle others arguments next} :
      Derives .expression tokens first argument middle → comma.kind = .mark .comma →
      DerivesArguments others middle arguments next →
      DerivesArguments (tokens ++ comma :: others) first (argument :: arguments) next
end

/-! ## Parts of statements -/

inductive OptionalExpr : List Token → OccurrenceId → Option Expr → OccurrenceId → Prop
  | none {first} : OptionalExpr [] first none first
  | some {tokens first tree next} :
      Derives .expression tokens first tree next →
      OptionalExpr tokens first (some tree) next

inductive InitialValue : List Token → OccurrenceId → Option Expr → OccurrenceId → Prop
  | none {first} : InitialValue [] first none first
  | some {equals : Token} {tokens first tree next} :
      equals.kind = .mark .equal → Derives .expression tokens first tree next →
      InitialValue (equals :: tokens) first (some tree) next

inductive ExpressionStatement : List Token → OccurrenceId → Stmt → OccurrenceId → Prop
  | mk {semicolon : Token} {tokens first value next} :
      Derives .expression tokens first value next → semicolon.kind = .mark .semicolon →
      ExpressionStatement (tokens ++ [semicolon]) first (.expression value) next

inductive VariableStatement : List Token → OccurrenceId → Stmt → OccurrenceId → Prop
  | mk {word name semicolon : Token} {tokens first initial next} :
      word.kind = .keyword .varWord → name.kind = .identifier →
      InitialValue tokens first initial next → semicolon.kind = .mark .semicolon →
      VariableStatement (word :: name :: (tokens ++ [semicolon])) first
        (.var name initial) next

/-- The first of the three parts of a loop's head, with its semicolon. -/
inductive LoopInitializer : List Token → OccurrenceId → Option Stmt → OccurrenceId → Prop
  | none {semicolon : Token} {first} :
      semicolon.kind = .mark .semicolon → LoopInitializer [semicolon] first none first
  | var {tokens first initializer next} :
      VariableStatement tokens first initializer next →
      LoopInitializer tokens first (some initializer) next
  | expression {tokens first initializer next} :
      ExpressionStatement tokens first initializer next →
      LoopInitializer tokens first (some initializer) next

/-- The tree of a loop with a head of three parts. A missing condition holds. The increment stands
behind the body, in a block with it; the initializer stands in front of the loop, in a block of its
own. -/
def loopTree (initializer : Option Stmt) (condition? increment : Option Expr) (body : Stmt) :
    Stmt :=
  let condition := condition?.getD (.literal (.bool true))
  match initializer, increment with
  | none, none => .loop condition body
  | none, some step => .loop condition (.block [body, .expression step])
  | some first, none => .block [first, .loop condition body]
  | some first, some step =>
      .block [first, .loop condition (.block [body, .expression step])]

/-- At least one parameter; commas stand between them. -/
inductive ParameterNames : List Token → List Token → Prop
  | one {name : Token} : name.kind = .identifier → ParameterNames [name] [name]
  | more {name comma : Token} {tokens names} :
      name.kind = .identifier → comma.kind = .mark .comma → ParameterNames tokens names →
      ParameterNames (name :: comma :: tokens) (name :: names)

inductive Parameters : List Token → List Token → Prop
  | none : Parameters [] []
  | some {tokens names} :
      ParameterNames tokens names → names.length ≤ maximumArity → Parameters tokens names

/-- A superclass is named like a variable and counts as an occurrence of it. -/
inductive Superclass : List Token → OccurrenceId → Option Expr → OccurrenceId → Prop
  | none {first} : Superclass [] first none first
  | some {less name : Token} {first} :
      less.kind = .mark .less → name.kind = .identifier →
      Superclass [less, name] first (some (.read first name)) (first + 1)

/-! ## Statements and declarations

A statement takes an `else` if it ends in a conditional without one. Where `nearest`
is demanded, no such statement stands in front of an `else`, so that each `else`
belongs to the nearest conditional that can take it. Without the demand the rules
are those of the grammar above, which is ambiguous there. -/

mutual
inductive Declaration (nearest : Bool) :
    List Token → OccurrenceId → Stmt → OccurrenceId → Prop
  | classDecl {word name start finish : Token}
      {heading first superclass middle tokens methods next} :
      word.kind = .keyword .classWord → name.kind = .identifier →
      Superclass heading first superclass middle → start.kind = .mark .leftBrace →
      Methods nearest tokens middle methods next → finish.kind = .mark .rightBrace →
      Declaration nearest (word :: name :: (heading ++ start :: (tokens ++ [finish]))) first
        (.classDecl name superclass methods) next
  | function {word : Token} {tokens first routine next} :
      word.kind = .keyword .funWord → Function nearest tokens first routine next →
      Declaration nearest (word :: tokens) first (.function routine) next
  | var {tokens first stmt next} :
      VariableStatement tokens first stmt next →
      Declaration nearest tokens first stmt next
  | statement {takesElse tokens first stmt next} :
      Statement nearest takesElse tokens first stmt next →
      Declaration nearest tokens first stmt next

inductive Declarations (nearest : Bool) :
    List Token → OccurrenceId → List Stmt → OccurrenceId → Prop
  | nil {first} : Declarations nearest [] first [] first
  | cons {tokens first stmt middle others stmts next} :
      Declaration nearest tokens first stmt middle →
      Declarations nearest others middle stmts next →
      Declarations nearest (tokens ++ others) first (stmt :: stmts) next

inductive Methods (nearest : Bool) :
    List Token → OccurrenceId → List Routine → OccurrenceId → Prop
  | nil {first} : Methods nearest [] first [] first
  | cons {tokens first method middle others methods next} :
      Function nearest tokens first method middle →
      Methods nearest others middle methods next →
      Methods nearest (tokens ++ others) first (method :: methods) next

inductive Function (nearest : Bool) :
    List Token → OccurrenceId → Routine → OccurrenceId → Prop
  | mk {name start finish opening closing : Token} {names parameters tokens first body next} :
      name.kind = .identifier → start.kind = .mark .leftParen →
      Parameters names parameters → finish.kind = .mark .rightParen →
      opening.kind = .mark .leftBrace → Declarations nearest tokens first body next →
      closing.kind = .mark .rightBrace →
      Function nearest
        (name :: start :: (names ++ finish :: opening :: (tokens ++ [closing]))) first
        (.mk name parameters body) next

inductive Statement (nearest : Bool) :
    (takesElse : Bool) → List Token → OccurrenceId → Stmt → OccurrenceId → Prop
  | expression {tokens first stmt next} :
      ExpressionStatement tokens first stmt next →
      Statement nearest false tokens first stmt next
  | print {word semicolon : Token} {tokens first value next} :
      word.kind = .keyword .printWord → Derives .expression tokens first value next →
      semicolon.kind = .mark .semicolon →
      Statement nearest false (word :: (tokens ++ [semicolon])) first (.print value) next
  | returns {word semicolon : Token} {tokens first value next} :
      word.kind = .keyword .returnWord → OptionalExpr tokens first value next →
      semicolon.kind = .mark .semicolon →
      Statement nearest false (word :: (tokens ++ [semicolon])) first
        (.returns word value) next
  | block {opening closing : Token} {tokens first body next} :
      opening.kind = .mark .leftBrace → Declarations nearest tokens first body next →
      closing.kind = .mark .rightBrace →
      Statement nearest false (opening :: (tokens ++ [closing])) first (.block body) next
  | loop {word start finish : Token} {tokens first condition middle takesElse others body next} :
      word.kind = .keyword .whileWord → start.kind = .mark .leftParen →
      Derives .expression tokens first condition middle → finish.kind = .mark .rightParen →
      Statement nearest takesElse others middle body next →
      Statement nearest takesElse (word :: start :: (tokens ++ finish :: others)) first
        (.loop condition body) next
  | forLoop {word start semicolon finish : Token}
      {initial first initializer afterInitial tested condition afterTest stepped increment
        afterStep takesElse others body next} :
      word.kind = .keyword .forWord → start.kind = .mark .leftParen →
      LoopInitializer initial first initializer afterInitial →
      OptionalExpr tested afterInitial condition afterTest →
      semicolon.kind = .mark .semicolon →
      OptionalExpr stepped afterTest increment afterStep → finish.kind = .mark .rightParen →
      Statement nearest takesElse others afterStep body next →
      Statement nearest takesElse
        (word :: start :: (initial ++ (tested ++ semicolon :: (stepped ++ finish :: others))))
        first (loopTree initializer condition increment body) next
  | conditional {word start finish : Token}
      {tokens first condition middle takesElse others thenBranch next} :
      word.kind = .keyword .ifWord → start.kind = .mark .leftParen →
      Derives .expression tokens first condition middle → finish.kind = .mark .rightParen →
      Statement nearest takesElse others middle thenBranch next →
      Statement nearest true (word :: start :: (tokens ++ finish :: others)) first
        (.conditional condition thenBranch none) next
  | conditionalElse {word start finish elseWord : Token}
      {tokens first condition middle thenTakesElse others thenBranch afterThen takesElse rest
        elseBranch next} :
      word.kind = .keyword .ifWord → start.kind = .mark .leftParen →
      Derives .expression tokens first condition middle → finish.kind = .mark .rightParen →
      Statement nearest thenTakesElse others middle thenBranch afterThen →
      (nearest = true → thenTakesElse = false) → elseWord.kind = .keyword .elseWord →
      Statement nearest takesElse rest afterThen elseBranch next →
      Statement nearest takesElse
        (word :: start :: (tokens ++ finish :: (others ++ elseWord :: rest))) first
        (.conditional condition thenBranch (some elseBranch)) next
end

/-- The tokens form a sentence of the grammar. -/
def Sentence (tokens : List Token) : Prop :=
  ∃ first statements next, Declarations false tokens first statements next

/-! ## What the parser builds -/

theorem tier_operand (level : Precedence) : (tier level).operand =
    match level.tighter? with
    | some next => .operation next
    | none => .signed := by
  cases level <;> rfl

theorem tier_node (level : Precedence) : (tier level).node = level.combine := by
  cases level <;> rfl

theorem loopTree_eq (initializer : Option Stmt) (condition increment : Option Expr)
    (body : Stmt) : loopTree initializer condition increment body =
      .forLoop initializer condition increment body := by
  cases initializer <;> cases increment <;> rfl

/-! ## Operations without an operator -/

section

variable {tokens : List Token} {first next : OccurrenceId} {tree : Expr}

theorem Derives.operation_of_signed (derived : Derives .signed tokens first tree next) :
    ∀ level, Derives (.operation level) tokens first tree next := by
  have product : Derives (.operation .product) tokens first tree next := .operand derived
  have sum : Derives (.operation .sum) tokens first tree next := .operand product
  have comparison : Derives (.operation .comparison) tokens first tree next := .operand sum
  have equality : Derives (.operation .equality) tokens first tree next := .operand comparison
  have conjunction : Derives (.operation .conjunction) tokens first tree next := .operand equality
  have disjunction : Derives (.operation .disjunction) tokens first tree next :=
    .operand conjunction
  intro level
  cases level <;> assumption

theorem Derives.expression_of_primary (derived : Derives .primary tokens first tree next) :
    Derives .expression tokens first tree next :=
  .operation ((Derives.unsigned (.unapplied derived)).operation_of_signed .disjunction)

end

end Lox.Grammar

/-! ## Tokens of the first line -/

namespace Lox.Token

def ofName (text : String) : Token := ⟨.identifier, text, 1⟩

def ofMark (mark : Mark) : Token := ⟨.mark mark, mark.text, 1⟩

def ofWord (word : Keyword) : Token := ⟨.keyword word, word.text, 1⟩

end Lox.Token
