import Lox.Grammar.Reading
/-! The grammar of expressions. Operators of one precedence group to the left,
assignments and signs to the right; calls and properties follow what they apply to. -/

namespace Lox

/-! ## Precedence -/

/-- The operators that stand between two operands, the loosest first. -/
inductive Precedence where
  | disjunction
  | conjunction
  | equality
  | comparison
  | sum
  | product
  deriving Repr, DecidableEq

namespace Precedence

/-- The operands of an operator are built with tighter operators only. -/
def tighter? : Precedence → Option Precedence
  | disjunction => some conjunction
  | conjunction => some equality
  | equality => some comparison
  | comparison => some sum
  | sum => some product
  | product => none

def operators : Precedence → List TokenKind
  | disjunction => [.keyword .orWord]
  | conjunction => [.keyword .andWord]
  | equality => [.mark .bangEqual, .mark .equalEqual]
  | comparison => [.mark .greater, .mark .greaterEqual, .mark .less, .mark .lessEqual]
  | sum => [.mark .minus, .mark .plus]
  | product => [.mark .star, .mark .slash]

def hasOperator (level : Precedence) (token : Token) : Bool :=
  level.operators.any token.kind.alike

/-- The two loosest operators decide whether their right operand is evaluated at all. -/
def combine (level : Precedence) (left : Expr) (operator : Token) (right : Expr) : Expr :=
  match level with
  | disjunction | conjunction => .logical left operator right
  | equality | comparison | sum | product => .binary left operator right

/-- The number of levels at and below this one. -/
def rank : Precedence → Nat
  | disjunction => 6
  | conjunction => 5
  | equality => 4
  | comparison => 3
  | sum => 2
  | product => 1

theorem rank_pos (level : Precedence) : 0 < level.rank := by
  cases level <;> decide

theorem rank_le (level : Precedence) : level.rank ≤ 6 := by
  cases level <;> decide

theorem rank_tighter {level next : Precedence} (tighter : level.tighter? = some next) :
    next.rank < level.rank := by
  cases level <;> simp [tighter?] at tighter <;> subst tighter <;> decide

end Precedence

/-- A sign in front of an operand. -/
def Token.isSign (token : Token) : Bool :=
  token.hasMark .bang || token.hasMark .minus

/-- A method of the superclass, after the word `super`. The occurrence number is
taken last. -/
def readSuper {input : List Token} (keyword : Token) : Reading input Expr := do
  let _ ← Reading.expect (.mark .dot) .superDot
  let method ← Reading.expect .identifier .superMethod
  let id ← Reading.freshId
  return .super id keyword method

/-! ## Constructs

The bound that decreases is the number of tokens first and then the depth of the
construct in the grammar, which is below 32. -/

mutual
/-- An assignment or an operation. What stands left of an equals sign is read as
an operation and then has to denote a place; the assigned value may be an
assignment again. -/
def readExpr (input : List Token) (draft : Draft) : Parsed Expr input :=
  (readOperation .disjunction input draft).andThen fun target rest draft =>
    match rest with
    | ⟨[], _⟩ => .accept target rest draft
    | ⟨equals :: others, shorter⟩ =>
        if equals.hasMark .equal then
          ((readExpr others draft).within (.drop equals others shorter)).andThen
            fun value rest draft =>
              match target.assignment? value with
              | some assignment => .accept assignment rest draft
              | none => .accept target rest (draft.report ⟨.invalidTarget, equals :: others⟩)
        else
          .accept target rest draft
termination_by input.length * 32 + 16
decreasing_by
  · exact Nat.lt_succ_self _
  · simp only [List.length_cons] at shorter
    omega

/-- Operands of the next tighter precedence with operators of this one between them. -/
def readOperation (level : Precedence) (input : List Token) (draft : Draft) :
    Parsed Expr input :=
  (readOperand level input draft).andThen fun left rest draft =>
    readOperators level input left rest draft
termination_by input.length * 32 + 2 * level.rank + 3
decreasing_by
  · omega
  · have := rest.2
    omega

def readOperand (level : Precedence) (input : List Token) (draft : Draft) :
    Parsed Expr input :=
  match _tighter : level.tighter? with
  | some next => readOperation next input draft
  | none => readSigned input draft
termination_by input.length * 32 + 2 * level.rank + 2
decreasing_by
  · have := Precedence.rank_tighter _tighter
    omega
  · have := level.rank_pos
    omega

/-- The operators and operands that follow `left`. -/
def readOperators (level : Precedence) (input : List Token) (left : Expr)
    (rest : Shorter input) (draft : Draft) : Parsed Expr input :=
  match rest with
  | ⟨[], _⟩ => .accept left rest draft
  | ⟨operator :: others, shorter⟩ =>
      if level.hasOperator operator then
        let taken : Shorter input := .drop operator others shorter
        (readOperand level others draft).onward taken fun right after draft =>
          readOperators level input (level.combine left operator right)
            (taken.trans after) draft
      else
        .accept left rest draft
termination_by rest.1.length * 32
decreasing_by
  · have := level.rank_le
    simp only [List.length_cons]
    omega
  · have := (taken.trans after).2
    have := after.2
    simp only [taken, Shorter.drop, Shorter.trans, List.length_cons] at *
    omega

/-- Signs group to the right. -/
def readSigned (input : List Token) (draft : Draft) : Parsed Expr input :=
  match input with
  | [] => readApplied [] draft
  | sign :: others =>
      if sign.isSign then
        ((readSigned others draft).within (.tail sign others)).andThen fun right =>
          return .unary sign right
      else
        readApplied (sign :: others) draft
termination_by input.length * 32 + 2

/-- Calls and properties, from left to right. -/
def readApplied (input : List Token) (draft : Draft) : Parsed Expr input :=
  (readPrimary input draft).andThen fun callee rest draft =>
    readApplications input callee rest draft
termination_by input.length * 32 + 1
decreasing_by
  · omega
  · have := rest.2
    omega

def readApplications (input : List Token) (callee : Expr) (rest : Shorter input)
    (draft : Draft) : Parsed Expr input :=
  match rest with
  | ⟨[], _⟩ => .accept callee rest draft
  | ⟨token :: others, shorter⟩ =>
      if token.hasMark .leftParen then
        let taken : Shorter input := .drop token others shorter
        (readArguments others draft).onward taken fun found after draft =>
          readApplications input (.call callee found.2 found.1) (taken.trans after) draft
      else if token.hasMark .dot then
        let taken : Shorter input := .drop token others shorter
        (expectFirst .identifier .propertyName others draft).onward taken fun name after draft =>
          readApplications input (.get callee name) (taken.trans after) draft
      else
        .accept callee rest draft
termination_by rest.1.length * 32
decreasing_by
  · simp only [List.length_cons]
    omega
  · have := (taken.trans after).2
    have := after.2
    simp only [taken, Shorter.drop, Shorter.trans, List.length_cons] at *
    omega
  · have := (taken.trans after).2
    have := after.2
    simp only [taken, Shorter.drop, Shorter.trans, List.length_cons] at *
    omega

/-- The arguments of a call and its closing parenthesis. -/
def readArguments (input : List Token) (draft : Draft) : Parsed (List Expr × Token) input :=
  match input with
  | [] => readArgumentList [] [] draft
  | token :: others =>
      if token.hasMark .rightParen then
        .accept ([], token) (.tail token others) draft
      else
        readArgumentList [] (token :: others) draft
termination_by input.length * 32 + 18

/-- At least one more argument after `earlier`, and the closing parenthesis. An
argument too many is reported in front of it. -/
def readArgumentList (earlier : List Expr) (input : List Token) (draft : Draft) :
    Parsed (List Expr × Token) input :=
  let draft :=
    if maximumArity ≤ earlier.length then draft.report ⟨.tooManyArguments, input⟩ else draft
  (readExpr input draft).andThen fun argument rest draft =>
    match rest with
    | ⟨[], _⟩ => .reject ⟨.missing .argumentsEnd, []⟩ (Nat.zero_le _) draft
    | ⟨token :: others, shorter⟩ =>
        if token.hasMark .comma then
          (readArgumentList (earlier ++ [argument]) others draft).within
            (.drop token others shorter)
        else if token.hasMark .rightParen then
          .accept (earlier ++ [argument], token) (.drop token others shorter) draft
        else
          .reject ⟨.missing .argumentsEnd, token :: others⟩ (Nat.le_of_lt shorter) draft
termination_by input.length * 32 + 17
decreasing_by
  · omega
  · simp only [List.length_cons] at shorter
    omega

/-- A single value, a name, or an expression in parentheses. -/
def readPrimary (input : List Token) (draft : Draft) : Parsed Expr input :=
  match input with
  | [] => .reject ⟨.missing .expression, []⟩ (Nat.le_refl _) draft
  | token :: others =>
      let taken : Shorter (token :: others) := .tail token others
      match token.kind with
      | .keyword .falseWord => .accept (.literal (.bool false)) taken draft
      | .keyword .trueWord => .accept (.literal (.bool true)) taken draft
      | .keyword .nilWord => .accept (.literal .nil) taken draft
      | .number value => .accept (.literal (.number value)) taken draft
      | .string contents => .accept (.literal (.string contents)) taken draft
      | .keyword .thisWord => .accept (.this draft.nextId token) taken draft.afterId
      | .identifier => .accept (.read draft.nextId token) taken draft.afterId
      | .keyword .superWord => readSuper token taken draft
      | .mark .leftParen =>
          ((readExpr others draft).within taken).andThen fun inner => do
            let _ ← Reading.expect (.mark .rightParen) .groupEnd
            return .group inner
      | _ => .reject ⟨.missing .expression, token :: others⟩ (Nat.le_refl _) draft
termination_by input.length * 32
end

end Lox
