import Lox.Machine
/-! What programs do. Expressions yield values and statements a way of going on.
Every step down and every further round of a loop costs one unit of fuel; a run
that has none left stops as exhausted, and more fuel never changes how a run that
was not exhausted ends. -/

namespace Lox

/-- How a statement that did not stop the run ends: the next statement follows, or
the enclosing call returns. -/
inductive Flow where
  | normal
  | returned (value : Value)
  deriving Repr, DecidableEq

/-! ## Operators -/

/-- A sign applies to a number, a negation to anything. -/
def applyUnary (operator : Token) (operand : Value) : Except RuntimeFault Value :=
  match operator.kind, operand with
  | .mark .bang, value => .ok (.bool (!value.isTruthy))
  | .mark .minus, .number value => .ok (.number (-value))
  | _, _ => .error .operandNotNumber

def applyArithmetic (operator : Token) (left right : Float) : Except RuntimeFault Value :=
  match operator.kind with
  | .mark .minus => .ok (.number (left - right))
  | .mark .star => .ok (.number (left * right))
  | .mark .slash => .ok (.number (left / right))
  | .mark .greater => .ok (.bool (left > right))
  | .mark .greaterEqual => .ok (.bool (left ≥ right))
  | .mark .less => .ok (.bool (left < right))
  | .mark .lessEqual => .ok (.bool (left ≤ right))
  | _ => .error (.invalidOperator operator.lexeme)

/-- Equality takes any two values and a sum two numbers or two strings; all other
operators take numbers only. -/
def applyBinary (operator : Token) (left right : Value) : Except RuntimeFault Value :=
  match operator.kind with
  | .mark .equalEqual => .ok (.bool (left.equals right))
  | .mark .bangEqual => .ok (.bool (!left.equals right))
  | .mark .plus =>
      match left, right with
      | .number left, .number right => .ok (.number (left + right))
      | .string left, .string right => .ok (.string (left ++ right))
      | _, _ => .error .operandsNotAddable
  | _ =>
      match left, right with
      | .number left, .number right => applyArithmetic operator left right
      | _, _ => .error .operandsNotNumbers

/-- Is the left operand already the result? -/
def decides (operator : Token) (left : Value) : Bool :=
  match operator.kind with
  | .keyword .orWord => left.isTruthy
  | _ => !left.isTruthy

/-! ## Classes -/

/-- What a superclass expression is blamed on. -/
def superclassBlame (name : Token) : Expr → Token
  | .read _ superclass => superclass
  | _ => name

/-- Declare a class. The name is bound while the methods are made, and the class
is written to it when they are. -/
def declareClass (name : Token) (superclass : Option ClassId) (methods : List Routine) :
    Run Unit := do
  Run.define name.lexeme .nil
  let around := (← get).current
  let frame ←
    match superclass with
    | some id =>
        let frame ← Run.newFrame around
        modify (·.define frame superName (.classRef id))
        pure frame
    | none => pure around
  let value ← Run.newClass ⟨name.lexeme, superclass, methodTable frame methods⟩
  Run.storeByName name value

/-- A method of the superclass, bound to the receiver. The frame that binds the
receiver lies just inside the one that binds the superclass. -/
def readSuperMethod (id : OccurrenceId) (keyword method : Token) : Run Value := do
  let machine ← get
  match machine.distances.find? id with
  | none => Run.fault .superOutsideClass keyword
  | some distance =>
      match ← Run.ofExcept
          (machine.forest.getAt machine.current distance keyword.lexeme) keyword with
      | .classRef superclass =>
          match ← Run.ofExcept
              (machine.forest.getAt machine.current (distance - 1) thisName) keyword with
          | .object receiver =>
              match machine.method? superclass method.lexeme with
              | some found => Run.newFunction (← Run.bind found receiver)
              | none => Run.fault (.undefinedProperty method.lexeme) method
          | _ => Run.fault .noProperties keyword
      | _ => Run.fault .superclassNotClass keyword

/-! ## Expressions and statements -/

mutual
def evaluate : Nat → Expr → Run Value
  | 0, _ => throw .exhausted
  | fuel + 1, expr =>
      match expr with
      | .literal value => return .ofLiteral value
      | .group inner => evaluate fuel inner
      | .unary operator right => do
          Run.ofExcept (applyUnary operator (← evaluate fuel right)) operator
      | .binary left operator right => do
          let left ← evaluate fuel left
          let right ← evaluate fuel right
          Run.ofExcept (applyBinary operator left right) operator
      | .logical left operator right => do
          let left ← evaluate fuel left
          if decides operator left then return left else evaluate fuel right
      | .read id name => Run.lookUp id name
      | .assign id name value => do
          let value ← evaluate fuel value
          Run.store id name value
          return value
      | .call callee paren arguments => do
          let callee ← evaluate fuel callee
          let arguments ← evaluateAll fuel arguments
          call fuel callee paren arguments
      | .get object name => do
          match ← evaluate fuel object with
          | .object id => Run.property id name
          | _ => Run.fault .noProperties name
      | .set object name value => do
          match ← evaluate fuel object with
          | .object id => do
              let value ← evaluate fuel value
              modify (·.onHeap (·.setField id name.lexeme value))
              return value
          | _ => Run.fault .noFields name
      | .this id keyword => Run.lookUp id keyword
      | .super id keyword method => readSuperMethod id keyword method

def evaluateAll : Nat → List Expr → Run (List Value)
  | 0, _ => throw .exhausted
  | fuel + 1, exprs =>
      match exprs with
      | [] => return []
      | expr :: rest => do
          let value ← evaluate fuel expr
          let values ← evaluateAll fuel rest
          return value :: values

/-- Call a value with arguments that are already evaluated. -/
def call : Nat → Value → Token → List Value → Run Value
  | 0, _, _, _ => throw .exhausted
  | fuel + 1, callee, paren, arguments => do
      match (← get).arity? callee with
      | none => Run.fault .notCallable paren
      | some arity =>
          if arguments.length ≠ arity then
            Run.fault (.wrongArgumentCount arity arguments.length) paren
          else
            match callee with
            | .native .clock => Run.readClock
            | .function id =>
                match (← get).functions[id]? with
                | some closure => invoke fuel closure arguments
                | none => Run.fault .notCallable paren
            | .classRef id => instantiate fuel id arguments
            | _ => Run.fault .notCallable paren

/-- Run a body with its parameters bound in a new frame. An initializer yields
its receiver, whatever its body returns. -/
def invoke : Nat → Closure FrameId → List Value → Run Value
  | 0, _, _ => throw .exhausted
  | fuel + 1, closure, arguments => do
      let frame ← Run.newFrame closure.place
      modify fun machine => { machine with
        forest := machine.forest.defineAll frame
          ((closure.routine.parameters.map Token.lexeme).zip arguments) }
      let flow ← Run.inside frame (executeAll fuel closure.routine.body)
      if closure.isInitializer then
        return ((← get).forest.own? closure.place thisName).getD .nil
      else
        match flow with
        | .returned value => return value
        | .normal => return .nil

/-- Make an instance and run its initializer, if its class has one. -/
def instantiate : Nat → ClassId → List Value → Run Value
  | 0, _, _ => throw .exhausted
  | fuel + 1, id, arguments => do
      let object ← Run.newObject id
      match (← get).method? id initializerName with
      | some initializer =>
          let _ ← invoke fuel (← Run.bind initializer object) arguments
          return .object object
      | none => return .object object

def execute : Nat → Stmt → Run Flow
  | 0, _ => throw .exhausted
  | fuel + 1, stmt =>
      match stmt with
      | .expression expr => do
          let _ ← evaluate fuel expr
          return .normal
      | .print expr => do
          Run.print (← evaluate fuel expr)
          return .normal
      | .var name none => do
          Run.define name.lexeme .nil
          return .normal
      | .var name (some initial) => do
          Run.define name.lexeme (← evaluate fuel initial)
          return .normal
      | .block body => do
          let frame ← Run.newFrame (← get).current
          Run.inside frame (executeAll fuel body)
      | .conditional condition thenBranch elseBranch => do
          if (← evaluate fuel condition).isTruthy then
            execute fuel thenBranch
          else
            match elseBranch with
            | some elseBranch => execute fuel elseBranch
            | none => return .normal
      | .loop condition body => do
          if (← evaluate fuel condition).isTruthy then
            match ← execute fuel body with
            | .returned value => return .returned value
            | .normal => execute fuel (.loop condition body)
          else
            return .normal
      | .function routine => do
          let value ← Run.newFunction ⟨routine, (← get).current, false⟩
          Run.define routine.name.lexeme value
          return .normal
      | .returns _ none => return .returned .nil
      | .returns _ (some value) => return .returned (← evaluate fuel value)
      | .classDecl name none methods => do
          declareClass name none methods
          return .normal
      | .classDecl name (some superclass) methods => do
          match ← evaluate fuel superclass with
          | .classRef id => do
              declareClass name (some id) methods
              return .normal
          | _ => Run.fault .superclassNotClass (superclassBlame name superclass)

/-- Statements one after another, up to the first that returns. -/
def executeAll : Nat → List Stmt → Run Flow
  | 0, _ => throw .exhausted
  | fuel + 1, stmts =>
      match stmts with
      | [] => return .normal
      | stmt :: rest => do
          match ← execute fuel stmt with
          | .returned value => return .returned value
          | .normal => executeAll fuel rest
end

/-! ## Programs -/

/-- The statements of a program; a return at the top level ends its statement only. -/
def executeProgram (fuel : Nat) : List Stmt → Run Unit
  | [] => Run.flush
  | stmt :: rest => do
      let _ ← execute fuel stmt
      executeProgram fuel rest

/-- What one statement shows when it is tried on its own. -/
inductive Shown where
  | value (value : Value)
  | flow (flow : Flow)
  deriving Repr, DecidableEq

/-- Run one statement; an expression statement shows its value. -/
def tryStatement (fuel : Nat) : Stmt → Run Shown
  | .expression expr => do return .value (← evaluate fuel expr)
  | stmt => do return .flow (← execute fuel stmt)

end Lox
