import Lox.Session
/-! Lexical scoping without distances. An environment is a chain of cells, each for
one name, in front of the globals. A declaration inside a block or a body puts a new
cell in front of the chain for the rest of the block or body; a closure keeps the
chain as it is at its declaration; a name means the first cell of that name, or the
global when there is none. What values are and how operators work is as before. -/

namespace Lox.Lexical

/-! ## Environments -/

/-- A name, and the location of its content. -/
structure Cell where
  name : String
  location : Nat
  deriving Repr, DecidableEq

/-- Outside of all blocks and bodies there is no chain, and declared names are global. -/
inductive Environment where
  | outermost
  | inside (chain : List Cell)
  deriving Repr, DecidableEq

namespace Environment

def chain : Environment → List Cell
  | outermost => []
  | inside chain => chain

/-- The environment at the start of a block or a body. -/
def enter (environment : Environment) : Environment :=
  inside environment.chain

/-- The location of the first cell of a name. -/
def location? (environment : Environment) (name : String) : Option Nat :=
  (environment.chain.find? (·.name == name)).map Cell.location

end Environment

/-! ## Machines -/

/-- The content of a cell is missing until the variable has its value. -/
structure Machine extends Heap Environment where
  cells : Array (Option Value)
  globals : Table String Value
  sink : Sink
  clock : Nat → Float
  ticks : Nat

abbrev Run := EStateM Stop Machine

namespace Machine

def start (sink : Sink) (clock : Nat → Float) : Machine where
  toHeap := .empty
  cells := #[]
  globals := Table.ofList (Native.all.map fun native => (native.name, .native native))
  sink := sink
  clock := clock
  ticks := 0

/-- What a name means, if it has a value. -/
def content? (machine : Machine) (environment : Environment) (name : String) : Option Value :=
  match environment.location? name with
  | some location => machine.cells[location]?.join
  | none => machine.globals.find? name

def valueOf (machine : Machine) (environment : Environment) (name : String) :
    Except RuntimeFault Value :=
  match machine.content? environment name with
  | some value => .ok value
  | none => .error (.undefinedVariable name)

/-- Write to what a name means. -/
def set (machine : Machine) (environment : Environment) (name : String) (value : Value) : Machine :=
  match environment.location? name with
  | some location => { machine with cells := machine.cells.setIfInBounds location (some value) }
  | none => { machine with globals := machine.globals.set name value }

/-- Can the name be written to? A global has to be there. -/
def canAssign (machine : Machine) (environment : Environment) (name : String) : Bool :=
  (environment.location? name).isSome || machine.globals.contains name

def addCell (machine : Machine) : Machine :=
  { machine with cells := machine.cells.push none }

def onHeap (machine : Machine) (change : Heap Environment → Heap Environment) : Machine :=
  { machine with toHeap := change machine.toHeap }

end Machine

/-! ## Steps -/

def lookUp (environment : Environment) (name : Token) : Run Value := do
  Run.ofExcept ((← get).valueOf environment name.lexeme) name

def assign (environment : Environment) (name : Token) (value : Value) : Run Unit := do
  if (← get).canAssign environment name.lexeme then
    modify (·.set environment name.lexeme value)
  else
    Run.fault (.undefinedVariable name.lexeme) name

/-- A new cell for the name in front of the chain, if there is a chain. -/
def declare (environment : Environment) (name : String) : Run Environment :=
  match environment with
  | .outermost => return .outermost
  | .inside chain => do
      let location := (← get).cells.size
      modify (·.addCell)
      return .inside (⟨name, location⟩ :: chain)

/-- Give a declared name its value. -/
def define (environment : Environment) (name : String) (value : Value) : Run Unit :=
  modify (·.set environment name value)

/-- Declare names together with their values, one after another. -/
def defineAll (environment : Environment) : List (String × Value) → Run Environment
  | [] => return environment
  | (name, value) :: rest => do
      let environment ← declare environment name
      define environment name value
      defineAll environment rest

def newFunction (closure : Closure Environment) : Run Value := do
  let id := (← get).functions.size
  modify (·.onHeap (·.addFunction closure))
  return .function id

def newClass (info : ClassInfo Environment) : Run Value := do
  let id := (← get).classes.size
  modify (·.onHeap (·.addClass info))
  return .classRef id

def newObject (classId : ClassId) : Run ObjectId := do
  let id := (← get).objects.size
  modify (·.onHeap (·.addObject ⟨classId, ∅⟩))
  return id

/-- A copy of a method for one receiver. -/
def bind (method : Closure Environment) (receiver : ObjectId) : Run (Closure Environment) := do
  let environment ← declare method.place.enter thisName
  define environment thisName (.object receiver)
  return { method with place := environment }

def print (value : Value) : Run Unit := do
  let machine ← get
  let line := machine.text value ++ "\n"
  let fault? := machine.sink.writeFault? line
  set { machine with sink := machine.sink.write line }
  match fault? with
  | none => pure ()
  | some fault => throw (.sink fault)

def flush : Run Unit := do
  match (← get).sink.flushFault? with
  | none => pure ()
  | some fault => throw (.sink fault)

def property (id : ObjectId) (name : Token) : Run Value := do
  let machine ← get
  let object? := machine.objects[id]?
  match object?.bind (·.fields.find? name.lexeme) with
  | some value => return value
  | none =>
      match object?.bind fun object => machine.method? object.classId name.lexeme with
      | some method => newFunction (← bind method id)
      | none => Run.fault (.undefinedProperty name.lexeme) name

def readClock : Run Value := do
  let machine ← get
  set { machine with ticks := machine.ticks + 1 }
  return .number (machine.clock machine.ticks)

/-- Declare a class; its methods and what follows see its name. -/
def declareClass (environment : Environment) (name : Token) (superclass : Option ClassId)
    (methods : List Routine) : Run Environment := do
  let environment ← declare environment name.lexeme
  define environment name.lexeme .nil
  let around ←
    match superclass with
    | some id =>
        let around ← declare environment.enter superName
        define around superName (.classRef id)
        pure around
    | none => pure environment
  let value ← newClass ⟨name.lexeme, superclass, methodTable around methods⟩
  define environment name.lexeme value
  return environment

def readSuperMethod (environment : Environment) (keyword method : Token) : Run Value := do
  let machine ← get
  match ← Run.ofExcept (machine.valueOf environment keyword.lexeme) keyword with
  | .classRef superclass =>
      match ← Run.ofExcept (machine.valueOf environment thisName) keyword with
      | .object receiver =>
          match machine.method? superclass method.lexeme with
          | some found => newFunction (← bind found receiver)
          | none => Run.fault (.undefinedProperty method.lexeme) method
      | _ => Run.fault .noProperties keyword
  | _ => Run.fault .superclassNotClass keyword

/-! ## Expressions and statements

A statement yields, beside its flow, the environment of what follows it. -/

mutual
def evaluate : Nat → Environment → Expr → Run Value
  | 0, _, _ => throw .exhausted
  | fuel + 1, environment, expr =>
      match expr with
      | .literal value => return .ofLiteral value
      | .group inner => evaluate fuel environment inner
      | .unary operator right => do
          Run.ofExcept (applyUnary operator (← evaluate fuel environment right)) operator
      | .binary left operator right => do
          let left ← evaluate fuel environment left
          let right ← evaluate fuel environment right
          Run.ofExcept (applyBinary operator left right) operator
      | .logical left operator right => do
          let left ← evaluate fuel environment left
          if decides operator left then return left else evaluate fuel environment right
      | .read _ name => lookUp environment name
      | .assign _ name value => do
          let value ← evaluate fuel environment value
          assign environment name value
          return value
      | .call callee paren arguments => do
          let callee ← evaluate fuel environment callee
          let arguments ← evaluateAll fuel environment arguments
          call fuel callee paren arguments
      | .get object name => do
          match ← evaluate fuel environment object with
          | .object id => property id name
          | _ => Run.fault .noProperties name
      | .set object name value => do
          match ← evaluate fuel environment object with
          | .object id => do
              let value ← evaluate fuel environment value
              modify (·.onHeap (·.setField id name.lexeme value))
              return value
          | _ => Run.fault .noFields name
      | .this _ keyword => lookUp environment keyword
      | .super _ keyword method => readSuperMethod environment keyword method

def evaluateAll : Nat → Environment → List Expr → Run (List Value)
  | 0, _, _ => throw .exhausted
  | fuel + 1, environment, exprs =>
      match exprs with
      | [] => return []
      | expr :: rest => do
          let value ← evaluate fuel environment expr
          let values ← evaluateAll fuel environment rest
          return value :: values

def call : Nat → Value → Token → List Value → Run Value
  | 0, _, _, _ => throw .exhausted
  | fuel + 1, callee, paren, arguments => do
      match (← get).arity? callee with
      | none => Run.fault .notCallable paren
      | some arity =>
          if arguments.length ≠ arity then
            Run.fault (.wrongArgumentCount arity arguments.length) paren
          else
            match callee with
            | .native .clock => readClock
            | .function id =>
                match (← get).functions[id]? with
                | some closure => invoke fuel closure arguments
                | none => Run.fault .notCallable paren
            | .classRef id => instantiate fuel id arguments
            | _ => Run.fault .notCallable paren

/-- Run a body with its parameters in new cells. An initializer yields its receiver. -/
def invoke : Nat → Closure Environment → List Value → Run Value
  | 0, _, _ => throw .exhausted
  | fuel + 1, closure, arguments => do
      let environment ← defineAll closure.place.enter
        ((closure.routine.parameters.map Token.lexeme).zip arguments)
      let flow ← executeAll fuel environment closure.routine.body
      if closure.isInitializer then
        return ((← get).content? closure.place thisName).getD .nil
      else
        match flow with
        | .returned value => return value
        | .normal => return .nil

def instantiate : Nat → ClassId → List Value → Run Value
  | 0, _, _ => throw .exhausted
  | fuel + 1, id, arguments => do
      let object ← newObject id
      match (← get).method? id initializerName with
      | some initializer =>
          let _ ← invoke fuel (← bind initializer object) arguments
          return .object object
      | none => return .object object

def execute : Nat → Environment → Stmt → Run (Flow × Environment)
  | 0, _, _ => throw .exhausted
  | fuel + 1, environment, stmt =>
      match stmt with
      | .expression expr => do
          let _ ← evaluate fuel environment expr
          return (.normal, environment)
      | .print expr => do
          print (← evaluate fuel environment expr)
          return (.normal, environment)
      | .var name none => do
          let environment ← declare environment name.lexeme
          define environment name.lexeme .nil
          return (.normal, environment)
      | .var name (some initial) => do
          let environment ← declare environment name.lexeme
          let value ← evaluate fuel environment initial
          define environment name.lexeme value
          return (.normal, environment)
      | .block body => do
          let flow ← executeAll fuel environment.enter body
          return (flow, environment)
      | .conditional condition thenBranch elseBranch => do
          if (← evaluate fuel environment condition).isTruthy then
            let (flow, _) ← execute fuel environment thenBranch
            return (flow, environment)
          else
            match elseBranch with
            | some elseBranch =>
                let (flow, _) ← execute fuel environment elseBranch
                return (flow, environment)
            | none => return (.normal, environment)
      | .loop condition body => do
          if (← evaluate fuel environment condition).isTruthy then
            match ← execute fuel environment body with
            | (.returned value, _) => return (.returned value, environment)
            | (.normal, _) => execute fuel environment (.loop condition body)
          else
            return (.normal, environment)
      | .function routine => do
          let environment ← declare environment routine.name.lexeme
          let value ← newFunction ⟨routine, environment, false⟩
          define environment routine.name.lexeme value
          return (.normal, environment)
      | .returns _ none => return (.returned .nil, environment)
      | .returns _ (some value) => do
          let value ← evaluate fuel environment value
          return (.returned value, environment)
      | .classDecl name none methods => do
          let environment ← declareClass environment name none methods
          return (.normal, environment)
      | .classDecl name (some superclass) methods => do
          match ← evaluate fuel environment superclass with
          | .classRef id => do
              let environment ← declareClass environment name (some id) methods
              return (.normal, environment)
          | _ => Run.fault .superclassNotClass (superclassBlame name superclass)

def executeAll : Nat → Environment → List Stmt → Run Flow
  | 0, _, _ => throw .exhausted
  | fuel + 1, environment, stmts =>
      match stmts with
      | [] => return .normal
      | stmt :: rest => do
          match ← execute fuel environment stmt with
          | (.returned value, _) => return .returned value
          | (.normal, environment) => executeAll fuel environment rest
end

/-! ## Programs and sessions -/

def executeProgram (fuel : Nat) : List Stmt → Run Unit
  | [] => flush
  | stmt :: rest => do
      let _ ← execute fuel .outermost stmt
      executeProgram fuel rest

structure Session where
  machine : Machine
  nextId : OccurrenceId

namespace Session

def start (sink : Sink) (clock : Nat → Float) : Session :=
  ⟨.start sink clock, 0⟩

/-- Run a source unless there is something wrong with it before it runs. -/
def run (fuel : Nat) (session : Session) (source : String) : Ending × Session :=
  let program := readSource source session.nextId
  let problems :=
    if program.problems.isEmpty then (resolve program.statements).problems else program.problems
  if problems.isEmpty then
    match executeProgram fuel program.statements session.machine with
    | .ok _ machine => (.success, ⟨machine, program.nextId⟩)
    | .error stop machine => (.ofStop stop, ⟨machine, program.nextId⟩)
  else
    (.rejected problems, { session with nextId := program.nextId })

def runAll (fuel : Nat) (session : Session) : List String → List Ending × Session
  | [] => ([], session)
  | source :: rest =>
      let (ending, session) := session.run fuel source
      let (endings, session) := runAll fuel session rest
      (ending :: endings, session)

end Session

end Lox.Lexical
