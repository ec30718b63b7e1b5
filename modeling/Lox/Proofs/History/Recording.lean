import Lox.Proofs.Lexical.Activity
/-! Runs with a memory. Beside what it does, a run writes down everything that it passes
through: which task is started, which value an expression yields, and the machine after each
step. For all code it is known in which method call it stands: a function belongs to the call
around its declaration, a bound method to the call for which it has been bound. Nothing that
is written down is ever looked at, apart from what tells where a function belongs. -/

namespace Lox

/-- The class, from this one on upwards, whose own body holds a method of this name. -/
def Heap.declarer? {Place : Type} (heap : Heap Place) (id : ClassId) (name : String) :
    Option ClassId :=
  match heap.classes[id]? with
  | none => none
  | some info =>
      match info.methods.find? name, info.superclass with
      | some _, _ => some id
      | none, some superclass =>
          if superclass < id then heap.declarer? superclass name else none
      | none, none => none
termination_by id

namespace History

/-! ## What is written down -/

/-- What a method is bound for: the class in whose body it is declared, and the receiver. -/
structure Activation where
  declarer : ClassId
  receiver : ObjectId
  deriving Repr, DecidableEq

inductive Event where
  | starts (task : Task)
  | yields (expr : Expr) (value : Value)
  | prints (value : Value)
  | passes

/-- Something that happens, the innermost method call around the code that does it, and the
machine afterwards; of every function that there is, the method call it belongs to. -/
structure Moment where
  around : Option Activation
  event : Event
  machine : Machine
  owners : Array (Option Activation)

/-- A machine with a memory. The last moment stands first. -/
structure Chronicle extends Machine where
  owners : Array (Option Activation)
  past : List Moment

/-- Something that runs on a machine with a memory. -/
abbrev Recorded := EStateM Stop Chronicle

namespace Chronicle

/-- A machine from which nothing is known of what has happened before. -/
def of (machine : Machine) : Chronicle :=
  ⟨machine, #[], []⟩

def note (chronicle : Chronicle) (around : Option Activation) (event : Event) : Chronicle :=
  { chronicle with
    past := ⟨around, event, chronicle.toMachine, chronicle.owners⟩ :: chronicle.past }

/-- Go on with another machine. The functions that have been made belong to one owner. -/
def turn (chronicle : Chronicle) (machine : Machine) (owner : Option Activation) : Chronicle :=
  { chronicle with
    toMachine := machine
    owners := chronicle.owners ++
      Array.replicate (machine.functions.size - chronicle.owners.size) owner }

def learn (chronicle : Chronicle) (distances : Distances) : Chronicle :=
  { chronicle with toMachine := chronicle.toMachine.learn distances }

end Chronicle

/-! ## Steps -/

section

variable {α : Type} (around : Option Activation)

def note (event : Event) : Recorded Unit :=
  modify (·.note around event)

/-- Take a step and write it down. -/
def step (event : Event) (owner : Machine → Option Activation) (run : Run α) : Recorded α :=
  fun chronicle =>
    match run chronicle.toMachine with
    | .ok value machine =>
        .ok value ((chronicle.turn machine (owner chronicle.toMachine)).note around event)
    | .error stop machine =>
        .error stop ((chronicle.turn machine (owner chronicle.toMachine)).note around event)

/-- A step like most others; a function that it makes belongs where the code stands. -/
def take (run : Run α) : Recorded α :=
  step around .passes (fun _ => around) run

/-- Write down that an expression is evaluated, and to which value. -/
def valued (expr : Expr) (body : Recorded Value) : Recorded Value := do
  note around (.starts (.evaluate expr))
  let value ← body
  note around (.yields expr value)
  return value

/-- Run with another current frame, and go back to the previous one however it ends. -/
def inside (frame : FrameId) (body : Recorded α) : Recorded α := fun chronicle =>
  let previous := chronicle.current
  match body { chronicle with current := frame } with
  | .ok value after => .ok value { after with current := previous }
  | .error stop after => .error stop { after with current := previous }

end

/-! ## Methods -/

/-- What a method is bound for when it is looked for from a class on upwards. -/
def activation? (machine : Machine) (start : ClassId) (name : String) (receiver : ObjectId) :
    Option Activation :=
  (machine.declarer? start name).map (⟨·, receiver⟩)

def propertyOwner (id : ObjectId) (name : Token) (machine : Machine) : Option Activation :=
  machine.objects[id]?.bind fun object => activation? machine object.classId name.lexeme id

/-- A method of a superclass is looked for from the superclass of the class around the code,
and is bound to the receiver of the method call around it. -/
def superOwner (around : Option Activation) (method : Token) (machine : Machine) :
    Option Activation :=
  around.bind fun activation =>
    (machine.classes[activation.declarer]?.bind ClassInfo.superclass).bind fun superclass =>
      activation? machine superclass method.lexeme activation.receiver

/-- The frame of a superclass, around the methods of a class. -/
def superFrame (around : FrameId) (superclass : ClassId) : Run FrameId := do
  let frame ← Run.newFrame around
  modify (·.define frame superName (.classRef superclass))
  return frame

def declareClass (around : Option Activation) (name : Token) (superclass : Option ClassId)
    (methods : List Routine) : Recorded Unit := do
  take around (Run.define name.lexeme .nil)
  let outer := (← get).current
  let frame ←
    match superclass with
    | some id => take around (superFrame outer id)
    | none => pure outer
  let value ← take around (Run.newClass ⟨name.lexeme, superclass, methodTable frame methods⟩)
  take around (Run.storeByName name value)

/-! ## Expressions and statements -/

mutual
def evaluate : Nat → Option Activation → Expr → Recorded Value
  | 0, _, _ => throw .exhausted
  | fuel + 1, around, expr => valued around expr (
      match expr with
      | .literal value => return .ofLiteral value
      | .group inner => evaluate fuel around inner
      | .unary operator right => do
          Run.ofExcept (applyUnary operator (← evaluate fuel around right)) operator
      | .binary left operator right => do
          let left ← evaluate fuel around left
          let right ← evaluate fuel around right
          Run.ofExcept (applyBinary operator left right) operator
      | .logical left operator right => do
          let left ← evaluate fuel around left
          if decides operator left then return left else evaluate fuel around right
      | .read id name => take around (Run.lookUp id name)
      | .assign id name value => do
          let value ← evaluate fuel around value
          take around (Run.store id name value)
          return value
      | .call callee paren arguments => do
          let callee ← evaluate fuel around callee
          let arguments ← evaluateAll fuel around arguments
          call fuel around callee paren arguments
      | .get object name => do
          match ← evaluate fuel around object with
          | .object id => step around .passes (propertyOwner id name) (Run.property id name)
          | _ => Run.fault .noProperties name
      | .set object name value => do
          match ← evaluate fuel around object with
          | .object id => do
              let value ← evaluate fuel around value
              take around (modify (·.onHeap (·.setField id name.lexeme value)))
              return value
          | _ => Run.fault .noFields name
      | .this id keyword => take around (Run.lookUp id keyword)
      | .super id keyword method =>
          step around .passes (superOwner around method) (readSuperMethod id keyword method))

def evaluateAll : Nat → Option Activation → List Expr → Recorded (List Value)
  | 0, _, _ => throw .exhausted
  | fuel + 1, around, exprs => do
      note around (.starts (.evaluateAll exprs))
      match exprs with
      | [] => return []
      | expr :: rest => do
          let value ← evaluate fuel around expr
          let values ← evaluateAll fuel around rest
          return value :: values

def call : Nat → Option Activation → Value → Token → List Value → Recorded Value
  | 0, _, _, _, _ => throw .exhausted
  | fuel + 1, around, callee, paren, arguments => do
      note around (.starts (.call callee paren arguments))
      match (← get).arity? callee with
      | none => Run.fault .notCallable paren
      | some arity =>
          if arguments.length ≠ arity then
            Run.fault (.wrongArgumentCount arity arguments.length) paren
          else
            match callee with
            | .native .clock => take around Run.readClock
            | .function id => do
                let chronicle ← get
                match chronicle.functions[id]? with
                | some closure => invoke fuel chronicle.owners[id]?.join closure arguments
                | none => Run.fault .notCallable paren
            | .classRef id => instantiate fuel around id arguments
            | _ => Run.fault .notCallable paren

/-- The body stands in the method call that the function belongs to. -/
def invoke : Nat → Option Activation → Closure FrameId → List Value → Recorded Value
  | 0, _, _, _ => throw .exhausted
  | fuel + 1, owner, closure, arguments => do
      note owner (.starts (.invoke closure arguments))
      let frame ← take owner (Run.newFrame closure.place)
      take owner (modify fun machine => { machine with
        forest := machine.forest.defineAll frame
          ((closure.routine.parameters.map Token.lexeme).zip arguments) })
      let flow ← inside frame (executeAll fuel owner closure.routine.body)
      if closure.isInitializer then
        return ((← get).forest.own? closure.place thisName).getD .nil
      else
        match flow with
        | .returned value => return value
        | .normal => return .nil

def instantiate : Nat → Option Activation → ClassId → List Value → Recorded Value
  | 0, _, _, _ => throw .exhausted
  | fuel + 1, around, id, arguments => do
      note around (.starts (.instantiate id arguments))
      let object ← take around (Run.newObject id)
      let machine := (← get).toMachine
      match machine.method? id initializerName with
      | some initializer =>
          let closure ← take around (Run.bind initializer object)
          let _ ← invoke fuel (activation? machine id initializerName object) closure arguments
          return .object object
      | none => return .object object

def execute : Nat → Option Activation → Stmt → Recorded Flow
  | 0, _, _ => throw .exhausted
  | fuel + 1, around, stmt => do
      note around (.starts (.execute stmt))
      match stmt with
      | .expression expr => do
          let _ ← evaluate fuel around expr
          return .normal
      | .print expr => do
          let value ← evaluate fuel around expr
          step around (.prints value) (fun _ => around) (Run.print value)
          return .normal
      | .var name none => do
          take around (Run.define name.lexeme .nil)
          return .normal
      | .var name (some initial) => do
          let value ← evaluate fuel around initial
          take around (Run.define name.lexeme value)
          return .normal
      | .block body => do
          let frame ← take around (Run.newFrame (← get).current)
          inside frame (executeAll fuel around body)
      | .conditional condition thenBranch elseBranch => do
          if (← evaluate fuel around condition).isTruthy then
            execute fuel around thenBranch
          else
            match elseBranch with
            | some elseBranch => execute fuel around elseBranch
            | none => return .normal
      | .loop condition body => do
          if (← evaluate fuel around condition).isTruthy then
            match ← execute fuel around body with
            | .returned value => return .returned value
            | .normal => execute fuel around (.loop condition body)
          else
            return .normal
      | .function routine => do
          let value ← take around (Run.newFunction ⟨routine, (← get).current, false⟩)
          take around (Run.define routine.name.lexeme value)
          return .normal
      | .returns _ none => return .returned .nil
      | .returns _ (some value) => return .returned (← evaluate fuel around value)
      | .classDecl name none methods => do
          declareClass around name none methods
          return .normal
      | .classDecl name (some superclass) methods => do
          match ← evaluate fuel around superclass with
          | .classRef id => do
              declareClass around name (some id) methods
              return .normal
          | _ => Run.fault .superclassNotClass (superclassBlame name superclass)

def executeAll : Nat → Option Activation → List Stmt → Recorded Flow
  | 0, _, _ => throw .exhausted
  | fuel + 1, around, stmts => do
      note around (.starts (.executeAll stmts))
      match stmts with
      | [] => return .normal
      | stmt :: rest => do
          match ← execute fuel around stmt with
          | .returned value => return .returned value
          | .normal => executeAll fuel around rest
end

/-! ## Programs and sessions -/

/-- The top level is in no method. -/
def executeProgram (fuel : Nat) : List Stmt → Recorded Unit
  | [] => take none Run.flush
  | stmt :: rest => do
      let _ ← execute fuel none stmt
      executeProgram fuel rest

structure Session where
  chronicle : Chronicle
  nextId : OccurrenceId

namespace Session

/-- A session from which nothing is known of what has happened before. -/
def of (session : Lox.Session) : Session :=
  ⟨.of session.machine, session.nextId⟩

/-- The session without its memory. -/
def forget (session : Session) : Lox.Session :=
  ⟨session.chronicle.toMachine, session.nextId⟩

/-- What the execution of a program leaves. -/
def ended (nextId : OccurrenceId) : EStateM.Result Stop Chronicle Unit → Ending × Session
  | .ok _ chronicle => (.success, ⟨chronicle, nextId⟩)
  | .error stop chronicle => (.ofStop stop, ⟨chronicle, nextId⟩)

/-- Run a source, and write down what happens. -/
def run (fuel : Nat) (session : Session) (source : String) : Ending × Session :=
  let program := readSource source session.nextId
  let resolution := resolve program.statements
  let problems := if program.problems.isEmpty then resolution.problems else program.problems
  if problems.isEmpty then
    ended program.nextId
      (executeProgram fuel program.statements (session.chronicle.learn resolution.distances))
  else
    (.rejected problems, { session with nextId := program.nextId })

def runAll (fuel : Nat) (session : Session) : List String → List Ending × Session
  | [] => ([], session)
  | source :: rest =>
      let (ending, session) := session.run fuel source
      let (endings, session) := runAll fuel session rest
      (ending :: endings, session)

/-- What has happened, in the order in which it has happened. -/
def history (session : Session) : List Moment :=
  session.chronicle.past.reverse

end Session

end History

end Lox
