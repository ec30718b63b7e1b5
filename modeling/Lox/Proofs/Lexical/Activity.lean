import Lox.Proofs.Scope.Acceptance
/-! What runs while a program runs. A run is made of parts: to do one task, parts of it are
started one after another, each on the machine that the ones before it have left. The parts
that can be reached from a program say what the machine is like whenever an expression is
evaluated or a variable is written. -/

namespace Lox

/-! ## Tasks -/

/-- What can be done on a machine. -/
inductive Task where
  | evaluate (expr : Expr)
  | evaluateAll (exprs : List Expr)
  | store (id : OccurrenceId) (name : Token) (value : Value)
  | call (callee : Value) (paren : Token) (arguments : List Value)
  | invoke (closure : Closure FrameId) (arguments : List Value)
  | instantiate (id : ClassId) (arguments : List Value)
  | execute (stmt : Stmt)
  | executeAll (stmts : List Stmt)

/-- Doing the first task on the first machine, with a unit of fuel more than is given here,
the second task is started on the second machine. -/
inductive Starts (fuel : Nat) : Task → Machine → Task → Machine → Prop
  | group {inner machine} :
      Starts fuel (.evaluate (.group inner)) machine (.evaluate inner) machine
  | unary {operator right machine} :
      Starts fuel (.evaluate (.unary operator right)) machine (.evaluate right) machine
  | binaryLeft {left operator right machine} :
      Starts fuel (.evaluate (.binary left operator right)) machine (.evaluate left) machine
  | binaryRight {left operator right value machine after} :
      Lox.evaluate fuel left machine = .ok value after →
      Starts fuel (.evaluate (.binary left operator right)) machine (.evaluate right) after
  | logicalLeft {left operator right machine} :
      Starts fuel (.evaluate (.logical left operator right)) machine (.evaluate left) machine
  | logicalRight {left operator right value machine after} :
      Lox.evaluate fuel left machine = .ok value after → decides operator value = false →
      Starts fuel (.evaluate (.logical left operator right)) machine (.evaluate right) after
  | assigned {id name value machine} :
      Starts fuel (.evaluate (.assign id name value)) machine (.evaluate value) machine
  | assignment {id name expr value machine after} :
      Lox.evaluate fuel expr machine = .ok value after →
      Starts fuel (.evaluate (.assign id name expr)) machine (.store id name value) after
  | callee {callee paren arguments machine} :
      Starts fuel (.evaluate (.call callee paren arguments)) machine (.evaluate callee) machine
  | arguments {callee paren arguments value machine after} :
      Lox.evaluate fuel callee machine = .ok value after →
      Starts fuel (.evaluate (.call callee paren arguments)) machine (.evaluateAll arguments) after
  | called {callee paren arguments value values machine middle after} :
      Lox.evaluate fuel callee machine = .ok value middle →
      Lox.evaluateAll fuel arguments middle = .ok values after →
      Starts fuel (.evaluate (.call callee paren arguments)) machine (.call value paren values) after
  | getObject {object name machine} :
      Starts fuel (.evaluate (.get object name)) machine (.evaluate object) machine
  | setObject {object name value machine} :
      Starts fuel (.evaluate (.set object name value)) machine (.evaluate object) machine
  | setValue {object name value id machine after} :
      Lox.evaluate fuel object machine = .ok (.object id) after →
      Starts fuel (.evaluate (.set object name value)) machine (.evaluate value) after
  | head {expr rest machine} :
      Starts fuel (.evaluateAll (expr :: rest)) machine (.evaluate expr) machine
  | tail {expr rest value machine after} :
      Lox.evaluate fuel expr machine = .ok value after →
      Starts fuel (.evaluateAll (expr :: rest)) machine (.evaluateAll rest) after
  | function {id paren arguments closure machine} :
      machine.functions[id]? = some closure → arguments.length = closure.routine.arity →
      Starts fuel (.call (.function id) paren arguments) machine (.invoke closure arguments) machine
  | constructor {id paren arguments machine} :
      machine.arity? (.classRef id) = some arguments.length →
      Starts fuel (.call (.classRef id) paren arguments) machine (.instantiate id arguments) machine
  | body {closure arguments frame machine entered} :
      Run.newFrame closure.place machine = .ok frame entered →
      Starts fuel (.invoke closure arguments) machine (.executeAll closure.routine.body)
        { entered with
          current := frame
          forest := entered.forest.defineAll frame
            ((closure.routine.parameters.map Token.lexeme).zip arguments) }
  | initializer {id arguments object initializer closure machine made bound} :
      Run.newObject id machine = .ok object made →
      made.method? id initializerName = some initializer →
      Run.bind initializer object made = .ok closure bound →
      Starts fuel (.instantiate id arguments) machine (.invoke closure arguments) bound
  | expression {expr machine} :
      Starts fuel (.execute (.expression expr)) machine (.evaluate expr) machine
  | print {expr machine} :
      Starts fuel (.execute (.print expr)) machine (.evaluate expr) machine
  | initial {name initial machine} :
      Starts fuel (.execute (.var name (some initial))) machine (.evaluate initial) machine
  | block {body frame machine entered} :
      Run.newFrame machine.current machine = .ok frame entered →
      Starts fuel (.execute (.block body)) machine (.executeAll body) { entered with current := frame }
  | condition {condition thenBranch elseBranch machine} :
      Starts fuel (.execute (.conditional condition thenBranch elseBranch)) machine
        (.evaluate condition) machine
  | thenBranch {condition thenBranch elseBranch value machine after} :
      Lox.evaluate fuel condition machine = .ok value after → value.isTruthy = true →
      Starts fuel (.execute (.conditional condition thenBranch elseBranch)) machine
        (.execute thenBranch) after
  | elseBranch {condition thenBranch elseBranch value machine after} :
      Lox.evaluate fuel condition machine = .ok value after → value.isTruthy = false →
      Starts fuel (.execute (.conditional condition thenBranch (some elseBranch))) machine
        (.execute elseBranch) after
  | tested {condition body machine} :
      Starts fuel (.execute (.loop condition body)) machine (.evaluate condition) machine
  | round {condition body value machine after} :
      Lox.evaluate fuel condition machine = .ok value after → value.isTruthy = true →
      Starts fuel (.execute (.loop condition body)) machine (.execute body) after
  | again {condition body value machine middle after} :
      Lox.evaluate fuel condition machine = .ok value middle → value.isTruthy = true →
      Lox.execute fuel body middle = .ok .normal after →
      Starts fuel (.execute (.loop condition body)) machine (.execute (.loop condition body)) after
  | returned {keyword value machine} :
      Starts fuel (.execute (.returns keyword (some value))) machine (.evaluate value) machine
  | superclass {name superclass methods machine} :
      Starts fuel (.execute (.classDecl name (some superclass) methods)) machine
        (.evaluate superclass) machine
  | first {stmt rest machine} :
      Starts fuel (.executeAll (stmt :: rest)) machine (.execute stmt) machine
  | following {stmt rest machine after} :
      Lox.execute fuel stmt machine = .ok .normal after →
      Starts fuel (.executeAll (stmt :: rest)) machine (.executeAll rest) after

/-! ## Runs -/

/-- While the first task is done, the last one is started at some time. -/
inductive Reaches : Nat → Task → Machine → Task → Machine → Prop
  | here {fuel task machine} : Reaches fuel task machine task machine
  | part {fuel task machine part middle last final} :
      Starts fuel task machine part middle → Reaches fuel part middle last final →
      Reaches (fuel + 1) task machine last final

/-- While the statements of a program are executed, the task is started at some time. -/
inductive ProgramReaches (fuel : Nat) : List Stmt → Machine → Task → Machine → Prop
  | first {stmt rest machine task final} :
      Reaches fuel (.execute stmt) machine task final →
      ProgramReaches fuel (stmt :: rest) machine task final
  | following {stmt rest flow machine after task final} :
      execute fuel stmt machine = .ok flow after →
      ProgramReaches fuel rest after task final →
      ProgramReaches fuel (stmt :: rest) machine task final

namespace Session

/-- A session that has run some sources, accepted or not, with whatever fuel. -/
inductive Reachable (sink : Sink) (clock : Nat → Float) : Session → Prop
  | start : Reachable sink clock (.start sink clock)
  | run {session} : Reachable sink clock session → ∀ fuel source,
      Reachable sink clock (session.run fuel source).2

/-- The source is accepted, and while it runs the task is started on this machine. -/
def Executes (session : Session) (fuel : Nat) (source : String) (task : Task)
    (machine : Machine) : Prop :=
  session.Accepts source ∧
    ProgramReaches fuel (readSource source session.nextId).statements (session.ready source) task
      machine

end Session

/-! ## What occurrences find -/

namespace Machine

/-- There is a frame at the distance of an occurrence, if it has one. -/
def HasFrame (machine : Machine) (id : OccurrenceId) : Prop :=
  ∀ distance, machine.distances.find? id = some distance →
    ∃ target, machine.forest.ancestor? machine.current distance = some target

/-- The frame at the distance of an occurrence, if it has one, binds the name. -/
def Binds (machine : Machine) (id : OccurrenceId) (name : String) : Prop :=
  ∀ distance, machine.distances.find? id = some distance →
    ∃ target, machine.forest.ancestor? machine.current distance = some target ∧
      (machine.forest.own? target name).isSome

/-- The occurrence has a distance. The frame there binds the superclass, and the one just
inside of it the receiver. -/
def BindsSuper (machine : Machine) (id : OccurrenceId) : Prop :=
  ∃ distance outer inner classId objectId,
    machine.distances.find? id = some (distance + 1) ∧
    machine.forest.ancestor? machine.current (distance + 1) = some outer ∧
    machine.forest.own? outer superName = some (.classRef classId) ∧
    machine.forest.ancestor? machine.current distance = some inner ∧
    machine.forest.own? inner thisName = some (.object objectId)

end Machine

namespace Task

/-- An occurrence finds what it means in the frame at its distance. -/
def Bound (machine : Machine) : Task → Prop
  | evaluate (.read id name) => machine.Binds id name.lexeme
  | evaluate (.this id keyword) => machine.Binds id keyword.lexeme
  | evaluate (.assign id _ _) => machine.HasFrame id
  | store id _ _ => machine.HasFrame id
  | evaluate (.super id keyword _) => keyword.lexeme = superName ∧ machine.BindsSuper id
  | _ => True

/-- An occurrence with a distance cannot fail to find what it means; a superclass can only
lack the method. -/
def Faultless (machine : Machine) : Task → Prop
  | evaluate (.read id name) | evaluate (.this id name) =>
      machine.distances.find? id ≠ none → ∃ value, Run.lookUp id name machine = .ok value machine
  | store id name value =>
      machine.distances.find? id ≠ none → ∃ after, Run.store id name value machine = .ok () after
  | evaluate (.super id keyword method) =>
      (∃ value after, readSuperMethod id keyword method machine = .ok value after) ∨
        readSuperMethod id keyword method machine =
          .error (.fault (.undefinedProperty method.lexeme) method.line) machine
  | _ => True

theorem lookUp_of_binds {machine : Machine} {id : OccurrenceId} {name : Token}
    (bound : machine.Binds id name.lexeme) (known : machine.distances.find? id ≠ none) :
    ∃ value, Run.lookUp id name machine = .ok value machine := by
  rcases Option.ne_none_iff_exists'.mp known with ⟨distance, recorded⟩
  rcases bound distance recorded with ⟨target, reached, own⟩
  rcases Option.isSome_iff_exists.mp own with ⟨value, found⟩
  refine ⟨value, ?_⟩
  show Run.ofExcept (machine.valueOf id name.lexeme) name machine = _
  have read : machine.valueOf id name.lexeme = .ok value := by
    rw [Machine.valueOf, Machine.place, recorded]
    show (machine.forest.placeAt machine.current distance name.lexeme >>= _) = _
    rw [Forest.placeAt, reached]
    show machine.forest.readOwn name.lexeme target = _
    rw [Forest.readOwn, found]
  rw [read]
  rfl

theorem store_of_hasFrame {machine : Machine} {id : OccurrenceId} {name : Token} {value : Value}
    (framed : machine.HasFrame id) (known : machine.distances.find? id ≠ none) :
    ∃ after, Run.store id name value machine = .ok () after := by
  rcases Option.ne_none_iff_exists'.mp known with ⟨distance, recorded⟩
  rcases framed distance recorded with ⟨target, reached⟩
  refine ⟨machine.define target name.lexeme value, ?_⟩
  have placed : machine.place id name.lexeme = .ok target := by
    rw [Machine.place, recorded]
    show machine.forest.placeAt machine.current distance name.lexeme = _
    rw [Forest.placeAt, reached]
  show (Run.ofExcept (machine.place id name.lexeme) name >>= _) machine = _
  rw [placed]
  rfl

/-- Binding a method always succeeds. -/
theorem bind_newFunction (method : Closure FrameId) (object : ObjectId) (machine : Machine) :
    ∃ value after,
      (Run.bind method object >>= Run.newFunction) machine = .ok value after :=
  ⟨_, _, rfl⟩

/-- With a superclass at the distance of the occurrence and a receiver just inside of it, the
method is looked for from that superclass on, and is bound to that receiver. -/
theorem readSuperMethod_eq {machine : Machine} {id : OccurrenceId} {keyword : Token}
    {distance : Nat} {outer inner : FrameId} {superclass : ClassId} {receiver : ObjectId}
    (method : Token) (spelled : keyword.lexeme = superName)
    (recorded : machine.distances.find? id = some (distance + 1))
    (reachedOuter : machine.forest.ancestor? machine.current (distance + 1) = some outer)
    (ownOuter : machine.forest.own? outer superName = some (.classRef superclass))
    (reachedInner : machine.forest.ancestor? machine.current distance = some inner)
    (ownInner : machine.forest.own? inner thisName = some (.object receiver)) :
    readSuperMethod id keyword method machine =
      (match machine.method? superclass method.lexeme with
        | some found => Run.bind found receiver >>= Run.newFunction
        | none => Run.fault (.undefinedProperty method.lexeme) method) machine := by
  have super : machine.forest.getAt machine.current (distance + 1) superName =
      .ok (.classRef superclass) := by
    rw [Forest.getAt, Forest.placeAt, reachedOuter]
    show machine.forest.readOwn superName outer = _
    rw [Forest.readOwn, ownOuter]
  have this : machine.forest.getAt machine.current distance thisName = .ok (.object receiver) := by
    rw [Forest.getAt, Forest.placeAt, reachedInner]
    show machine.forest.readOwn thisName inner = _
    rw [Forest.readOwn, ownInner]
  have looked (next : Machine → Run Value) : (get >>= next) machine = next machine machine := rfl
  rw [readSuperMethod, looked, recorded]
  show (Run.ofExcept (machine.forest.getAt machine.current (distance + 1) keyword.lexeme)
    keyword >>= _) machine = _
  rw [spelled, super]
  show (Run.ofExcept (machine.forest.getAt machine.current distance thisName) keyword >>= _)
    machine = _
  rw [this]
  rfl

theorem readSuperMethod_of_bindsSuper {machine : Machine} {id : OccurrenceId} {keyword : Token}
    (method : Token) (spelled : keyword.lexeme = superName) (bound : machine.BindsSuper id) :
    (∃ value after, readSuperMethod id keyword method machine = .ok value after) ∨
      readSuperMethod id keyword method machine =
        .error (.fault (.undefinedProperty method.lexeme) method.line) machine := by
  rcases bound with ⟨distance, outer, inner, classId, objectId, recorded, reachedOuter, ownOuter,
    reachedInner, ownInner⟩
  rw [readSuperMethod_eq method spelled recorded reachedOuter ownOuter reachedInner ownInner]
  cases machine.method? classId method.lexeme with
  | some found => exact .inl (bind_newFunction found objectId machine)
  | none => exact .inr rfl

/-- An occurrence that finds what it means does not fail because of it. -/
theorem Bound.faultless {machine : Machine} {task : Task} (bound : task.Bound machine) :
    task.Faultless machine := by
  cases task with
  | evaluate expr =>
      cases expr with
      | read id name => exact lookUp_of_binds bound
      | this id keyword => exact lookUp_of_binds bound
      | super id keyword method => exact readSuperMethod_of_bindsSuper method bound.1 bound.2
      | _ => trivial
  | store id name value => exact store_of_hasFrame bound
  | _ => trivial

end Task

end Lox
