import Lox.Forest
import Lox.Heap
import Lox.Sink
/-! The state of a running program, and its elementary steps. Everything that can
be shared is kept in tables and referred to by number. A step either yields a
value or stops the run; in both cases it leaves a machine behind, so what was done
before a stop stays done. -/

namespace Lox

/-- `clock` gives the readings one after another; `ticks` counts those taken. -/
structure Machine extends Heap FrameId where
  forest : Forest Value
  distances : Distances
  globals : FrameId
  current : FrameId
  sink : Sink
  clock : Nat → Float
  ticks : Nat

/-- Why a run ends early: a fault in the program, a fault of the sink, or because
the steps it was allowed are used up. -/
inductive Stop where
  | fault (fault : RuntimeFault) (line : Nat)
  | sink (fault : SinkFault)
  | exhausted
  deriving Repr, DecidableEq

/-- Something that runs on a machine. -/
abbrev Run := EStateM Stop Machine

namespace Machine

/-- A machine on which nothing has run. Its globals are the native functions. -/
def start (sink : Sink) (clock : Nat → Float) : Machine where
  toHeap := .empty
  forest := (Forest.empty.addRoot).defineAll 0 (Native.all.map fun native =>
    (native.name, .native native))
  distances := ∅
  globals := 0
  current := 0
  sink := sink
  clock := clock
  ticks := 0

/-! ## Looking -/

/-- The frame that an occurrence means: the one at its distance, or else the
global one if it binds the name. -/
def place (machine : Machine) (id : OccurrenceId) (name : String) : Except RuntimeFault FrameId :=
  match machine.distances.find? id with
  | some distance => machine.forest.placeAt machine.current distance name
  | none => machine.forest.place machine.globals name

/-- The value that an occurrence reads. -/
def valueOf (machine : Machine) (id : OccurrenceId) (name : String) : Except RuntimeFault Value :=
  machine.place id name >>= machine.forest.readOwn name

/-! ## Changing -/

def define (machine : Machine) (frame : FrameId) (name : String) (value : Value) : Machine :=
  { machine with forest := machine.forest.define frame name value }

def addFrame (machine : Machine) (enclosing : FrameId) : Machine :=
  { machine with forest := machine.forest.addChild enclosing }

/-- Change what the program has made. -/
def onHeap (machine : Machine) (change : Heap FrameId → Heap FrameId) : Machine :=
  { machine with toHeap := change machine.toHeap }

def write (machine : Machine) (text : String) : Machine :=
  { machine with sink := machine.sink.write text }

/-- Take over further scope distances. -/
def learn (machine : Machine) (distances : Distances) : Machine :=
  { machine with distances := machine.distances.setAll distances }

end Machine

namespace Run

variable {α : Type}

/-- Stop with a fault that is blamed on a token. -/
def fault {State : Type} (fault : RuntimeFault) (blamed : Token) : EStateM Stop State α :=
  throw (.fault fault blamed.line)

def ofExcept {State : Type} (result : Except RuntimeFault α) (blamed : Token) :
    EStateM Stop State α :=
  match result with
  | .ok value => pure value
  | .error problem => fault problem blamed

/-- The value that an occurrence reads. -/
def lookUp (id : OccurrenceId) (name : Token) : Run Value := do
  ofExcept ((← get).valueOf id name.lexeme) name

/-- Write to the variable that an occurrence means. -/
def store (id : OccurrenceId) (name : Token) (value : Value) : Run Unit := do
  let target ← ofExcept ((← get).place id name.lexeme) name
  modify (·.define target name.lexeme value)

/-- Bind a name in the current frame. -/
def define (name : String) (value : Value) : Run Unit :=
  modify fun machine => machine.define machine.current name value

/-- Write to the nearest variable of this name, which need not have a distance. -/
def storeByName (name : Token) (value : Value) : Run Unit := do
  let machine ← get
  let target ← ofExcept (machine.forest.place machine.current name.lexeme) name
  modify (·.define target name.lexeme value)

def newFrame (enclosing : FrameId) : Run FrameId := do
  let frame := (← get).forest.size
  modify (·.addFrame enclosing)
  return frame

def newFunction (closure : Closure FrameId) : Run Value := do
  let id := (← get).functions.size
  modify (·.onHeap (·.addFunction closure))
  return .function id

def newClass (info : ClassInfo FrameId) : Run Value := do
  let id := (← get).classes.size
  modify (·.onHeap (·.addClass info))
  return .classRef id

def newObject (classId : ClassId) : Run ObjectId := do
  let id := (← get).objects.size
  modify (·.onHeap (·.addObject ⟨classId, ∅⟩))
  return id

/-- A copy of a method for one receiver, which is bound in a frame of its own. -/
def bind (method : Closure FrameId) (receiver : ObjectId) : Run (Closure FrameId) := do
  let frame ← newFrame method.place
  modify (·.define frame thisName (.object receiver))
  return { method with place := frame }

/-- Run with another current frame, and go back to the previous one however it ends. -/
def inside (frame : FrameId) (body : Run α) : Run α := fun machine =>
  let previous := machine.current
  match body { machine with current := frame } with
  | .ok value after => .ok value { after with current := previous }
  | .error stop after => .error stop { after with current := previous }

/-- Write a line. What fits into the sink is written even if not all of it does. -/
def print (value : Value) : Run Unit := do
  let machine ← get
  let line := machine.text value ++ "\n"
  let fault? := machine.sink.writeFault? line
  modify (·.write line)
  match fault? with
  | none => pure ()
  | some fault => throw (.sink fault)

def flush : Run Unit := do
  match (← get).sink.flushFault? with
  | none => pure ()
  | some fault => throw (.sink fault)

/-- A property of an instance: a field, or else a method of its class, bound to it. -/
def property (id : ObjectId) (name : Token) : Run Value := do
  let machine ← get
  let object? := machine.objects[id]?
  match object?.bind (·.fields.find? name.lexeme) with
  | some value => return value
  | none =>
      match object?.bind fun object => machine.method? object.classId name.lexeme with
      | some method => newFunction (← bind method id)
      | none => fault (.undefinedProperty name.lexeme) name

/-- The next reading of the clock. -/
def readClock : Run Value := do
  let machine ← get
  modify fun machine => { machine with ticks := machine.ticks + 1 }
  return .number (machine.clock machine.ticks)

end Run

end Lox
