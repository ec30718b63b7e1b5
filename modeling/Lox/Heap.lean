import Lox.Scope
import Lox.Value
/-! What a running program has made and can share: functions, classes and instances,
each kept in a table of its own and referred to by number. How a function remembers
the place of its declaration is left open. -/

namespace Lox

/-- A function together with the place in which it was declared. -/
structure Closure (Place : Type) where
  routine : Routine
  place : Place
  isInitializer : Bool
  deriving Repr

/-- A class holds the methods of its own body and a link to its superclass. -/
structure ClassInfo (Place : Type) where
  name : String
  superclass : Option ClassId
  methods : Table String (Closure Place)
  deriving Repr

/-- An instance holds its fields; its methods are those of its class. -/
structure Instance where
  classId : ClassId
  fields : Table String Value
  deriving Repr

structure Heap (Place : Type) where
  functions : Array (Closure Place)
  classes : Array (ClassInfo Place)
  objects : Array Instance

namespace Heap

variable {Place : Type}

def empty : Heap Place := ⟨#[], #[], #[]⟩

/-! ## Looking -/

/-- The method of a class: that of its own body, or else that of its superclass,
which is older. -/
def method? (heap : Heap Place) (id : ClassId) (name : String) : Option (Closure Place) :=
  match heap.classes[id]? with
  | none => none
  | some info =>
      match info.methods.find? name, info.superclass with
      | some method, _ => some method
      | none, some superclass =>
          if superclass < id then heap.method? superclass name else none
      | none, none => none
termination_by id

/-- How many arguments a call takes; nothing is said of what cannot be called. A
class takes those of its initializer. -/
def arity? (heap : Heap Place) : Value → Option Nat
  | .native native => some native.arity
  | .function id => heap.functions[id]?.map (·.routine.arity)
  | .classRef id => some (((heap.method? id initializerName).map (·.routine.arity)).getD 0)
  | _ => none

def className (heap : Heap Place) (id : ClassId) : String :=
  (heap.classes[id]?.map ClassInfo.name).getD ""

/-- What `print` writes for a value. -/
def text (heap : Heap Place) : Value → String
  | .nil => "nil"
  | .bool true => "true"
  | .bool false => "false"
  | .number value => Number.valueText value
  | .string value => value
  | .native _ => "<native fn>"
  | .function id =>
      "<fn " ++ (heap.functions[id]?.map (·.routine.name.lexeme)).getD "" ++ ">"
  | .classRef id => heap.className id
  | .object id =>
      (heap.objects[id]?.map fun object => heap.className object.classId).getD "" ++
        " instance"

/-! ## Changing -/

def addFunction (heap : Heap Place) (closure : Closure Place) : Heap Place :=
  { heap with functions := heap.functions.push closure }

def addClass (heap : Heap Place) (info : ClassInfo Place) : Heap Place :=
  { heap with classes := heap.classes.push info }

def addObject (heap : Heap Place) (object : Instance) : Heap Place :=
  { heap with objects := heap.objects.push object }

def setField (heap : Heap Place) (id : ObjectId) (name : String) (value : Value) : Heap Place :=
  { heap with objects := heap.objects.modify id fun object =>
      { object with fields := object.fields.set name value } }

end Heap

/-- The methods of a class body; of two with the same name the later one counts. -/
def methodTable {Place : Type} (place : Place) (methods : List Routine) :
    Table String (Closure Place) :=
  Table.ofList (methods.map fun method =>
    (method.name.lexeme, ⟨method, place, method.name.lexeme = initializerName⟩))

end Lox
