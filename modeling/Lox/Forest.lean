import Lox.Diagnostic
import Lox.Table
/-! Environments. Frames bind names to values; a frame may lie inside an enclosing
frame, so the frames form a forest. Frames are numbered in the order of their
creation, are never removed and keep their enclosing frame for ever; a frame is
therefore younger than the one that encloses it. -/

namespace Lox

abbrev FrameId := Nat

structure Frame (α : Type) where
  bindings : Table String α
  enclosing : Option FrameId
  deriving Repr, DecidableEq

structure Forest (α : Type) where
  frames : Array (Frame α)
  deriving Repr, DecidableEq

namespace Forest

variable {α : Type}

def empty : Forest α := ⟨#[]⟩

def frame? (forest : Forest α) (frame : FrameId) : Option (Frame α) :=
  forest.frames[frame]?

/-- The number of the next frame. -/
def size (forest : Forest α) : FrameId :=
  forest.frames.size

/-! ## Growing -/

def add (forest : Forest α) (enclosing : Option FrameId) : Forest α :=
  ⟨forest.frames.push ⟨∅, enclosing⟩⟩

/-- A frame that nothing encloses. -/
def addRoot (forest : Forest α) : Forest α :=
  forest.add none

def addChild (forest : Forest α) (enclosing : FrameId) : Forest α :=
  forest.add (some enclosing)

/-- Bind a name in this frame, whether it is bound there or not. -/
def define (forest : Forest α) (frame : FrameId) (name : String) (value : α) : Forest α :=
  ⟨forest.frames.modify frame fun old => { old with bindings := old.bindings.set name value }⟩

/-! ## Looking -/

def enclosing? (forest : Forest α) (frame : FrameId) : Option FrameId :=
  (forest.frame? frame).bind Frame.enclosing

/-- The value of a name in this very frame. -/
def own? (forest : Forest α) (frame : FrameId) (name : String) : Option α :=
  (forest.frame? frame).bind fun found => found.bindings.find? name

/-- The nearest frame, from this one outwards, that binds a name. An enclosing
frame is older, which bounds the way. -/
def holder? (forest : Forest α) (frame : FrameId) (name : String) : Option FrameId :=
  if (forest.own? frame name).isSome then
    some frame
  else
    match forest.enclosing? frame with
    | some outer => if outer < frame then forest.holder? outer name else none
    | none => none
termination_by frame

/-- The frame exactly this many links further out. -/
def ancestor? (forest : Forest α) (frame : FrameId) : Nat → Option FrameId
  | 0 => some frame
  | distance + 1 =>
      match forest.enclosing? frame with
      | some outer => forest.ancestor? outer distance
      | none => none

/-! ## Access by name and access by distance

By name the nearest frame that binds the name is meant. By distance one frame is
meant, whatever it binds: reading needs a binding there, writing makes one. -/

/-- The frame that a name means here. -/
def place (forest : Forest α) (frame : FrameId) (name : String) : Except RuntimeFault FrameId :=
  match forest.holder? frame name with
  | some holder => .ok holder
  | none => .error (.undefinedVariable name)

/-- The frame at a distance; the name is only wanted for the message. -/
def placeAt (forest : Forest α) (frame : FrameId) (distance : Nat) (name : String) :
    Except RuntimeFault FrameId :=
  match forest.ancestor? frame distance with
  | some target => .ok target
  | none => .error (.scopeTooShallow name)

/-- The value of a name in the frame that is meant. -/
def readOwn (forest : Forest α) (name : String) (target : FrameId) : Except RuntimeFault α :=
  match forest.own? target name with
  | some value => .ok value
  | none => .error (.undefinedVariable name)

def get (forest : Forest α) (frame : FrameId) (name : String) : Except RuntimeFault α :=
  forest.place frame name >>= forest.readOwn name

def getAt (forest : Forest α) (frame : FrameId) (distance : Nat) (name : String) :
    Except RuntimeFault α :=
  forest.placeAt frame distance name >>= forest.readOwn name

def assign (forest : Forest α) (frame : FrameId) (name : String) (value : α) :
    Except RuntimeFault (Forest α) :=
  (forest.place frame name).map (forest.define · name value)

def assignAt (forest : Forest α) (frame : FrameId) (distance : Nat) (name : String) (value : α) :
    Except RuntimeFault (Forest α) :=
  (forest.placeAt frame distance name).map (forest.define · name value)

/-- Bind names to values one after another; a name that comes twice keeps the later value. -/
def defineAll (forest : Forest α) (frame : FrameId) (entries : List (String × α)) : Forest α :=
  entries.foldl (fun current entry => current.define frame entry.1 entry.2) forest

/-! ## What the operations change -/

@[simp] theorem size_add (forest : Forest α) (enclosing : Option FrameId) :
    (forest.add enclosing).size = forest.size + 1 := by
  simp [add, size]

@[simp] theorem size_define (forest : Forest α) (frame : FrameId) (name : String) (value : α) :
    (forest.define frame name value).size = forest.size := by
  simp [define, size]

theorem frame?_define (forest : Forest α) (frame other : FrameId) (name : String) (value : α) :
    (forest.define frame name value).frame? other =
      if frame = other then
        (forest.frame? other).map fun old => { old with bindings := old.bindings.set name value }
      else
        forest.frame? other := by
  simp only [define, frame?, Array.getElem?_modify]

/-- Defining a name changes no link. -/
@[simp] theorem enclosing?_define (forest : Forest α) (frame other : FrameId) (name : String)
    (value : α) :
    (forest.define frame name value).enclosing? other = forest.enclosing? other := by
  simp only [enclosing?, frame?_define]
  split
  · cases forest.frame? other <;> rfl
  · rfl

/-- Defining a name changes that name in that frame only. -/
theorem own?_define_other (forest : Forest α) (frame other : FrameId) (name : String) (value : α)
    (query : String) (different : other ≠ frame ∨ query ≠ name) :
    (forest.define frame name value).own? other query = forest.own? other query := by
  simp only [own?, frame?_define]
  split
  · rename_i equal
    have otherName : query ≠ name := different.resolve_left (fun no => no equal.symm)
    cases forest.frame? other with
    | none => rfl
    | some found => simp [Table.find?_set_other _ otherName]
  · rfl

theorem own?_define_same (forest : Forest α) {frame : FrameId} (present : frame < forest.size)
    (name : String) (value : α) :
    (forest.define frame name value).own? frame name = some value := by
  have found : forest.frame? frame = some forest.frames[frame] := by
    simp [frame?, size] at present ⊢
  simp [own?, frame?_define, found]

/-- New frames leave the old ones as they were. -/
theorem frame?_add_of_lt (forest : Forest α) (enclosing : Option FrameId) {frame : FrameId}
    (present : frame < forest.size) :
    (forest.add enclosing).frame? frame = forest.frame? frame := by
  simp only [size] at present
  simp [add, frame?, Array.getElem?_push, Nat.ne_of_lt present]

theorem frame?_add_size (forest : Forest α) (enclosing : Option FrameId) :
    (forest.add enclosing).frame? forest.size = some ⟨∅, enclosing⟩ := by
  simp [add, frame?, size]

/-- A frame inside a frame that binds a name. -/
private def nested : Forest Nat := (empty.addRoot.addChild 0).define 0 "x" 1

example : (nested.get 1 "x").toOption = some 1 := by decide +kernel

example : nested.getAt 1 1 "x" = .ok 1 ∧ nested.getAt 1 0 "x" = .error (.undefinedVariable "x") ∧
    nested.getAt 1 2 "x" = .error (.scopeTooShallow "x") := ⟨rfl, rfl, rfl⟩

end Forest

end Lox
