import Lox.Proofs.History.Onward
/-! Where code stands. The frames of receivers and of superclasses are sealed: nothing is bound
in them after they have been made. Around the code lies a frame for each scope around it; those of
a class are sealed, and they tell the method call that the code belongs to. What is known of
frames in this way stays true when programs run on. -/

namespace Lox

open Scope History

/-! ## Occurrences -/

mutual
/-- The occurrences of `this` and `super` in an expression. -/
def Expr.receivers : Expr → List OccurrenceId
  | .literal _ => []
  | .group inner => inner.receivers
  | .unary _ right => right.receivers
  | .binary left _ right => left.receivers ++ right.receivers
  | .logical left _ right => left.receivers ++ right.receivers
  | .read _ _ => []
  | .assign _ _ value => value.receivers
  | .call callee _ arguments => callee.receivers ++ Expr.allReceivers arguments
  | .get object _ => object.receivers
  | .set object _ value => object.receivers ++ value.receivers
  | .this id _ => [id]
  | .super id _ _ => [id]

def Expr.allReceivers : List Expr → List OccurrenceId
  | [] => []
  | expr :: rest => expr.receivers ++ Expr.allReceivers rest
end

def Expr.receivers? : Option Expr → List OccurrenceId
  | none => []
  | some expr => expr.receivers

mutual
/-- The occurrences of `this` and `super` in a statement that belong to the class around it: those
in the methods of a class belong to that class. -/
def Stmt.receivers : Stmt → List OccurrenceId
  | .expression expr => expr.receivers
  | .print expr => expr.receivers
  | .var _ initial => Expr.receivers? initial
  | .block body => Stmt.allReceivers body
  | .conditional condition thenBranch none => condition.receivers ++ thenBranch.receivers
  | .conditional condition thenBranch (some elseBranch) =>
      condition.receivers ++ (thenBranch.receivers ++ elseBranch.receivers)
  | .loop condition body => condition.receivers ++ body.receivers
  | .function routine => routine.receivers
  | .returns _ value => Expr.receivers? value
  | .classDecl _ superclass _ => Expr.receivers? superclass

def Stmt.allReceivers : List Stmt → List OccurrenceId
  | [] => []
  | stmt :: rest => stmt.receivers ++ Stmt.allReceivers rest

def Routine.receivers : Routine → List OccurrenceId
  | .mk _ _ body => Stmt.allReceivers body
end

/-! ## Scopes and frames -/

theorem Scope.locate?_of_free {scope : Scope} {scopes : List Scope} {name : String}
    (free : scope.find? name = none) {distance : Nat} {state : NameState}
    (found : locate? (scope :: scopes) name = some (distance, state)) :
    ∃ further, distance = further + 1 ∧ locate? scopes name = some (further, state) := by
  rw [locate?, free] at found
  obtain ⟨⟨further, _⟩, outside, same⟩ := Option.map_eq_some_iff.mp found
  cases same
  exact ⟨further, rfl, outside⟩

theorem Scope.receiver_super : receiver.find? superName = none := by decide

theorem Scope.receiver_ordinary {name : Token} (ordinary : name.Ordinary) :
    receiver.find? name.lexeme = none :=
  Table.find?_set_other _ ordinary.notThis _

theorem Scope.inherited_ordinary {name : Token} (ordinary : name.Ordinary) :
    inherited.find? name.lexeme = none :=
  Table.find?_set_other _ ordinary.notSuper _

theorem Forest.ancestor?_of_enclosing? {α : Type} {forest : Forest α} {frame outer target : FrameId}
    {distance : Nat} (linked : forest.enclosing? frame = some outer)
    (reached : forest.ancestor? outer distance = some target) :
    forest.ancestor? frame (distance + 1) = some target := by
  rw [ancestor?, linked]
  exact reached

namespace Machine

/-- The frame binds a receiver or a superclass. -/
def Sealed (machine : Machine) (frame : FrameId) : Prop :=
  (machine.forest.own? frame thisName).isSome ∨ (machine.forest.own? frame superName).isSome

/-- There is such a frame, and it binds neither a receiver nor a superclass. -/
structure Open (machine : Machine) (frame : FrameId) : Prop where
  present : frame < machine.forest.size
  this : machine.forest.own? frame thisName = none
  super : machine.forest.own? frame superName = none

/-- Programs run on: sealed frames bind what they have bound, and no frame becomes sealed. -/
structure Steady (before after : Machine) : Prop extends Later before after where
  seals : ∀ frame, before.Sealed frame → ∀ name,
    after.forest.own? frame name = before.forest.own? frame name
  opens : ∀ frame, before.Open frame → after.Open frame

variable {before middle after machine : Machine}

theorem Open.not_sealed {frame : FrameId} (opened : machine.Open frame) :
    ¬ machine.Sealed frame := by
  rintro (this | super)
  · rw [opened.this] at this
    cases this
  · rw [opened.super] at super
    cases super

namespace Steady

theorem refl (machine : Machine) : Steady machine machine :=
  ⟨.refl machine, fun _ _ _ => rfl, fun _ => id⟩

/-- A frame that is sealed stays sealed. -/
theorem sealed (steady : Steady before after) {frame : FrameId} (known : before.Sealed frame) :
    after.Sealed frame := by
  rw [Sealed, steady.seals frame known, steady.seals frame known]
  exact known

theorem trans (first : Steady before middle) (second : Steady middle after) :
    Steady before after where
  toLater := first.toLater.trans second.toLater
  seals frame known name := (second.seals frame (first.sealed known) name).trans
    (first.seals frame known name)
  opens frame opened := second.opens frame (first.opens frame opened)

end Steady

/-! ## Places -/

/-- Around the frame lies a frame for each scope, as far as the scopes go: the code that stands
there belongs to this method call. -/
inductive Lies (machine : Machine) : FrameId → List Scope → Option Activation → Prop
  | outermost : Lies machine machine.globals [] none
  | inside {frame outer scope scopes around} :
      machine.Open frame → machine.forest.enclosing? frame = some outer →
      scope.find? thisName = none → scope.find? superName = none →
      Lies machine outer scopes around →
      Lies machine frame (scope :: scopes) around
  | plain {frame outer scopes around activation} :
      machine.forest.own? frame thisName = some (.object activation.receiver) →
      machine.forest.enclosing? frame = some outer →
      Lies machine outer scopes around →
      Lies machine frame (receiver :: scopes) (some activation)
  | derived {frame middle outer scopes around activation info superclass} :
      machine.forest.own? frame thisName = some (.object activation.receiver) →
      machine.forest.enclosing? frame = some middle →
      machine.classes[activation.declarer]? = some info →
      info.superclass = some superclass →
      machine.forest.own? middle superName = some (.classRef superclass) →
      machine.forest.enclosing? middle = some outer →
      Lies machine outer scopes around →
      Lies machine frame (receiver :: inherited :: scopes) (some activation)

namespace Lies

variable {frame : FrameId} {scopes : List Scope} {around : Option Activation}

theorem later (lies : machine.Lies frame scopes around) (steady : Steady machine after) :
    after.Lies frame scopes around := by
  have links {frame outer : FrameId} (linked : machine.forest.enclosing? frame = some outer) :
      after.forest.enclosing? frame = some outer :=
    (steady.links frame (Forest.lt_size_of_enclosing? linked)).trans linked
  induction lies with
  | outermost =>
      rw [← steady.globals]
      exact .outermost
  | inside opened linked this super _ induction =>
      exact .inside (steady.opens _ opened) (links linked) this super induction
  | plain own linked _ induction =>
      have kept := steady.seals _ (.inl (Option.isSome_of_eq_some own)) thisName
      exact .plain (kept.trans own) (links linked) induction
  | derived own linked found extends_ parent linked' _ induction =>
      have kept := steady.seals _ (.inl (Option.isSome_of_eq_some own)) thisName
      have kept' := steady.seals _ (.inr (Option.isSome_of_eq_some parent)) superName
      exact .derived (kept.trans own) (links linked) (steady.classes _ _ found) extends_
        (kept'.trans parent) (links linked') induction

/-- Where nothing is sealed a program can bind its names. -/
theorem bindIn (lies : machine.Lies frame scopes around) (opened : machine.Open frame)
    {name : Token} (ordinary : name.Ordinary) (state : NameState) :
    machine.Lies frame (bindIn scopes name.lexeme state) around := by
  cases lies with
  | outermost => exact .outermost
  | inside _ linked this super outer =>
      refine .inside opened linked ?_ ?_ outer
      · rw [Table.find?_set_other _ ordinary.notThis.symm]
        exact this
      · rw [Table.find?_set_other _ ordinary.notSuper.symm]
        exact super
  | plain own _ _ => exact absurd (.inl (Option.isSome_of_eq_some own)) opened.not_sealed
  | derived own _ _ _ _ _ _ => exact absurd (.inl (Option.isSome_of_eq_some own)) opened.not_sealed

/-- The receiver is found at its distance. -/
theorem this (lies : machine.Lies frame scopes around) {distance : Nat}
    (receives : Receives scopes distance) :
    ∃ activation target, around = some activation ∧
      machine.forest.ancestor? frame distance = some target ∧
      machine.forest.own? target thisName = some (.object activation.receiver) := by
  induction lies generalizing distance with
  | outermost => cases receives
  | inside _ linked free _ _ induction =>
      obtain ⟨further, rfl, found⟩ := locate?_of_free free receives
      obtain ⟨activation, target, belongs, reached, own⟩ := induction found
      exact ⟨activation, target, belongs, Forest.ancestor?_of_enclosing? linked reached, own⟩
  | plain own _ _ _ =>
      rw [Receives, locate?_receiver] at receives
      cases receives
      exact ⟨_, _, rfl, rfl, own⟩
  | derived own _ _ _ _ _ _ _ =>
      rw [Receives, locate?_receiver] at receives
      cases receives
      exact ⟨_, _, rfl, rfl, own⟩

/-- The scope of a superclass comes only with that of a receiver inside of it. -/
theorem super_not_innermost (lies : machine.Lies frame scopes around) (state : NameState) :
    locate? scopes superName ≠ some (0, state) := by
  intro found
  cases lies with
  | outermost => cases found
  | inside _ _ _ free _ =>
      obtain ⟨further, impossible, _⟩ := locate?_of_free free found
      cases impossible
  | plain _ _ _ =>
      obtain ⟨further, impossible, _⟩ := locate?_of_free receiver_super found
      cases impossible
  | derived _ _ _ _ _ _ _ =>
      obtain ⟨further, impossible, _⟩ := locate?_of_free receiver_super found
      cases impossible

/-- The receiver is found at its distance, and just outside of it the superclass of the class
that the method call belongs to. -/
theorem super (lies : machine.Lies frame scopes around) {distance : Nat}
    (inherits : Inherits scopes distance) :
    ∃ activation info superclass target outer, around = some activation ∧
      machine.classes[activation.declarer]? = some info ∧ info.superclass = some superclass ∧
      machine.forest.ancestor? frame distance = some target ∧
      machine.forest.own? target thisName = some (.object activation.receiver) ∧
      machine.forest.ancestor? frame (distance + 1) = some outer ∧
      machine.forest.own? outer superName = some (.classRef superclass) := by
  induction lies generalizing distance with
  | outermost => cases inherits.1
  | inside _ linked free free' _ induction =>
      obtain ⟨further, rfl, found⟩ := locate?_of_free free inherits.1
      obtain ⟨_, same, found'⟩ := locate?_of_free free' inherits.2
      cases same
      obtain ⟨activation, info, superclass, target, outer, belongs, known, parent, reached, own,
        reached', own'⟩ := induction ⟨found, found'⟩
      exact ⟨activation, info, superclass, target, outer, belongs, known, parent,
        Forest.ancestor?_of_enclosing? linked reached, own,
        Forest.ancestor?_of_enclosing? linked reached', own'⟩
  | plain _ _ outer _ =>
      obtain ⟨receives, found⟩ := inherits
      rw [Receives, locate?_receiver] at receives
      cases receives
      obtain ⟨_, same, found⟩ := locate?_of_free receiver_super found
      cases same
      exact absurd found (outer.super_not_innermost .ready)
  | @derived frame middle outer _ _ activation info superclass own linked known parent own' _ _ _ =>
      have receives := inherits.1
      rw [Receives, locate?_receiver] at receives
      cases receives
      exact ⟨activation, info, superclass, frame, middle, rfl, known, parent, rfl, own,
        Forest.ancestor?_of_enclosing? linked rfl, own'⟩

/-- What a program can name is bound where nothing is sealed. -/
theorem opens (lies : machine.Lies frame scopes around) {name : Token} (ordinary : name.Ordinary)
    {distance : Nat} {state : NameState}
    (found : locate? scopes name.lexeme = some (distance, state)) :
    ∃ target, machine.forest.ancestor? frame distance = some target ∧ machine.Open target := by
  induction lies generalizing distance with
  | outermost => cases found
  | @inside frame outer scope scopes around opened linked _ _ _ induction =>
      cases declared : scope.find? name.lexeme with
      | some state =>
          rw [locate?, declared] at found
          cases found
          exact ⟨frame, rfl, opened⟩
      | none =>
          obtain ⟨further, rfl, outside⟩ := locate?_of_free declared found
          obtain ⟨target, reached, opened⟩ := induction outside
          exact ⟨target, Forest.ancestor?_of_enclosing? linked reached, opened⟩
  | plain _ linked _ induction =>
      obtain ⟨further, rfl, outside⟩ := locate?_of_free (receiver_ordinary ordinary) found
      obtain ⟨target, reached, opened⟩ := induction outside
      exact ⟨target, Forest.ancestor?_of_enclosing? linked reached, opened⟩
  | derived _ linked _ _ _ linked' _ induction =>
      obtain ⟨_, rfl, further⟩ := locate?_of_free (receiver_ordinary ordinary) found
      obtain ⟨_, rfl, outside⟩ := locate?_of_free (inherited_ordinary ordinary) further
      obtain ⟨target, reached, opened⟩ := induction outside
      exact ⟨target, Forest.ancestor?_of_enclosing? linked
        (Forest.ancestor?_of_enclosing? linked' reached), opened⟩

end Lies

/-! ## Code -/

/-- The class declares the occurrence: it belongs to one of its methods. -/
def Declares (machine : Machine) (id : ClassId) (occurrence : OccurrenceId) : Prop :=
  ∃ info name method, machine.classes[id]? = some info ∧ info.methods.find? name = some method ∧
    occurrence ∈ method.routine.receivers

/-- The class of the method call around declares the occurrences. -/
def Declared (machine : Machine) (around : Option Activation) (occurrences : List OccurrenceId) :
    Prop :=
  ∀ activation, around = some activation →
    ∀ occurrence ∈ occurrences, machine.Declares activation.declarer occurrence

namespace Declared

variable {around : Option Activation} {first second : List OccurrenceId}

theorem later (declared : machine.Declared around first) (later : Later machine after) :
    after.Declared around first := by
  intro activation belongs occurrence member
  obtain ⟨info, name, method, known, found, inside⟩ :=
    declared activation belongs occurrence member
  exact ⟨info, name, method, later.classes _ _ known, found, inside⟩

theorem left (declared : machine.Declared around (first ++ second)) :
    machine.Declared around first :=
  fun activation belongs occurrence member =>
    declared activation belongs occurrence (List.mem_append_left second member)

theorem right (declared : machine.Declared around (first ++ second)) :
    machine.Declared around second :=
  fun activation belongs occurrence member =>
    declared activation belongs occurrence (List.mem_append_right first member)

end Declared

/-- The code that is done now belongs to this method call, and these are the scopes around it. -/
structure Stands (machine : Machine) (scopes : List Scope) (around : Option Activation) : Prop where
  lies : machine.Lies machine.current scopes around
  opened : machine.Open machine.current

theorem Stands.later {scopes : List Scope} {around : Option Activation}
    (stands : machine.Stands scopes around) (steady : Steady machine after)
    (same : after.current = machine.current) : after.Stands scopes around := by
  refine ⟨?_, ?_⟩
  · rw [same]
    exact stands.lies.later steady
  · rw [same]
    exact steady.opens _ stands.opened

end Machine

end Lox
