import Lox.Proofs.History.Order
import Lox.Proofs.History.Origins
/-! What `this` and `super` mean. Wherever they are evaluated in a session, it is settled by the
class around them and by the receiver of the method call around them, and nothing that happens
changes it. -/

namespace Lox

open Scope History

/-! ## Declarations of classes -/

theorem exists_of_storeByName {name : Token} {value : Value} {machine after : Machine}
    (ended : Run.storeByName name value machine = .ok () after) :
    ∃ frame, after = machine.define frame name.lexeme value := by
  have ended : (Run.ofExcept (machine.forest.place machine.current name.lexeme) name >>= _)
    machine = .ok () after := ended
  cases placed : machine.forest.place machine.current name.lexeme <;> rw [placed] at ended <;>
    cases ended
  exact ⟨_, rfl⟩

theorem classes_storeByName {name : Token} {value : Value} {machine after : Machine}
    (ended : Run.storeByName name value machine = .ok () after) :
    after.classes = machine.classes := by
  obtain ⟨_, rfl⟩ := exists_of_storeByName ended
  rfl

theorem classes_declareClass {name : Token} {superclass : ClassId} {methods : List Routine}
    {machine after : Machine}
    (ended : declareClass name (some superclass) methods machine = .ok () after) :
    ∃ frame, after.classes =
      machine.classes.push ⟨name.lexeme, some superclass, methodTable frame methods⟩ :=
  ⟨_, classes_storeByName ended⟩

/-- The class that a declaration has made holds its methods, and inherits from the class that the
superclass was when it was evaluated. -/
theorem execute_classDecl {fuel : Nat} {name : Token} {superclass : Expr} {methods : List Routine}
    {machine after : Machine} {flow : Flow}
    (ended : execute (fuel + 1) (.classDecl name (some superclass) methods) machine =
      .ok flow after) :
    ∃ parent middle frame, evaluate fuel superclass machine = .ok (.classRef parent) middle ∧
      after.classes[middle.classes.size]? =
        some ⟨name.lexeme, some parent, methodTable frame methods⟩ := by
  rw [execute] at ended
  obtain ⟨value, middle, evaluated, ended⟩ := exists_of_bind_ok ended
  cases value with
  | classRef parent =>
      obtain ⟨_, final, declared, ended⟩ := exists_of_bind_ok ended
      cases ended
      obtain ⟨frame, classes⟩ := classes_declareClass declared
      refine ⟨parent, middle, frame, evaluated, ?_⟩
      rw [classes, Array.getElem?_push_size]
  | _ => cases ended

/-! ## Tasks -/

/-- The receiver is that of the method call around the code. A method of a superclass is looked for
from the class on from which the class around the code has been declared to inherit, whatever the
class of the receiver is. A function belongs to a method call as a method of its class, with its
receiver, or else it has been declared by other code. -/
def Task.Fixed (machine : Machine) (around : Option Activation) : Task → Prop
  | .evaluate (.this id keyword) => ∃ activation, around = some activation ∧
      machine.Declares activation.declarer id ∧
      ∀ fuel, Lox.evaluate (fuel + 1) (.this id keyword) machine =
        .ok (.object activation.receiver) machine
  | .evaluate (.super id keyword method) => ∃ activation info superclass,
      around = some activation ∧ machine.Declares activation.declarer id ∧
      machine.classes[activation.declarer]? = some info ∧ info.superclass = some superclass ∧
      ∀ fuel, Lox.evaluate (fuel + 1) (.super id keyword method) machine =
        (match machine.method? superclass method.lexeme with
          | some found => Run.bind found activation.receiver >>= Run.newFunction
          | none => Run.fault (.undefinedProperty method.lexeme) method) machine
  | .invoke closure _ => machine.Arises closure around
  | .execute (.classDecl name (some superclass) methods) => ∀ fuel flow after,
      Lox.execute (fuel + 1) (.classDecl name (some superclass) methods) machine = .ok flow after →
      ∃ parent middle frame, Lox.evaluate fuel superclass machine = .ok (.classRef parent) middle ∧
        after.classes[middle.classes.size]? =
          some ⟨name.lexeme, some parent, methodTable frame methods⟩
  | _ => True

theorem Task.Orderly.fixed {recorded : OccurrenceId → Option Nat → Prop} {machine : Machine}
    {owners : Array (Option Activation)} {around : Option Activation} {task : Task}
    (present : machine.Present recorded owners) (orderly : task.Orderly recorded machine around) :
    task.Fixed machine around := by
  cases task with
  | evaluate expr =>
      obtain ⟨scopes, stands, holds, declared⟩ := orderly
      cases expr with
      | this id keyword =>
          obtain ⟨spelled, distance, receives, known⟩ := holds
          obtain ⟨activation, belongs, read⟩ := present.readThis stands spelled receives known
          exact ⟨activation, belongs, declared activation belongs id (List.mem_singleton_self id),
            fun _ => read⟩
      | super id keyword method =>
          obtain ⟨spelled, distance, inherits, known⟩ := holds
          obtain ⟨activation, info, superclass, belongs, declarer, parent, _, read⟩ :=
            present.readSuper stands method spelled inherits known
          exact ⟨activation, info, superclass, belongs,
            declared activation belongs id (List.mem_singleton_self id), declarer, parent,
            fun _ => read⟩
      | _ => trivial
  | invoke closure arguments => exact orderly.1.arises
  | execute stmt =>
      cases stmt with
      | classDecl name superclass methods =>
          cases superclass with
          | none => trivial
          | some superclass => exact fun _ _ _ ended => execute_classDecl ended
      | _ => trivial
  | _ => trivial

/-! ## Sessions -/

/-- Classes are what they were, and so are the frames that bind a receiver or a superclass. -/
structure Machine.Settled (before after : Machine) : Prop where
  classes : ∀ (id : ClassId) (info : ClassInfo FrameId), before.classes[id]? = some info →
    after.classes[id]? = some info
  links : ∀ frame, before.Sealed frame →
    after.forest.enclosing? frame = before.forest.enclosing? frame
  binds : ∀ frame, before.Sealed frame → ∀ name,
    after.forest.own? frame name = before.forest.own? frame name

theorem Machine.Steady.settled {before after : Machine} (steady : Machine.Steady before after) :
    Machine.Settled before after where
  classes := steady.classes
  links frame known :=
    steady.links frame (known.elim Forest.lt_size_of_own? Forest.lt_size_of_own?)
  binds := steady.seals

/-- In every session `this` is the receiver of the method call around it, and `super` starts from
the superclass of the class around it: the one that its declaration had evaluated when it made the
class. What settles this never changes. -/
theorem receivers_fixed (fuel : Nat) (sink : Sink) (clock : Nat → Float) (sources : List String) :
    let ran := (History.Session.of (.start sink clock)).runAll fuel sources
    (ran.1, ran.2.forget) = (Session.start sink clock).runAll fuel sources ∧
    ∀ before moment after, ran.2.history = before ++ moment :: after →
      (∀ task, moment.event = .starts task → task.Fixed moment.machine moment.around) ∧
      (∀ (id : ClassId) (info : ClassInfo FrameId), moment.machine.classes[id]? = some info →
        ∃ declaration ∈ before, declaration.Makes info) ∧
      (∀ later ∈ after, moment.machine.Settled later.machine) ∧
      moment.machine.Settled ran.2.forget.machine := by
  intro ran
  have sound := ((History.Session.Sound.start sink clock).runAll fuel sources).sound
  have told := History.Session.told_runAll (History.Session.told_start sink clock) fuel sources
  refine ⟨?_, fun before moment after happened => ⟨?_, ?_, ?_, ?_⟩⟩
  · exact History.Session.runAll_forget fuel _ sources
  · intro task started
    have member : moment ∈ ran.2.history := by simp [happened]
    obtain ⟨recorded, present, orderly⟩ := sound.moments moment (List.mem_reverse.mp member)
    rw [started] at orderly
    exact Task.Orderly.fixed present orderly
  · intro id info found
    exact History.Session.exists_makes told happened found
  · have steadily : ran.2.history.Pairwise fun earlier later =>
        earlier.machine.Steady later.machine := List.pairwise_reverse.mpr sound.steadily
    rw [happened] at steadily
    have onward := (List.pairwise_append.mp steadily).2.1
    intro later member
    exact ((List.pairwise_cons.mp onward).1 later member).settled
  · have member : moment ∈ ran.2.history := by simp [happened]
    exact (sound.since moment (List.mem_reverse.mp member)).settled

end Lox
