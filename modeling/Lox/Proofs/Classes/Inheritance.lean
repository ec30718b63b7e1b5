import Lox.Proofs.Classes.Ancestry
import Lox.Proofs.Classes.Calls
import Lox.Proofs.History.Order
import Lox.Proofs.Fields.Tracing
/-! Inheritance in sessions. At every moment of a session each class has a chain of superclasses
that ends, though names can be declared again so that they look like a cycle; and whatever is
started is given the arguments that it takes. -/

namespace Lox

open History

/-! ## A name that is declared again

A class inherits from a class that inherits from a class of the same name. The initializer of the
first one is called for an instance of the last one. -/

namespace Redeclared

def name (lexeme : String) : Token := ⟨.identifier, lexeme, 1⟩

def program : List Stmt :=
  [.classDecl (name "A") none [.mk (name "init") [name "a"] []],
    .classDecl (name "B") (some (.read 0 (name "A"))) [],
    .classDecl (name "A") (some (.read 1 (name "B"))) [],
    .expression (.call (.read 2 (name "A")) ⟨.mark .rightParen, ")", 1⟩ [.literal .nil])]

def start : History.Session := .of (.start .unlimited fun _ => 0)

def ended : Chronicle := leftBy (History.executeProgram 9 program start.chronicle)

theorem chronicle_run :
    (start.runAll 9 ["class A{init(a){}}class B<A{}class A<B{}A(nil);"]).2.chronicle = ended := by
  have source : readSource "class A{init(a){}}class B<A{}class A<B{}A(nil);" 0 =
      ⟨[], program, 3⟩ := by
    with_unfolding_all rfl
  have resolved : resolve program = ⟨∅, []⟩ := by
    with_unfolding_all rfl
  show (start.run 9 "class A{init(a){}}class B<A{}class A<B{}A(nil);").2.chronicle = _
  rw [History.Session.run, show start.nextId = 0 from rfl, source]
  dsimp only
  rw [resolved]
  exact congrArg (·.chronicle) (History.Session.ended_snd 3 _)

theorem names_ended : ended.classes.toList.map ClassInfo.name = ["A", "B", "A"] := by
  decide +kernel

theorem ancestry_ended : ended.Ancestry 2 [2, 1, 0] := by
  have last : ended.Extends 2 1 := Option.bind_eq_some_iff.mp (by decide +kernel)
  have middle : ended.Extends 1 0 := Option.bind_eq_some_iff.mp (by decide +kernel)
  have first : ended.classes[0]?.map ClassInfo.superclass = some none := by decide +kernel
  obtain ⟨info, known, plain⟩ := Option.map_eq_some_iff.mp first
  exact .derived last (.derived middle (.outermost known plain))

/-- A body with this parameter begins, with `nil` for it. -/
def begins (parameter : Token) : Event → Bool
  | .starts (.invoke closure arguments) =>
      closure.routine.parameters = [parameter] ∧ arguments = [.nil]
  | _ => false

theorem exists_begins : ∃ moment before closure, moment :: before <:+ ended.past ∧
    moment.event = .starts (.invoke closure [.nil]) ∧
    closure.routine.parameters = [name "a"] := by
  have once : ended.past.any (begins (name "a") ·.event) = true := by
    decide +kernel
  obtain ⟨moment, member, begun⟩ := List.any_eq_true.mp once
  obtain ⟨after, before, past⟩ := List.append_of_mem member
  cases happens : moment.event with
  | starts task =>
      rw [happens] at begun
      cases task with
      | invoke closure arguments =>
          obtain ⟨parameters, rfl⟩ := of_decide_eq_true begun
          exact ⟨moment, before, closure, ⟨after, past.symm⟩, happens, parameters⟩
      | _ => cases begun
  | _ =>
      rw [happens] at begun
      cases begun

end Redeclared

/-! ## Sessions -/

/-- In every session, at each moment and at the end, no class is above itself, and each has one
chain of superclasses, whatever they are called. Looking for a method ends with the last one of its
name in the first body of the chain that has one. A class is given as many arguments as the
initializer that is found so has parameters, and what is invoked one for each parameter: all are
bound when the body begins. -/
theorem inheritance_acyclic (fuel : Nat) (sink : Sink) (clock : Nat → Float)
    (sources : List String) :
    let ran := (History.Session.of (.start sink clock)).runAll fuel sources
    (ran.1, ran.2.forget) = (Session.start sink clock).runAll fuel sources ∧
    ran.2.forget.machine.Lineal ran.2.chronicle.past ∧
    ∀ moment before, moment :: before <:+ ran.2.chronicle.past →
      moment.machine.Lineal before ∧
      ∀ task, moment.event = .starts task → task.Furnished moment.machine := by
  intro ran
  have sound := ((History.Session.Sound.start sink clock).runAll fuel sources).sound
  have traced := History.Session.traced_runAll (History.Session.traced_start sink clock) fuel sources
  have told := History.Session.told_runAll (History.Session.told_start sink clock) fuel sources
  have accounted : ran.2.Accounted sink clock fuel :=
    History.Session.Accounted.start.runAll sources
  have layered := traced.grounded.parents
  refine ⟨History.Session.runAll_forget fuel _ sources, layered.lineal told.now, ?_⟩
  intro moment before within
  have member : moment ∈ ran.2.chronicle.past := within.subset List.mem_cons_self
  refine ⟨?_, fun task started => ?_⟩
  · apply (layered.of_later (sound.since moment member).toLater).lineal
    exact told.always moment before within
  · obtain ⟨recorded, _, orderly⟩ := sound.moments moment member
    rw [started] at orderly
    obtain ⟨earlier, source, _, _, reaches⟩ := accounted.executed moment member task started
    exact reaches.supplied.furnished orderly

/-- The last class has the name of the first one, from which it inherits through another class. It
is not above itself, and the parameter of the initializer that it inherits is bound. -/
theorem inheritance_acyclic_redeclared :
    let ran := (History.Session.of (.start .unlimited fun _ => 0)).runAll 9
      ["class A{init(a){}}class B<A{}class A<B{}A(nil);"]
    let machine := ran.2.forget.machine
    machine.classes.toList.map ClassInfo.name = ["A", "B", "A"] ∧
    machine.Ancestry 2 [2, 1, 0] ∧ ¬ Relation.TransGen machine.Extends 2 2 ∧
    ∃ moment before closure, moment :: before <:+ ran.2.chronicle.past ∧
      moment.event = .starts (.invoke closure [.nil]) ∧
      (moment.machine.enterCall closure [.nil]).forest.own?
        (moment.machine.enterCall closure [.nil]).current "a" = some .nil := by
  intro ran machine
  have holds := inheritance_acyclic 9 .unlimited (fun _ => 0)
    ["class A{init(a){}}class B<A{}class A<B{}A(nil);"]
  have same : ran.2.chronicle = Redeclared.ended := Redeclared.chronicle_run
  have known : machine = Redeclared.ended.toMachine := congrArg (·.toMachine) same
  obtain ⟨moment, before, closure, within, happens, parameters⟩ := Redeclared.exists_begins
  refine ⟨?_, ?_, holds.2.1.acyclic 2, moment, before, closure, same ▸ within, happens, ?_⟩
  · rw [known]
    exact Redeclared.names_ended
  · rw [known]
    exact Redeclared.ancestry_ended
  · have furnished := (holds.2.2 moment before (same ▸ within)).2 _ happens
    obtain ⟨_, _, binds, _⟩ := furnished
    obtain ⟨argument, given, bound⟩ := binds 0 (Redeclared.name "a") (by rw [parameters]; rfl)
    cases given
    exact bound

end Lox
