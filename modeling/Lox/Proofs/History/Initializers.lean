import Lox.Proofs.History.Order
/-! What initializers return. An initializer becomes a value only after it has been bound, and
then it returns the instance that it has been bound to; a call of a class returns the instance
that it has made, which nothing could name before. -/

namespace Lox

open Scope History

/-! ## Bound initializers -/

namespace Machine

variable {machine after : Machine} {recorded : OccurrenceId → Option Nat → Prop}
  {owners : Array (Option Activation)} {owner : Option Activation} {closure : Closure FrameId}

/-- The frame of the function binds the receiver, an instance. -/
structure BoundTo (machine : Machine) (closure : Closure FrameId) (object : ObjectId) : Prop where
  receives : machine.forest.own? closure.place thisName = some (.object object)
  present : object < machine.objects.size

/-- The initializers among the functions are bound to instances. -/
def Initialized (machine : Machine) : Prop :=
  ∀ (id : Nat) (closure : Closure FrameId), machine.functions[id]? = some closure →
    closure.isInitializer = true → ∃ object, machine.BoundTo closure object

theorem BoundTo.later {object : ObjectId} (bound : machine.BoundTo closure object)
    (steady : Steady machine after) : after.BoundTo closure object where
  receives := (steady.seals _ (.inl (Option.isSome_of_eq_some bound.receives)) _).trans
    bound.receives
  present := Nat.lt_of_lt_of_le bound.present steady.objects_size

/-- A method is bound to its receiver. -/
theorem bind_boundTo (method : Closure FrameId) {object : ObjectId}
    (present : object < machine.objects.size) :
    ∃ place after, Run.bind method object machine = .ok { method with place := place } after ∧
      after.BoundTo { method with place := place } object := by
  refine ⟨machine.forest.size, machine.enclose method.place thisName (.object object), rfl, ?_,
    present⟩
  rw [own?_enclose, if_pos ⟨rfl, rfl⟩]

theorem Lodged.boundTo (present : machine.Present recorded owners)
    (lodged : machine.Lodged recorded closure owner) (initializer : closure.isInitializer = true) :
    ∃ activation, owner = some activation ∧ machine.BoundTo closure activation.receiver := by
  obtain ⟨activation, belongs, own⟩ := lodged.arises.receiver initializer
  exact ⟨activation, belongs, own, present.values _ _ _ own⟩

theorem Present.initialized (present : machine.Present recorded owners) : machine.Initialized := by
  intro id closure found initializer
  obtain ⟨activation, _, bound⟩ := (present.functions id closure found).boundTo present initializer
  exact ⟨activation.receiver, bound⟩

/-- However the body of an initializer ends, the call returns the instance. -/
theorem Lodged.invoke_returns (present : machine.Present recorded owners)
    (lodged : machine.Lodged recorded closure owner) {arguments : List Value}
    (all : machine.HasAll arguments) (initializer : closure.isInitializer = true) :
    ∃ object, machine.BoundTo closure object ∧ ∀ fuel value after,
      invoke fuel closure arguments machine = .ok value after → value = .object object := by
  obtain ⟨activation, belongs, bound⟩ := lodged.boundTo present initializer
  refine ⟨activation.receiver, bound, fun fuel value after ended => ?_⟩
  -- The recorded run starts with nothing written down, so only the machine has to be in order.
  have sound : Chronicle.Sound recorded ⟨machine, owners, []⟩ :=
    ⟨present, by simp, .nil, by simp⟩
  have carries := (preserves recorded fuel).invoke sound lodged all
  have records := (compatible_records.corresponds fuel).invoke owner closure arguments
    ⟨machine, owners, []⟩
  rw [ended] at records
  cases done : History.invoke fuel owner closure arguments ⟨machine, owners, []⟩ with
  | ok given left =>
      rw [done] at records
      cases records
      exact (carries.yields _ _ done).2 initializer activation belongs
  | error stop left =>
      rw [done] at records
      cases records

end Machine

/-! ## Calls -/

/-- The call of a function that completes is a call of its closure. -/
theorem call_function {fuel : Nat} {id : Nat} {paren : Token} {arguments : List Value}
    {machine after : Machine} {value : Value} {closure : Closure FrameId}
    (found : machine.functions[id]? = some closure)
    (ended : call fuel (.function id) paren arguments machine = .ok value after) :
    ∃ further, invoke further closure arguments machine = .ok value after := by
  cases fuel with
  | zero => cases ended
  | succ fuel =>
      rw [call] at ended
      obtain ⟨_, _, looked, ended⟩ := exists_of_bind_ok ended
      cases looked
      have arity : machine.arity? (.function id) = some closure.routine.arity := by
        rw [Heap.arity?, found]
        rfl
      rw [arity] at ended
      have ended : (if arguments.length ≠ closure.routine.arity then (_ : Run Value) else _)
        machine = .ok value after := ended
      by_cases differs : arguments.length ≠ closure.routine.arity
      · rw [if_pos differs] at ended
        cases ended
      · rw [if_neg differs] at ended
        obtain ⟨_, _, looked, ended⟩ := exists_of_bind_ok ended
        cases looked
        rw [found] at ended
        exact ⟨fuel, ended⟩

theorem call_class {fuel : Nat} {id : ClassId} {paren : Token} {arguments : List Value}
    {machine after : Machine} {value : Value}
    (ended : call fuel (.classRef id) paren arguments machine = .ok value after) :
    ∃ further, instantiate further id arguments machine = .ok value after := by
  cases fuel with
  | zero => cases ended
  | succ fuel =>
      rw [call] at ended
      obtain ⟨_, _, looked, ended⟩ := exists_of_bind_ok ended
      cases looked
      rw [Heap.arity?] at ended
      dsimp only at ended
      split at ended
      · cases ended
      · exact ⟨fuel, ended⟩

/-- The instance that is made is the next one, and its class stays. -/
theorem instantiate_ok {fuel : Nat} {id : ClassId} {arguments : List Value}
    {machine after : Machine} {value : Value}
    (ended : instantiate fuel id arguments machine = .ok value after) :
    value = .object machine.objects.size ∧ ∃ object : Instance,
      after.objects[machine.objects.size]? = some object ∧ object.classId = id := by
  cases fuel with
  | zero => cases ended
  | succ fuel =>
      rw [instantiate] at ended
      obtain ⟨_, made, new, ended⟩ := exists_of_bind_ok ended
      cases new
      obtain ⟨_, _, looked, ended⟩ := exists_of_bind_ok ended
      cases looked
      have here : (machine.onHeap (·.addObject ⟨id, ∅⟩)).objects[machine.objects.size]? =
          some ⟨id, ∅⟩ := Array.getElem?_push_size
      cases found : (machine.onHeap (·.addObject ⟨id, ∅⟩)).method? id initializerName with
      | some initializer =>
          rw [found] at ended
          obtain ⟨closure, bound, binding, ended⟩ := exists_of_bind_ok ended
          obtain ⟨_, final, invoked, ended⟩ := exists_of_bind_ok ended
          cases ended
          have first := Run.closed_keeps.bindTo initializer machine.objects.size
            (machine.onHeap (·.addObject ⟨id, ∅⟩))
          have second := (code_keeps fuel).invoke none closure arguments bound
          rw [binding] at first
          rw [invoked] at second
          exact ⟨rfl, (first.trans second).objects _ _ here⟩
      | none =>
          rw [found] at ended
          cases ended
          exact ⟨rfl, _, here, rfl⟩

/-- What a call returns that completes: that of a class the next instance, which is of this class;
that of an initializer the instance that it is bound to. -/
def Task.Initializes (machine : Machine) : Task → Prop
  | .call (.classRef id) paren arguments => ∀ fuel value after,
      Lox.call fuel (.classRef id) paren arguments machine = .ok value after →
      value = .object machine.objects.size ∧ ∃ object : Instance,
        after.objects[machine.objects.size]? = some object ∧ object.classId = id
  | .call (.function id) paren arguments => ∀ closure : Closure FrameId,
      machine.functions[id]? = some closure → closure.isInitializer = true →
      ∃ object, machine.BoundTo closure object ∧ ∀ fuel value after,
        Lox.call fuel (.function id) paren arguments machine = .ok value after →
        value = .object object
  | .invoke closure arguments => closure.isInitializer = true →
      ∃ object, machine.BoundTo closure object ∧ ∀ fuel value after,
        Lox.invoke fuel closure arguments machine = .ok value after → value = .object object
  | _ => True

theorem Task.Orderly.initializes {recorded : OccurrenceId → Option Nat → Prop} {machine : Machine}
    {owners : Array (Option Activation)} {around : Option Activation} {task : Task}
    (present : machine.Present recorded owners) (orderly : task.Orderly recorded machine around) :
    task.Initializes machine := by
  cases task with
  | call callee paren arguments =>
      cases callee with
      | classRef id =>
          intro fuel value after ended
          obtain ⟨further, ended⟩ := call_class ended
          exact instantiate_ok ended
      | function id =>
          intro closure found initializer
          obtain ⟨object, bound, returns⟩ :=
            (present.functions id closure found).invoke_returns present orderly.2 initializer
          refine ⟨object, bound, fun fuel value after ended => ?_⟩
          obtain ⟨further, ended⟩ := call_function found ended
          exact returns further value after ended
      | _ => trivial
  | invoke closure arguments => exact orderly.1.invoke_returns present orderly.2
  | _ => trivial

/-! ## What is mentioned -/

def Task.Mentions (value : Value) : Task → Prop
  | .store _ _ stored => stored = value
  | .call callee _ arguments => callee = value ∨ value ∈ arguments
  | .invoke _ arguments => value ∈ arguments
  | .instantiate _ arguments => value ∈ arguments
  | _ => False

namespace History

def Event.Mentions (value : Value) : Event → Prop
  | .starts task => task.Mentions value
  | .yields _ other => other = value
  | .prints other => other = value
  | .passes => False

/-- The value is bound in a frame, or it stands in a field, or else in what happens. -/
inductive Moment.Mentions (moment : Moment) (value : Value) : Prop
  | bound {frame name} : moment.machine.forest.own? frame name = some value →
      Moment.Mentions moment value
  | field {id : ObjectId} {object : Instance} {name} : moment.machine.objects[id]? = some object →
      object.fields.find? name = some value → Moment.Mentions moment value
  | event : moment.event.Mentions value → Moment.Mentions moment value

theorem Event.Orderly.has {recorded : OccurrenceId → Option Nat → Prop} {machine : Machine}
    {around : Option Activation} {event : Event} (orderly : event.Orderly recorded machine around)
    {value : Value} (mentions : event.Mentions value) : machine.Has value := by
  cases event with
  | starts task =>
      cases task with
      | store id name stored => exact mentions ▸ orderly
      | call callee paren arguments =>
          rcases mentions with same | member
          · exact same ▸ orderly.1
          · exact orderly.2 value member
      | invoke closure arguments => exact orderly.2 value mentions
      | instantiate id arguments => exact orderly value mentions
      | _ => cases mentions
  | yields expr other => exact mentions ▸ orderly
  | prints other => exact mentions ▸ orderly
  | passes => cases mentions

/-- What is mentioned is there. -/
theorem Moment.Orderly.has {moment : Moment} (orderly : moment.Orderly) {value : Value}
    (mentions : moment.Mentions value) : moment.machine.Has value := by
  obtain ⟨recorded, present, happens⟩ := orderly
  cases mentions with
  | bound binds => exact present.values _ _ _ binds
  | field known found => exact present.fields _ _ _ _ known found
  | event mentions => exact happens.has mentions

end History

/-! ## Sessions -/

/-- In every session each initializer among the functions is bound to an instance, and stays bound
to it. A call of it that completes returns that instance; a call of a class that completes
returns a new instance of this class, which has not been mentioned before. -/
theorem initializers_return_instances (fuel : Nat) (sink : Sink) (clock : Nat → Float)
    (sources : List String) :
    let ran := (History.Session.of (.start sink clock)).runAll fuel sources
    (ran.1, ran.2.forget) = (Session.start sink clock).runAll fuel sources ∧
    ran.2.forget.machine.Initialized ∧
    (∀ moment ∈ ran.2.history, moment.machine.Initialized ∧
      (∀ task, moment.event = .starts task → task.Initializes moment.machine) ∧
      ¬ moment.Mentions (.object moment.machine.objects.size)) ∧
    (ran.2.history.Pairwise fun earlier later =>
      (∀ closure object, earlier.machine.BoundTo closure object →
        later.machine.BoundTo closure object) ∧
      ¬ earlier.Mentions (.object later.machine.objects.size)) ∧
    ∀ (machine : Machine) (method : Closure FrameId) (object : ObjectId),
      object < machine.objects.size →
      ∃ place after, Run.bind method object machine = .ok { method with place := place } after ∧
        after.BoundTo { method with place := place } object := by
  intro ran
  have sound := ((History.Session.Sound.start sink clock).runAll fuel sources).sound
  refine ⟨?_, sound.present.initialized, ?_, ?_, ?_⟩
  · exact History.Session.runAll_forget fuel _ sources
  · intro moment member
    have orderly := sound.moments moment (List.mem_reverse.mp member)
    refine ⟨?_, ?_, fun mentions => absurd (orderly.has mentions) (Nat.lt_irrefl _)⟩
    · obtain ⟨recorded, present, _⟩ := orderly
      exact present.initialized
    · obtain ⟨recorded, present, happens⟩ := orderly
      intro task started
      rw [started] at happens
      exact Task.Orderly.initializes present happens
  · apply List.pairwise_reverse.mpr
    apply sound.steadily.imp_of_mem
    intro later earlier _ member steady
    refine ⟨fun closure object bound => bound.later steady, fun mentions => ?_⟩
    have known := (sound.moments earlier member).has mentions
    exact absurd (Nat.lt_of_lt_of_le known steady.objects_size) (Nat.lt_irrefl _)
  · intro machine method object present
    exact Machine.bind_boundTo method present

end Lox
