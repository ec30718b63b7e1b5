import Lox.Proofs.History.Progress
import Lox.Proofs.History.Reaching
import Lox.Proofs.Lexical.Steps
/-! What calls are given. Arguments are counted before anything is started, and what is started then
takes as many: a class those of the initializer that its instance runs, and a body one for each
parameter, which are all bound when the body begins. -/

namespace Lox

/-! ## Frames with several names -/

namespace Forest

variable {α : Type} {forest : Forest α} {frame : FrameId} {name : String} {value : α}
  {entries : List (String × α)}

theorem own?_defineAll_of_not_mem (absent : name ∉ entries.map Prod.fst) (other : FrameId) :
    (forest.defineAll frame entries).own? other name = forest.own? other name := by
  induction entries generalizing forest with
  | nil => rfl
  | cons entry rest induction =>
      have ⟨different, absent⟩ : name ≠ entry.1 ∧ name ∉ rest.map Prod.fst := by
        simpa using absent
      calc ((forest.define frame entry.1 entry.2).defineAll frame rest).own? other name
        _ = (forest.define frame entry.1 entry.2).own? other name := induction absent
        _ = forest.own? other name := own?_define_other _ _ _ _ _ _ (.inr different)

/-- Of names that are all different each keeps its value. -/
theorem own?_defineAll (present : frame < forest.size) (distinct : (entries.map Prod.fst).Nodup)
    (member : (name, value) ∈ entries) :
    (forest.defineAll frame entries).own? frame name = some value := by
  induction entries generalizing forest with
  | nil => cases member
  | cons entry rest induction =>
      have ⟨new, distinct⟩ := List.nodup_cons.mp distinct
      rcases List.mem_cons.mp member with same | member
      · subst same
        exact (own?_defineAll_of_not_mem new frame).trans (own?_define_same _ present name value)
      · apply induction _ distinct member
        rw [size_define]
        exact present

end Forest

/-! ## Bodies -/

/-- The machine on which the body of a function runs: in a new frame inside the one in which the
function stands, with the parameters bound to the arguments. -/
def Machine.enterCall (machine : Machine) (closure : Closure FrameId) (arguments : List Value) :
    Machine :=
  { machine with
    current := machine.forest.size
    forest := (machine.forest.addChild closure.place).defineAll machine.forest.size
      ((closure.routine.parameters.map Token.lexeme).zip arguments) }

/-- The answer of a call whose body has ended in this way: an initializer answers its receiver. -/
def Closure.answer (closure : Closure FrameId) (machine : Machine) (flow : Flow) : Value :=
  if closure.isInitializer then (machine.forest.own? closure.place thisName).getD .nil
  else match flow with
    | .returned value => value
    | .normal => .nil

/-- A call ends as its body has ended, and the caller goes on in its own frame. -/
def Closure.leaveCall (closure : Closure FrameId) (caller : FrameId) :
    EStateM.Result Stop Machine Flow → EStateM.Result Stop Machine Value
  | .ok flow after => .ok (closure.answer after flow) { after with current := caller }
  | .error stop after => .error stop { after with current := caller }

theorem invoke_succ_eq (fuel : Nat) (closure : Closure FrameId) (arguments : List Value)
    (machine : Machine) :
    invoke (fuel + 1) closure arguments machine = closure.leaveCall machine.current
      (executeAll fuel closure.routine.body (machine.enterCall closure arguments)) := by
  have ran : Run.inside machine.forest.size (executeAll fuel closure.routine.body)
      { machine.enterCall closure arguments with current := machine.current } =
      endIn (fun after => { after with current := machine.current })
        (executeAll fuel closure.routine.body (machine.enterCall closure arguments)) :=
    History.run_inside_apply _ _ _
  show (Run.inside machine.forest.size (executeAll fuel closure.routine.body) >>= _)
    { machine.enterCall closure arguments with current := machine.current } = _
  rw [bind_apply, ran]
  cases executeAll fuel closure.routine.body (machine.enterCall closure arguments) with
  | error stop after => rfl
  | ok flow after =>
      simp only [endIn, Closure.leaveCall, Closure.answer]
      cases closure.isInitializer with
      | true => rfl
      | false => cases flow <;> rfl

theorem Machine.own?_enterCall {machine : Machine} {closure : Closure FrameId}
    {arguments : List Value} (enough : arguments.length = closure.routine.arity)
    (distinct : (closure.routine.parameters.map Token.lexeme).Nodup) {index : Nat}
    {parameter : Token} (takes : closure.routine.parameters[index]? = some parameter) :
    ∃ argument, arguments[index]? = some argument ∧
      (machine.enterCall closure arguments).forest.own?
        (machine.enterCall closure arguments).current parameter.lexeme = some argument := by
  have within := (List.getElem?_eq_some_iff.mp takes).1
  have given : index < arguments.length := enough ▸ within
  let entries := (closure.routine.parameters.map Token.lexeme).zip arguments
  have names : entries.map Prod.fst = closure.routine.parameters.map Token.lexeme := by
    apply List.map_fst_zip
    simp [enough, Routine.arity]
  have entry : entries[index]? = some (parameter.lexeme, arguments[index]) := by
    simp [entries, List.getElem?_zip_eq_some, takes, given]
  have present := machine.forest.size_lt_addChild closure.place
  refine ⟨arguments[index], List.getElem?_eq_getElem given, ?_⟩
  exact Forest.own?_defineAll present (by rwa [names]) (List.mem_of_getElem? entry)

/-! ## Instances -/

theorem call_class_eq {machine : Machine} {id : ClassId} {count : Nat}
    (takes : machine.arity? (.classRef id) = some count) (fuel : Nat) (paren : Token)
    (arguments : List Value) :
    call (fuel + 1) (.classRef id) paren arguments machine =
      if arguments.length = count then instantiate fuel id arguments machine
      else .error (.fault (.wrongArgumentCount count arguments.length) paren.line) machine := by
  rw [call, get_bind_apply, takes]
  show (if arguments.length ≠ count then _ else _ : Run Value) machine = _
  by_cases enough : arguments.length = count
  · rw [if_neg (not_not.mpr enough), if_pos enough]
  · rw [if_pos enough, if_neg enough]
    rfl

/-- The machine with a new instance of the class that has no fields yet. -/
def Machine.addInstance (machine : Machine) (id : ClassId) : Machine :=
  machine.onHeap (·.addObject ⟨id, ∅⟩)

theorem Machine.method?_addInstance (machine : Machine) (id other : ClassId) (name : String) :
    (machine.addInstance id).method? other name = machine.method? other name := by
  have same : (machine.addInstance id).classes = machine.classes := rfl
  exact Lexical.method?_of_classes same other name

theorem instantiate_succ_eq (fuel : Nat) (id : ClassId) (arguments : List Value)
    (machine : Machine) :
    instantiate (fuel + 1) id arguments machine =
      match machine.method? id initializerName with
      | none => .ok (.object machine.objects.size) (machine.addInstance id)
      | some initializer =>
          (do
            let _ ← invoke fuel { initializer with place := machine.forest.size } arguments
            return Value.object machine.objects.size)
          ((machine.addInstance id).enclose initializer.place thisName
            (.object machine.objects.size)) := by
  have made : Run.newObject id machine = .ok machine.objects.size (machine.addInstance id) := rfl
  rw [← machine.method?_addInstance id, instantiate]
  apply bind_ok made
  rw [get_bind_apply]
  cases (machine.addInstance id).method? id initializerName <;> rfl

/-! ## Tasks -/

/-- An invocation is given one argument for each parameter, and an instance as many as its class
takes. -/
def Task.Supplied (machine : Machine) : Task → Prop
  | .invoke closure arguments => arguments.length = closure.routine.arity
  | .instantiate id arguments => machine.arity? (.classRef id) = some arguments.length
  | _ => True

/-- A class takes the arguments of its initializer. -/
theorem Heap.length_of_arity? {Place : Type} {heap : Heap Place} {id : ClassId} {count : Nat}
    {initializer : Closure Place} (takes : heap.arity? (.classRef id) = some count)
    (found : heap.method? id initializerName = some initializer) :
    count = initializer.routine.arity := by
  rw [Heap.arity?, found] at takes
  exact (Option.some.inj takes).symm

/-- What is started is given what it takes, if the task itself is. -/
theorem Starts.supplied {fuel : Nat} {task part : Task} {machine middle : Machine}
    (starts : Starts fuel task machine part middle) (supplied : task.Supplied machine) :
    part.Supplied middle := by
  cases starts with
  | function _ enough => exact enough
  | constructor takes => exact takes
  | @initializer id arguments object initializer closure _ made bound created found binds =>
      cases created
      cases binds
      have found : machine.method? id initializerName = some initializer :=
        (machine.method?_addInstance id id initializerName).symm.trans found
      have enough : arguments.length = initializer.routine.arity :=
        Heap.length_of_arity? supplied found
      exact enough
  | _ => trivial

theorem Reaches.supplied {fuel : Nat} {task last : Task} {machine final : Machine}
    (reaches : Reaches fuel task machine last final) (supplied : task.Supplied machine) :
    last.Supplied final := by
  induction reaches with
  | here => exact supplied
  | part starts _ induction => exact induction (starts.supplied supplied)

theorem ProgramReaches.supplied {fuel : Nat} {stmts : List Stmt} {machine final : Machine}
    {task : Task} (reaches : ProgramReaches fuel stmts machine task final) :
    task.Supplied final := by
  induction reaches with
  | first reaches => exact reaches.supplied trivial
  | following _ _ induction => exact induction

/-- The arguments that a class is given are counted; they are as many as the parameters of the
initializer that its instance then runs, and none if there is no initializer. So all parameters of a
body are bound when it begins. -/
def Task.Furnished (machine : Machine) : Task → Prop
  | .call (.classRef id) paren arguments => ∃ count,
      machine.arity? (.classRef id) = some count ∧
      ∀ fuel, Lox.call (fuel + 1) (.classRef id) paren arguments machine =
        if arguments.length = count then Lox.instantiate fuel id arguments machine
        else .error (.fault (.wrongArgumentCount count arguments.length) paren.line) machine
  | .instantiate id arguments =>
      machine.arity? (.classRef id) = some arguments.length ∧
      (∀ initializer, machine.method? id initializerName = some initializer →
        arguments.length = initializer.routine.arity) ∧
      (machine.method? id initializerName = none → arguments = []) ∧
      ∀ fuel, Lox.instantiate (fuel + 1) id arguments machine =
        match machine.method? id initializerName with
        | none => .ok (.object machine.objects.size) (machine.addInstance id)
        | some initializer =>
            (do
              let _ ← Lox.invoke fuel { initializer with place := machine.forest.size } arguments
              return Value.object machine.objects.size)
            ((machine.addInstance id).enclose initializer.place thisName
              (.object machine.objects.size))
  | .invoke closure arguments =>
      arguments.length = closure.routine.arity ∧
      (closure.routine.parameters.map Token.lexeme).Nodup ∧
      (∀ (index : Nat) (parameter : Token), closure.routine.parameters[index]? = some parameter →
        ∃ argument, arguments[index]? = some argument ∧
          (machine.enterCall closure arguments).forest.own?
            (machine.enterCall closure arguments).current parameter.lexeme = some argument) ∧
      ∀ fuel, Lox.invoke (fuel + 1) closure arguments machine =
        closure.leaveCall machine.current
          (Lox.executeAll fuel closure.routine.body (machine.enterCall closure arguments))
  | _ => True

theorem Routine.Scoped.nodup {recorded : OccurrenceId → Option Nat → Prop}
    {scopes : List Scope} {routine : Routine} (holds : routine.Scoped recorded scopes) :
    (routine.parameters.map Token.lexeme).Nodup := by
  cases routine with
  | mk name parameters body => exact holds.2.2.1

theorem Task.Supplied.furnished {recorded : OccurrenceId → Option Nat → Prop} {machine : Machine}
    {around : Option History.Activation} {task : Task} (supplied : task.Supplied machine)
    (orderly : task.Orderly recorded machine around) : task.Furnished machine := by
  cases task with
  | call callee paren arguments =>
      cases callee with
      | classRef id => exact ⟨_, rfl, fun fuel => call_class_eq rfl fuel paren arguments⟩
      | _ => trivial
  | instantiate id arguments =>
      refine ⟨supplied, fun initializer found => Heap.length_of_arity? supplied found, ?_, ?_⟩
      · intro none
        have takes : machine.arity? (.classRef id) = some arguments.length := supplied
        rw [Heap.arity?, none] at takes
        exact List.eq_nil_of_length_eq_zero (Option.some.inj takes).symm
      · exact fun fuel => instantiate_succ_eq fuel id arguments machine
  | invoke closure arguments =>
      obtain ⟨scopes, _, holds⟩ := orderly.1.stands
      refine ⟨supplied, holds.nodup, fun index parameter takes => ?_, ?_⟩
      · exact Machine.own?_enterCall supplied holds.nodup takes
      · exact fun fuel => invoke_succ_eq fuel closure arguments machine
  | _ => trivial

end Lox
