import Lox.Proofs.History.Advance
import Lox.Proofs.Lexical.Presence
/-! What fails by itself. A task that fails does so because a part of it fails, or because of its
own step, once the parts that this step needs are done. The step of a task that ends with a fault
leaves the machine as the last part has left it. -/

namespace Lox

/-! ## Failing -/

/-- With this much fuel the task fails on the machine, and leaves another one. -/
def Task.Fails (fuel : Nat) (machine : Machine) (stop : Stop) (after : Machine) : Task → Prop
  | .evaluate expr => Lox.evaluate fuel expr machine = .error stop after
  | .evaluateAll exprs => Lox.evaluateAll fuel exprs machine = .error stop after
  | .store id name value => Run.store id name value machine = .error stop after
  | .call callee paren arguments => Lox.call fuel callee paren arguments machine = .error stop after
  | .invoke closure arguments => Lox.invoke fuel closure arguments machine = .error stop after
  | .instantiate id arguments => Lox.instantiate fuel id arguments machine = .error stop after
  | .execute stmt => Lox.execute fuel stmt machine = .error stop after
  | .executeAll stmts => Lox.executeAll fuel stmts machine = .error stop after

/-- Nothing is different but where the code stands. -/
def Machine.Unchanged (before after : Machine) : Prop :=
  after = { before with current := after.current }

/-- Why a call does not start: the value cannot be called, or not with so many arguments. -/
def Heap.refusal? {Place : Type} (heap : Heap Place) (callee : Value) (given : Nat) :
    Option RuntimeFault :=
  match heap.arity? callee with
  | none => some .notCallable
  | some arity => if given ≠ arity then some (.wrongArgumentCount arity given) else none

/-- What a property access does once it has its object. -/
def Run.propertyOf (name : Token) : Value → Run Value
  | .object id => Run.property id name
  | _ => Run.fault .noProperties name

/-- The task has been started on the first machine. What its own step needs has been evaluated, the
last of it has left the second machine, and there the step fails. Assignments and calls have their
own steps as tasks of their own. -/
inductive Raises (fuel : Nat) (stop : Stop) (after : Machine) : Task → Machine → Machine → Prop
  | unary {operator right value machine before} :
      evaluate fuel right machine = .ok value before →
      Run.ofExcept (applyUnary operator value) operator before = .error stop after →
      Raises fuel stop after (.evaluate (.unary operator right)) machine before
  | binary {left operator right first second machine middle before} :
      evaluate fuel left machine = .ok first middle →
      evaluate fuel right middle = .ok second before →
      Run.ofExcept (applyBinary operator first second) operator before = .error stop after →
      Raises fuel stop after (.evaluate (.binary left operator right)) machine before
  | read {id name machine} : Run.lookUp id name machine = .error stop after →
      Raises fuel stop after (.evaluate (.read id name)) machine machine
  | this {id keyword machine} : Run.lookUp id keyword machine = .error stop after →
      Raises fuel stop after (.evaluate (.this id keyword)) machine machine
  | super {id keyword method machine} :
      readSuperMethod id keyword method machine = .error stop after →
      Raises fuel stop after (.evaluate (.super id keyword method)) machine machine
  | get {object name value machine before} : evaluate fuel object machine = .ok value before →
      Run.propertyOf name value before = .error stop after →
      Raises fuel stop after (.evaluate (.get object name)) machine before
  | set {object name expr value machine before} : evaluate fuel object machine = .ok value before →
      (∀ id, value ≠ .object id) →
      (Run.fault .noFields name : Run Value) before = .error stop after →
      Raises fuel stop after (.evaluate (.set object name expr)) machine before
  | store {id name value machine} : Run.store id name value machine = .error stop after →
      Raises fuel stop after (.store id name value) machine machine
  | call {callee paren arguments problem machine} :
      machine.refusal? callee arguments.length = some problem →
      (Run.fault problem paren : Run Value) machine = .error stop after →
      Raises fuel stop after (.call callee paren arguments) machine machine
  | print {expr value machine before} : evaluate fuel expr machine = .ok value before →
      Run.print value before = .error stop after →
      Raises fuel stop after (.execute (.print expr)) machine before
  | superclass {name superclass methods value machine before} :
      evaluate fuel superclass machine = .ok value before → (∀ id, value ≠ .classRef id) →
      (Run.fault .superclassNotClass (superclassBlame name superclass) : Run Flow) before =
        .error stop after →
      Raises fuel stop after (.execute (.classDecl name (some superclass) methods)) machine before
  | plain {name methods machine} : declareClass name none methods machine = .error stop after →
      Raises fuel stop after (.execute (.classDecl name none methods)) machine machine
  | derived {name superclass methods id machine before} :
      evaluate fuel superclass machine = .ok (.classRef id) before →
      declareClass name (some id) methods before = .error stop after →
      Raises fuel stop after (.execute (.classDecl name (some superclass) methods)) machine before

theorem error_of_bind {State α β : Type} {first : EStateM Stop State α}
    {next : α → EStateM Stop State β} {state after : State} {stop : Stop}
    (failed : (first >>= next) state = .error stop after) :
    first state = .error stop after ∨
      ∃ value middle, first state = .ok value middle ∧ next value middle = .error stop after := by
  rw [bind_apply] at failed
  cases ended : first state with
  | ok value middle =>
      rw [ended] at failed
      exact .inr ⟨value, middle, rfl, failed⟩
  | error other middle =>
      rw [ended] at failed
      cases failed
      exact .inl rfl

/-! ## Steps that fail -/

namespace Run

variable {α : Type} {machine after : Machine} {stop : Stop}

theorem ofExcept_error {result : Except RuntimeFault α} {blamed : Token}
    (failed : (ofExcept result blamed : Run α) machine = .error stop after) : after = machine := by
  cases result with
  | ok value => cases failed
  | error problem =>
      cases failed
      rfl

theorem ofExcept_ok {result : Except RuntimeFault α} {blamed : Token} {value : α}
    (ended : (ofExcept result blamed : Run α) machine = .ok value after) : after = machine := by
  cases result with
  | ok found =>
      cases ended
      rfl
  | error problem => cases ended

theorem lookUp_error {id : OccurrenceId} {name : Token}
    (failed : lookUp id name machine = .error stop after) : after = machine := by
  have failed : (ofExcept (machine.valueOf id name.lexeme) name : Run Value) machine =
    .error stop after := failed
  exact ofExcept_error failed

theorem store_error {id : OccurrenceId} {name : Token} {value : Value}
    (failed : store id name value machine = .error stop after) : after = machine := by
  have failed : (ofExcept (machine.place id name.lexeme) name >>= fun target =>
      modify (·.define target name.lexeme value) : Run PUnit) machine = .error stop after := failed
  rcases error_of_bind failed with failed | ⟨target, middle, _, stored⟩
  · exact ofExcept_error failed
  · cases stored

theorem propertyOf_error {value : Value} {name : Token}
    (failed : propertyOf name value machine = .error stop after) : after = machine := by
  cases value with
  | object id =>
      have failed : property id name machine = .error stop after := failed
      cases known : machine.objects[id]? with
      | some object =>
          rcases property_cases name known with
            ⟨value, _, result⟩ | ⟨method, _, result⟩ | result
          · cases result.symm.trans failed
          · cases result.symm.trans failed
          · cases result.symm.trans failed
            rfl
      | none =>
          rw [property, get_bind_apply, known] at failed
          cases failed
          rfl
  | _ =>
      cases failed
      rfl

theorem readSuperMethod_error {id : OccurrenceId} {keyword method : Token}
    (failed : readSuperMethod id keyword method machine = .error stop after) :
    after = machine := by
  rw [readSuperMethod, get_bind_apply] at failed
  cases recorded : machine.distances.find? id with
  | none =>
      rw [recorded] at failed
      cases failed
      rfl
  | some distance =>
      rw [recorded] at failed
      rcases error_of_bind failed with failed | ⟨parent, _, read, failed⟩
      · exact ofExcept_error failed
      cases ofExcept_ok read
      cases parent with
      | classRef superclass =>
          rcases error_of_bind failed with failed | ⟨receiver, _, read, failed⟩
          · exact ofExcept_error failed
          cases ofExcept_ok read
          cases receiver with
          | object receiver =>
              dsimp only at failed
              cases found : machine.method? superclass method.lexeme with
              | some found' =>
                  rw [found] at failed
                  cases failed
              | none =>
                  rw [found] at failed
                  cases failed
                  rfl
          | _ =>
              cases failed
              rfl
      | _ =>
          cases failed
          rfl

end Run

/-! ## Declarations of classes -/

/-- Once its name has been bound to nil, a declaration cannot fail: the name is found in the current
frame, and is bound to the class, which is complete by then. -/
theorem declareClass_ok {machine : Machine} (present : machine.current < machine.forest.size)
    (name : Token) (superclass : Option ClassId) (methods : List Routine) :
    ∃ after frame, declareClass name superclass methods machine = .ok () after ∧
      after.forest.own? machine.current name.lexeme = some (.classRef machine.classes.size) ∧
      after.classes[machine.classes.size]? =
        some ⟨name.lexeme, superclass, methodTable frame methods⟩ := by
  let bound := machine.define machine.current name.lexeme .nil
  have own : (bound.forest.own? machine.current name.lexeme).isSome := by
    show ((machine.forest.define _ _ _).own? _ _).isSome
    rw [Forest.own?_define_same _ present]
    rfl
  -- The frame of the superclass is a new one, so the name is still bound where it was.
  have complete (middle : Machine) (frame : FrameId) (same : middle.current = machine.current)
      (classes : middle.classes = machine.classes)
      (kept : (middle.forest.own? machine.current name.lexeme).isSome) :
      ∃ after, (do
          let value ← Run.newClass ⟨name.lexeme, superclass, methodTable frame methods⟩
          Run.storeByName name value : Run PUnit) middle = .ok () after ∧
        after.forest.own? machine.current name.lexeme = some (.classRef machine.classes.size) ∧
        after.classes[machine.classes.size]? =
          some ⟨name.lexeme, superclass, methodTable frame methods⟩ := by
    let made := middle.onHeap (·.addClass ⟨name.lexeme, superclass, methodTable frame methods⟩)
    have placed : made.forest.place made.current name.lexeme = .ok machine.current := by
      show middle.forest.place middle.current name.lexeme = _
      rw [same]
      exact Forest.place_own kept
    refine ⟨made.define machine.current name.lexeme (.classRef middle.classes.size), ?_, ?_, ?_⟩
    · show (Run.ofExcept (made.forest.place made.current name.lexeme) name >>= _) made = _
      rw [placed]
      rfl
    · show (middle.forest.define _ _ _).own? _ _ = _
      rw [Forest.own?_define_same _ (Forest.lt_size_of_own? kept), classes]
    · show (middle.classes.push _)[machine.classes.size]? = _
      rw [classes, Array.getElem?_push_size]
  cases superclass with
  | none =>
      obtain ⟨after, ended, rest⟩ := complete bound machine.current rfl rfl own
      exact ⟨after, machine.current, ended, rest⟩
  | some id =>
      have kept : ((bound.enclose machine.current superName (.classRef id)).forest.own?
          machine.current name.lexeme).isSome := by
        rw [Machine.own?_enclose, if_neg]
        · exact own
        · rintro ⟨new, _⟩
          have size : bound.forest.size = machine.forest.size := Forest.size_define _ _ _ _
          rw [size] at new
          exact absurd present (new ▸ Nat.lt_irrefl _)
      obtain ⟨after, ended, rest⟩ := complete
        (bound.enclose machine.current superName (.classRef id)) bound.forest.size rfl rfl kept
      exact ⟨after, bound.forest.size, ended, rest⟩

end Lox
