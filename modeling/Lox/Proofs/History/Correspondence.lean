import Lox.Proofs.History.Recording
/-! Runs and recorded runs side by side. What relates steps to recorded steps and is kept when
runs are put together relates all code to its recorded run: one induction on the fuel, for
whatever relation. The first of them is that a recorded run is the run. -/

namespace Lox

/-! ## Ends of runs -/

/-- The state that a run leaves, however it ends. -/
def leftBy {State α : Type} : EStateM.Result Stop State α → State
  | .ok _ state => state
  | .error _ state => state

/-- The same end in another state. -/
def endIn {State State' α : Type} (view : State → State') :
    EStateM.Result Stop State α → EStateM.Result Stop State' α
  | .ok value state => .ok value (view state)
  | .error stop state => .error stop (view state)

@[simp] theorem leftBy_endIn {State State' α : Type} (view : State → State')
    (result : EStateM.Result Stop State α) : leftBy (endIn view result) = view (leftBy result) := by
  cases result <;> rfl

theorem bind_apply {State α β : Type} (first : EStateM Stop State α)
    (next : α → EStateM Stop State β) (state : State) :
    (first >>= next) state = match first state with
      | .ok value after => next value after
      | .error stop after => .error stop after := by
  show EStateM.bind first next state = _
  rw [EStateM.bind]
  cases first state <;> rfl

theorem get_bind_apply {State β : Type} (next : State → EStateM Stop State β) (state : State) :
    (get >>= next) state = next state state :=
  rfl

/-- What a run reaches that is put together, if what each part reaches can be put together. -/
theorem leftBy_bind {State α β : Type} (reaches : State → State → Prop)
    (trans : ∀ {before middle after}, reaches before middle → reaches middle after →
      reaches before after)
    {first : EStateM Stop State α} {next : α → EStateM Stop State β} {state : State}
    (starts : reaches state (leftBy (first state)))
    (goes : ∀ value middle, first state = .ok value middle → reaches state middle →
      reaches middle (leftBy (next value middle))) :
    reaches state (leftBy ((first >>= next) state)) := by
  rw [bind_apply]
  cases ended : first state with
  | ok value middle =>
      rw [ended] at starts
      exact trans starts (goes value middle ended starts)
  | error stop middle =>
      rw [ended] at starts
      exact starts

theorem bind_ok {State α β : Type} {first : EStateM Stop State α} {next : α → EStateM Stop State β}
    {state middle : State} {value : α} {result : EStateM.Result Stop State β}
    (starts : first state = .ok value middle) (goes : next value middle = result) :
    (first >>= next) state = result := by
  rw [bind_apply, starts]
  exact goes

theorem exists_of_bind_ok {State α β : Type} {first : EStateM Stop State α}
    {next : α → EStateM Stop State β} {state after : State} {value : β}
    (ended : (first >>= next) state = .ok value after) :
    ∃ given middle, first state = .ok given middle ∧ next given middle = .ok value after := by
  rw [bind_apply] at ended
  cases done : first state with
  | ok given middle =>
      rw [done] at ended
      exact ⟨given, middle, rfl, ended⟩
  | error stop middle =>
      rw [done] at ended
      cases ended

namespace History

/-! ## Steps -/

/-- The steps that are taken while code runs, apart from writing to the sink and making a class. -/
inductive Elementary : {α : Type} → Run α → Prop
  | lookUp (id name) : Elementary (Run.lookUp id name)
  | store (id name value) : Elementary (Run.store id name value)
  | define (name value) : Elementary (Run.define name value)
  | defineAll (frame entries) : Elementary (modify fun machine =>
      { machine with forest := machine.forest.defineAll frame entries })
  | storeByName (name value) : Elementary (Run.storeByName name value)
  | newFrame (outer) : Elementary (Run.newFrame outer)
  | superFrame (outer superclass) : Elementary (superFrame outer superclass)
  | newFunction (closure) : Elementary (Run.newFunction closure)
  | newObject (classId) : Elementary (Run.newObject classId)
  | bind (method receiver) : Elementary (Run.bind method receiver)
  | property (id name) : Elementary (Run.property id name)
  | superMethod (id keyword method) : Elementary (readSuperMethod id keyword method)
  | setField (id name value) : Elementary (modify (·.onHeap (·.setField id name value)))
  | readClock : Elementary Run.readClock

/-- What is seen of a machine does not depend on its sink. -/
def Blind {α : Type} (view : Machine → α) : Prop :=
  ∀ machine sink, view { machine with sink := sink } = view machine

/-- The changes that elementary steps are made of: none of them makes a class. -/
inductive Change : (Machine → Machine) → Prop
  | define (frame name value) : Change (·.define frame name value)
  | defineAll (frame entries) : Change fun machine =>
      { machine with forest := machine.forest.defineAll frame entries }
  | addFrame (outer) : Change (·.addFrame outer)
  | addFunction (closure) : Change (·.onHeap (·.addFunction closure))
  | addObject (object) : Change (·.onHeap (·.addObject object))
  | setField (id name value) : Change (·.onHeap (·.setField id name value))
  | tick : Change fun machine => { machine with ticks := machine.ticks + 1 }

/-- What holds of a change, and is kept when runs are put together that look at anything but
the sink. -/
structure Closed (holds : {α : Type} → Run α → Prop) : Prop where
  value {α : Type} (value : α) : holds (pure value)
  stop {α : Type} (stop : Stop) : holds (throw stop : Run α)
  bind {α β : Type} {first : Run α} {next : α → Run β} : holds first →
    (∀ value, holds (next value)) → holds (first >>= next)
  look {α : Type} {next : Machine → Run α} : Blind next → (∀ machine, holds (next machine)) →
    holds (get >>= next)
  change {change : Machine → Machine} : Change change → holds (modify change)

namespace Closed

variable {holds : {α : Type} → Run α → Prop} (closed : Closed holds)

include closed

theorem ofExcept {α : Type} (result : Except RuntimeFault α) (blamed : Token) :
    holds (Run.ofExcept result blamed) := by
  cases result with
  | ok value => exact closed.value value
  | error problem => exact closed.stop _

theorem newFrame (outer : FrameId) : holds (Run.newFrame outer) :=
  closed.look (fun _ _ => rfl) fun _ => closed.bind (closed.change (.addFrame outer)) fun _ =>
    closed.value _

theorem newFunction (closure : Closure FrameId) : holds (Run.newFunction closure) :=
  closed.look (fun _ _ => rfl) fun _ =>
    closed.bind (closed.change (.addFunction closure)) fun _ => closed.value _

theorem bindTo (method : Closure FrameId) (receiver : ObjectId) :
    holds (Run.bind method receiver) :=
  closed.bind (closed.newFrame method.place) fun frame =>
    closed.bind (closed.change (.define frame _ _)) fun _ => closed.value _

/-- A bound method as a value. -/
theorem newMethod (method : Closure FrameId) (receiver : ObjectId) :
    holds (Run.bind method receiver >>= Run.newFunction) :=
  closed.bind (closed.bindTo method receiver) closed.newFunction

theorem property (id : ObjectId) (name : Token) : holds (Run.property id name) := by
  refine closed.look (fun _ _ => rfl) fun machine => ?_
  dsimp only
  split
  · exact closed.value _
  · split
    · exact closed.newMethod _ id
    · exact closed.stop _

theorem superMethod (id : OccurrenceId) (keyword method : Token) :
    holds (readSuperMethod id keyword method) := by
  refine closed.look (fun _ _ => rfl) fun machine => ?_
  split
  · exact closed.stop _
  · refine closed.bind (closed.ofExcept _ keyword) fun parent => ?_
    cases parent with
    | classRef superclass =>
        refine closed.bind (closed.ofExcept _ keyword) fun receiver => ?_
        cases receiver with
        | object receiver =>
            dsimp only
            split
            · exact closed.newMethod _ receiver
            · exact closed.stop _
        | _ => exact closed.stop _
    | _ => exact closed.stop _

theorem elementary {α : Type} {run : Run α} (elementary : Elementary run) : holds run := by
  cases elementary with
  | lookUp id name => exact closed.look (fun _ _ => rfl) fun _ => closed.ofExcept _ name
  | store id name value =>
      exact closed.look (fun _ _ => rfl) fun _ => closed.bind (closed.ofExcept _ name) fun target =>
        closed.change (.define target name.lexeme value)
  | define name value =>
      have located : holds (get >>= fun machine =>
          modify (·.define machine.current name value) : Run PUnit) :=
        closed.look (fun _ _ => rfl) fun machine =>
          closed.change (.define machine.current name value)
      exact located
  | defineAll frame entries => exact closed.change (.defineAll frame entries)
  | storeByName name value =>
      exact closed.look (fun _ _ => rfl) fun _ => closed.bind (closed.ofExcept _ name) fun target =>
        closed.change (.define target name.lexeme value)
  | newFrame outer => exact closed.newFrame outer
  | superFrame outer superclass =>
      exact closed.bind (closed.newFrame outer) fun frame =>
        closed.bind (closed.change (.define frame _ _)) fun _ => closed.value _
  | newFunction closure => exact closed.newFunction closure
  | newObject classId =>
      exact closed.look (fun _ _ => rfl) fun _ =>
        closed.bind (closed.change (.addObject _)) fun _ => closed.value _
  | bind method receiver => exact closed.bindTo method receiver
  | property id name => exact closed.property id name
  | superMethod id keyword method => exact closed.superMethod id keyword method
  | setField id name value => exact closed.change (.setField id name value)
  | readClock =>
      exact closed.look (fun _ _ => rfl) fun _ => closed.bind (closed.change .tick) fun _ =>
        closed.value _

end Closed

/-! ## Recorded steps -/

section

variable {α : Type} (around : Option Activation) (event : Event)

theorem step_apply (owner : Machine → Option Activation) (run : Run α) (chronicle : Chronicle) :
    step around event owner run chronicle = endIn (fun machine =>
      (chronicle.turn machine (owner chronicle.toMachine)).note around event)
        (run chronicle.toMachine) := by
  rw [step]
  cases run chronicle.toMachine <;> rfl

theorem inside_apply (frame : FrameId) (body : Recorded α) (chronicle : Chronicle) :
    inside frame body chronicle = endIn (fun after => { after with current := chronicle.current })
      (body { chronicle with current := frame }) := by
  rw [inside]
  cases body { chronicle with current := frame } <;> rfl

theorem run_inside_apply (frame : FrameId) (body : Run α) (machine : Machine) :
    Run.inside frame body machine = endIn (fun after => { after with current := machine.current })
      (body { machine with current := frame }) := by
  rw [Run.inside]
  cases body { machine with current := frame } <;> rfl

end

/-- What is done does not depend on the sink, nor on what has been written down. -/
def Unaware {α : Type} (next : Chronicle → α) : Prop :=
  ∀ chronicle sink past, next { chronicle with sink := sink, past := past } = next chronicle

/-- A relation between recorded runs and runs that is kept when runs are put together. -/
structure Composes (related : {α : Type} → Recorded α → Run α → Prop) : Prop where
  value {α : Type} (value : α) : related (pure value) (pure value)
  stop {α : Type} (stop : Stop) : related (throw stop : Recorded α) (throw stop)
  bind {α β : Type} {first : Recorded α} {first' : Run α} {next : α → Recorded β}
    {next' : α → Run β} : related first first' → (∀ value, related (next value) (next' value)) →
      related (first >>= next) (first' >>= next')
  look {α : Type} {next : Chronicle → Recorded α} {next' : Machine → Run α} : Unaware next →
    (∀ chronicle, related (next chronicle) (next' chronicle.toMachine)) →
      related (get >>= next) (get >>= next')
  note (around event) : related (History.note around event) (pure ())
  step {α : Type} {run : Run α} (around) {owner : Machine → Option Activation} : Elementary run →
    Blind owner → related (History.step around .passes owner run) run
  prints (around value) : related
    (History.step around (.prints value) (fun _ => around) (Run.print value)) (Run.print value)
  inside {α : Type} {body : Recorded α} {body' : Run α} (frame) : related body body' →
    related (History.inside frame body) (Run.inside frame body')

/-- A relation that is also kept by declarations of classes, given that it holds of what their
superclasses are evaluated with. -/
structure Compatible (related : {α : Type} → Recorded α → Run α → Prop) : Prop
    extends Composes related where
  classDecl (fuel around name superclass methods) :
    (∀ expr, related (evaluate fuel around expr) (Lox.evaluate fuel expr)) →
      related (execute (fuel + 1) around (.classDecl name superclass methods))
        (Lox.execute (fuel + 1) (.classDecl name superclass methods))

/-! ## All code -/

/-- All kinds of code are related to their recorded runs when they are given this much fuel. -/
structure Corresponds (related : {α : Type} → Recorded α → Run α → Prop) (fuel : Nat) : Prop where
  evaluate (around expr) : related (evaluate fuel around expr) (Lox.evaluate fuel expr)
  evaluateAll (around exprs) : related (evaluateAll fuel around exprs) (Lox.evaluateAll fuel exprs)
  call (around callee paren arguments) :
    related (call fuel around callee paren arguments) (Lox.call fuel callee paren arguments)
  invoke (owner closure arguments) :
    related (invoke fuel owner closure arguments) (Lox.invoke fuel closure arguments)
  instantiate (around id arguments) :
    related (instantiate fuel around id arguments) (Lox.instantiate fuel id arguments)
  execute (around stmt) : related (execute fuel around stmt) (Lox.execute fuel stmt)
  executeAll (around stmts) : related (executeAll fuel around stmts) (Lox.executeAll fuel stmts)

namespace Composes

variable {related : {α : Type} → Recorded α → Run α → Prop} (composes : Composes related)
  {α : Type}

include composes

theorem noted (around : Option Activation) (event : Event) {run : Recorded α} {run' : Run α}
    (runs : related run run') : related (History.note around event >>= fun _ => run) run' :=
  composes.bind (composes.note around event) fun _ => runs

theorem valued (around : Option Activation) (expr : Expr) {body : Recorded Value}
    {body' : Run Value} (runs : related body body') : related (valued around expr body) body' := by
  rw [← bind_pure body']
  exact composes.noted _ _ (composes.bind runs fun value =>
    composes.noted _ _ (composes.value value))

theorem take (around : Option Activation) {run : Run α} (elementary : Elementary run) :
    related (History.take around run) run :=
  composes.step around elementary fun _ _ => rfl

theorem ofExcept (result : Except RuntimeFault α) (blamed : Token) :
    related (Run.ofExcept result blamed) (Run.ofExcept result blamed) := by
  cases result with
  | ok value => exact composes.value value
  | error problem => exact composes.stop _

/-- A class is declared in steps, the last but one of which makes it. -/
theorem declareClass (around : Option Activation) (name : Token) (superclass : Option ClassId)
    (methods : List Routine) (newClass : ∀ frame, related
      (History.take around (Run.newClass ⟨name.lexeme, superclass, methodTable frame methods⟩))
      (Run.newClass ⟨name.lexeme, superclass, methodTable frame methods⟩)) :
    related (History.declareClass around name superclass methods)
      (Lox.declareClass name superclass methods) := by
  have complete (frame : FrameId) : related
      (do
        let value ← History.take around
          (Run.newClass ⟨name.lexeme, superclass, methodTable frame methods⟩)
        History.take around (Run.storeByName name value))
      (do
        let value ← Run.newClass ⟨name.lexeme, superclass, methodTable frame methods⟩
        Run.storeByName name value) :=
    composes.bind (newClass frame) fun value =>
      composes.take around (.storeByName name value)
  refine composes.bind (composes.take around (.define _ _)) fun _ => ?_
  refine composes.look (fun _ _ _ => rfl) fun chronicle => ?_
  cases superclass with
  | none => exact complete chronicle.current
  | some id =>
      have framed := composes.bind
        (composes.take around (.superFrame chronicle.current id)) complete
      simpa only [superFrame, bind_assoc] using framed

/-- Declarations of classes are put together like all other code, if that is true of the step that
makes the class. -/
theorem compatible (newClass : ∀ around info,
    related (History.take around (Run.newClass info)) (Run.newClass info)) :
    Compatible related where
  toComposes := composes
  classDecl fuel around name superclass methods corresponds := by
    refine composes.noted around _ ?_
    cases superclass with
    | none =>
        exact composes.bind (composes.declareClass around name none methods fun _ =>
          newClass around _) fun _ => composes.value Flow.normal
    | some superclass =>
        refine composes.bind (corresponds superclass) fun value => ?_
        cases value with
        | classRef id =>
            exact composes.bind (composes.declareClass around name (some id) methods fun _ =>
              newClass around _) fun _ => composes.value Flow.normal
        | _ => exact composes.stop _

end Composes

namespace Corresponds

variable {related : {α : Type} → Recorded α → Run α → Prop} (compatible : Compatible related)
  {fuel : Nat} (corresponds : Corresponds related fuel) (around : Option Activation)

include compatible corresponds

/-! ### Expressions -/

theorem evaluate_succ (expr : Expr) :
    related (History.evaluate (fuel + 1) around expr) (Lox.evaluate (fuel + 1) expr) := by
  refine compatible.valued around expr ?_
  cases expr with
  | literal value => exact compatible.value _
  | group inner => exact corresponds.evaluate around inner
  | unary operator right =>
      exact compatible.bind (corresponds.evaluate around right) fun value =>
        compatible.ofExcept _ operator
  | binary left operator right =>
      exact compatible.bind (corresponds.evaluate around left) fun first =>
        compatible.bind (corresponds.evaluate around right) fun second =>
          compatible.ofExcept _ operator
  | logical left operator right =>
      refine compatible.bind (corresponds.evaluate around left) fun value => ?_
      split
      · exact compatible.value value
      · exact corresponds.evaluate around right
  | read id name => exact compatible.take around (.lookUp id name)
  | assign id name value =>
      exact compatible.bind (corresponds.evaluate around value) fun value =>
        compatible.bind (compatible.take around (.store id name value)) fun _ =>
          compatible.value value
  | call callee paren arguments =>
      exact compatible.bind (corresponds.evaluate around callee) fun callee =>
        compatible.bind (corresponds.evaluateAll around arguments) fun arguments =>
          corresponds.call around callee paren arguments
  | get object name =>
      refine compatible.bind (corresponds.evaluate around object) fun value => ?_
      cases value with
      | object id => exact compatible.step around (.property id name) fun _ _ => rfl
      | _ => exact compatible.stop _
  | set object name value =>
      refine compatible.bind (corresponds.evaluate around object) fun target => ?_
      cases target with
      | object id =>
          exact compatible.bind (corresponds.evaluate around value) fun value =>
            compatible.bind (compatible.take around (.setField id name.lexeme value)) fun _ =>
              compatible.value value
      | _ => exact compatible.stop _
  | this id keyword => exact compatible.take around (.lookUp id keyword)
  | super id keyword method =>
      exact compatible.step around (.superMethod id keyword method) fun _ _ => rfl

theorem evaluateAll_succ (exprs : List Expr) :
    related (History.evaluateAll (fuel + 1) around exprs) (Lox.evaluateAll (fuel + 1) exprs) := by
  refine compatible.noted around _ ?_
  cases exprs with
  | nil => exact compatible.value _
  | cons expr rest =>
      exact compatible.bind (corresponds.evaluate around expr) fun value =>
        compatible.bind (corresponds.evaluateAll around rest) fun values =>
          compatible.value (value :: values)

/-! ### Calls -/

theorem call_succ (callee : Value) (paren : Token) (arguments : List Value) :
    related (History.call (fuel + 1) around callee paren arguments)
      (Lox.call (fuel + 1) callee paren arguments) := by
  refine compatible.noted around _ ?_
  refine compatible.look (fun _ _ _ => rfl) fun chronicle => ?_
  cases chronicle.arity? callee with
  | none => exact compatible.stop _
  | some arity =>
      dsimp only
      split
      · exact compatible.stop _
      · cases callee with
        | native native =>
            cases native
            exact compatible.take around .readClock
        | function id =>
            refine compatible.look (fun _ _ _ => rfl) fun chronicle => ?_
            cases chronicle.functions[id]? with
            | some closure =>
                exact corresponds.invoke chronicle.owners[id]?.join closure arguments
            | none => exact compatible.stop _
        | classRef id => exact corresponds.instantiate around id arguments
        | _ => exact compatible.stop _

theorem invoke_succ (closure : Closure FrameId) (arguments : List Value) :
    related (History.invoke (fuel + 1) around closure arguments)
      (Lox.invoke (fuel + 1) closure arguments) := by
  refine compatible.noted around _ ?_
  refine compatible.bind (compatible.take around (.newFrame closure.place)) fun frame => ?_
  refine compatible.bind (compatible.take around (.defineAll frame _)) fun _ => ?_
  refine compatible.bind (compatible.inside frame
    (corresponds.executeAll around closure.routine.body)) fun flow => ?_
  split
  · exact compatible.look (fun _ _ _ => rfl) fun chronicle => compatible.value _
  · cases flow with
    | returned value => exact compatible.value value
    | normal => exact compatible.value Value.nil

theorem instantiate_succ (id : ClassId) (arguments : List Value) :
    related (History.instantiate (fuel + 1) around id arguments)
      (Lox.instantiate (fuel + 1) id arguments) := by
  refine compatible.noted around _ ?_
  refine compatible.bind (compatible.take around (.newObject id)) fun object => ?_
  refine compatible.look (fun _ _ _ => rfl) fun chronicle => ?_
  dsimp only
  cases chronicle.method? id initializerName with
  | some initializer =>
      exact compatible.bind (compatible.take around (.bind initializer object)) fun closure =>
        compatible.bind (corresponds.invoke _ closure arguments) fun _ =>
          compatible.value (Value.object object)
  | none => exact compatible.value (Value.object object)

/-! ### Statements -/

theorem execute_succ (stmt : Stmt) :
    related (History.execute (fuel + 1) around stmt) (Lox.execute (fuel + 1) stmt) := by
  cases stmt
  case classDecl name superclass methods =>
    exact compatible.classDecl fuel around name superclass methods (corresponds.evaluate around)
  all_goals refine compatible.noted around _ ?_
  case expression expr =>
    exact compatible.bind (corresponds.evaluate around expr) fun _ => compatible.value Flow.normal
  case print expr =>
    exact compatible.bind (corresponds.evaluate around expr) fun value =>
      compatible.bind (compatible.prints around value) fun _ => compatible.value Flow.normal
  case var name initial =>
    cases initial with
    | none =>
        exact compatible.bind (compatible.take around (.define name.lexeme .nil)) fun _ =>
          compatible.value Flow.normal
    | some initial =>
        exact compatible.bind (corresponds.evaluate around initial) fun value =>
          compatible.bind (compatible.take around (.define name.lexeme value)) fun _ =>
            compatible.value Flow.normal
  case block body =>
    exact compatible.look (fun _ _ _ => rfl) fun chronicle =>
      compatible.bind (compatible.take around (.newFrame chronicle.current)) fun frame =>
        compatible.inside frame (corresponds.executeAll around body)
  case conditional condition thenBranch elseBranch =>
    refine compatible.bind (corresponds.evaluate around condition) fun value => ?_
    split
    · exact corresponds.execute around thenBranch
    · cases elseBranch with
      | none => exact compatible.value Flow.normal
      | some elseBranch => exact corresponds.execute around elseBranch
  case loop condition body =>
    refine compatible.bind (corresponds.evaluate around condition) fun value => ?_
    split
    · refine compatible.bind (corresponds.execute around body) fun flow => ?_
      cases flow with
      | returned value => exact compatible.value (Flow.returned value)
      | normal => exact corresponds.execute around (.loop condition body)
    · exact compatible.value Flow.normal
  case function routine =>
    refine compatible.look (fun _ _ _ => rfl) fun chronicle => ?_
    exact compatible.bind
      (compatible.take around (.newFunction ⟨routine, chronicle.current, false⟩)) fun value =>
        compatible.bind (compatible.take around (.define routine.name.lexeme value)) fun _ =>
          compatible.value Flow.normal
  case returns keyword value =>
    cases value with
    | none => exact compatible.value (Flow.returned .nil)
    | some value =>
        exact compatible.bind (corresponds.evaluate around value) fun value =>
          compatible.value (Flow.returned value)

theorem executeAll_succ (stmts : List Stmt) :
    related (History.executeAll (fuel + 1) around stmts) (Lox.executeAll (fuel + 1) stmts) := by
  refine compatible.noted around _ ?_
  cases stmts with
  | nil => exact compatible.value Flow.normal
  | cons stmt rest =>
      refine compatible.bind (corresponds.execute around stmt) fun flow => ?_
      cases flow with
      | returned value => exact compatible.value (Flow.returned value)
      | normal => exact corresponds.executeAll around rest

end Corresponds

theorem Compatible.corresponds {related : {α : Type} → Recorded α → Run α → Prop}
    (compatible : Compatible related) (fuel : Nat) : Corresponds related fuel := by
  induction fuel with
  | zero =>
      have exhausted {α : Type} : related (throw .exhausted : Recorded α) (throw .exhausted) :=
        compatible.stop .exhausted
      exact ⟨fun _ _ => exhausted, fun _ _ => exhausted, fun _ _ _ _ => exhausted,
        fun _ _ _ => exhausted, fun _ _ _ => exhausted, fun _ _ => exhausted,
        fun _ _ => exhausted⟩
  | succ fuel induction =>
      exact {
        evaluate := induction.evaluate_succ compatible
        evaluateAll := induction.evaluateAll_succ compatible
        call := induction.call_succ compatible
        invoke := induction.invoke_succ compatible
        instantiate := induction.instantiate_succ compatible
        execute := induction.execute_succ compatible
        executeAll := induction.executeAll_succ compatible }

end History

end Lox
