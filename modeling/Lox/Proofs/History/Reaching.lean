import Lox.Proofs.History.Faithful
/-! What a run has written down is what runs. Whatever a recorded run starts is reached by the task
that it does, with the machine that has been written down: one case for each part that a task can
start, and one induction on the fuel. So the tasks in the history of a session are those that its
sources execute. -/

namespace Lox

namespace History

/-! ## Runs that end with a value -/

theorem Records.ran {α : Type} {recorded : Recorded α} {run : Run α} (records : Records recorded run)
    {chronicle after : Chronicle} {value : α} (ended : recorded chronicle = .ok value after) :
    run chronicle.toMachine = .ok value after.toMachine := by
  have same := records chronicle
  rw [ended] at same
  exact same.symm

variable {fuel : Nat} {around : Option Activation} {chronicle after : Chronicle}

theorem evaluate_ran {expr : Expr} {value : Value}
    (ended : evaluate fuel around expr chronicle = .ok value after) :
    Lox.evaluate fuel expr chronicle.toMachine = .ok value after.toMachine :=
  ((compatible_records.corresponds fuel).evaluate around expr).ran ended

theorem evaluateAll_ran {exprs : List Expr} {values : List Value}
    (ended : evaluateAll fuel around exprs chronicle = .ok values after) :
    Lox.evaluateAll fuel exprs chronicle.toMachine = .ok values after.toMachine :=
  ((compatible_records.corresponds fuel).evaluateAll around exprs).ran ended

theorem execute_ran {stmt : Stmt} {flow : Flow}
    (ended : execute fuel around stmt chronicle = .ok flow after) :
    Lox.execute fuel stmt chronicle.toMachine = .ok flow after.toMachine :=
  ((compatible_records.corresponds fuel).execute around stmt).ran ended

theorem take_ran {α : Type} {run : Run α} {value : α}
    (ended : take around run chronicle = .ok value after) :
    run chronicle.toMachine = .ok value after.toMachine :=
  (records_step around .passes (fun _ => around) run).ran ended

/-! ## What has been started since -/

/-- From the first chronicle to the second only such tasks have been started. -/
def Accounts (reached : Task → Machine → Prop) (start after : Chronicle) : Prop :=
  ∀ moment ∈ after.past, moment ∈ start.past ∨
    ∀ task, moment.event = .starts task → reached task moment.machine

namespace Accounts

variable {reached further : Task → Machine → Prop} {start middle : Chronicle} {α β : Type}

theorem refl (reached : Task → Machine → Prop) (start : Chronicle) : Accounts reached start start :=
  fun _ member => .inl member

theorem trans (first : Accounts reached start middle) (second : Accounts further middle after)
    (weaker : ∀ task machine, further task machine → reached task machine) :
    Accounts reached start after := by
  intro moment member
  rcases second moment member with before | since
  · exact first moment before
  · exact .inr fun task started => weaker _ _ (since task started)

theorem note (accounts : Accounts reached start middle) (around : Option Activation) {event : Event}
    (known : ∀ task, event = .starts task → reached task middle.toMachine) :
    Accounts reached start (middle.note around event) := by
  intro moment member
  rcases List.mem_cons.mp member with rfl | before
  · exact .inr known
  · exact accounts moment before

theorem value (accounts : Accounts reached start middle) (value : α) :
    Accounts reached start (leftBy ((pure value : Recorded α) middle)) :=
  accounts

theorem ofExcept (accounts : Accounts reached start middle) (result : Except RuntimeFault α)
    (blamed : Token) :
    Accounts reached start (leftBy ((Run.ofExcept result blamed : Recorded α) middle)) := by
  cases result with
  | ok value => exact accounts
  | error problem => exact accounts

theorem bind {first : Recorded α} {next : α → Recorded β}
    (starts : Accounts reached start (leftBy (first middle)))
    (goes : ∀ value after, first middle = .ok value after → Accounts reached start after →
      Accounts reached start (leftBy (next value after))) :
    Accounts reached start (leftBy ((first >>= next) middle)) := by
  rw [bind_apply]
  cases ended : first middle with
  | ok value after =>
      rw [ended] at starts
      exact goes value after ended starts
  | error stop after =>
      rw [ended] at starts
      exact starts

theorem look {next : Chronicle → Recorded α}
    (goes : Accounts reached start (leftBy (next middle middle))) :
    Accounts reached start (leftBy ((get >>= next) middle)) :=
  goes

/-- A step of the machine starts nothing. -/
theorem stepped (accounts : Accounts reached start middle) (around : Option Activation)
    (event : Event) (other : ∀ task, event ≠ .starts task) (owner : Machine → Option Activation)
    (run : Run α) : Accounts reached start (leftBy (History.step around event owner run middle)) := by
  rw [step_apply, leftBy_endIn]
  intro moment member
  rcases List.mem_cons.mp member with rfl | before
  · exact .inr fun task started => absurd started (other task)
  · exact accounts moment before

theorem step (accounts : Accounts reached start middle) (around : Option Activation)
    (owner : Machine → Option Activation) (run : Run α) :
    Accounts reached start (leftBy (History.step around .passes owner run middle)) :=
  accounts.stepped around .passes (fun _ => nofun) owner run

theorem take (accounts : Accounts reached start middle) (around : Option Activation)
    (run : Run α) : Accounts reached start (leftBy (History.take around run middle)) :=
  accounts.step around (fun _ => around) run

theorem prints (accounts : Accounts reached start middle) (around : Option Activation)
    (value : Value) : Accounts reached start
      (leftBy (History.step around (.prints value) (fun _ => around) (Run.print value) middle)) :=
  accounts.stepped around (.prints value) (fun _ => nofun) _ _

/-- Code that runs in another frame starts what it starts there. -/
theorem inside {frame : FrameId} {body : Recorded α}
    (accounts : Accounts reached start (leftBy (body { middle with current := frame }))) :
    Accounts reached start (leftBy (History.inside frame body middle)) := by
  rw [inside_apply, leftBy_endIn]
  exact accounts

/-- What a part has reached is reached by the task that has started the part. -/
theorem part {task started : Task} {machine : Machine}
    (accounts : Accounts (Reaches (fuel + 1) task machine) start middle)
    (starts : Starts fuel task machine started middle.toMachine)
    (goes : Accounts (Reaches fuel started middle.toMachine) middle after) :
    Accounts (Reaches (fuel + 1) task machine) start after :=
  accounts.trans goes fun _ _ => .part starts

/-- The code of a part may run in another frame. -/
theorem partInside {task started : Task} {machine : Machine} {frame : FrameId} {body : Recorded α}
    (accounts : Accounts (Reaches (fuel + 1) task machine) start middle)
    (starts : Starts fuel task machine started { middle.toMachine with current := frame })
    (goes : Accounts (Reaches fuel started { middle.toMachine with current := frame })
      { middle with current := frame } (leftBy (body { middle with current := frame }))) :
    Accounts (Reaches (fuel + 1) task machine) start
      (leftBy (History.inside frame body middle)) := by
  have entered : Accounts (Reaches (fuel + 1) task machine) start
      { middle with current := frame } := accounts
  exact inside (entered.part starts goes)

/-- The task itself is written down first. -/
theorem noted {task : Task} {body : Recorded α}
    (goes : ∀ noted : Chronicle, Accounts (Reaches fuel task noted.toMachine) start noted →
      Accounts (Reaches fuel task noted.toMachine) start (leftBy (body noted))) :
    Accounts (Reaches fuel task start.toMachine) start
      (leftBy ((History.note around (.starts task) >>= fun _ => body) start)) := by
  apply goes (start.note around (.starts task))
  apply (refl _ start).note around
  intro other same
  exact Event.starts.inj same ▸ .here

/-- The evaluation of an expression is written down, and its value. -/
theorem valued {expr : Expr} {body : Recorded Value}
    (goes : ∀ noted : Chronicle,
      Accounts (Reaches fuel (.evaluate expr) noted.toMachine) start noted →
      Accounts (Reaches fuel (.evaluate expr) noted.toMachine) start (leftBy (body noted))) :
    Accounts (Reaches fuel (.evaluate expr) start.toMachine) start
      (leftBy (History.valued around expr body start)) := by
  apply noted
  intro noted accounts
  apply (goes noted accounts).bind
  intro value after _ accounts
  apply accounts.note around
  intro other impossible
  cases impossible

/-- The declaration of a class takes steps, and starts nothing. -/
theorem declareClass (accounts : Accounts reached start middle) (around : Option Activation)
    (name : Token) (superclass : Option ClassId) (methods : List Routine) :
    Accounts reached start
      (leftBy (History.declareClass around name superclass methods middle)) := by
  have complete (frame : FrameId) {middle : Chronicle} (accounts : Accounts reached start middle) :
      Accounts reached start (leftBy ((do
        let value ← History.take around
          (Run.newClass ⟨name.lexeme, superclass, methodTable frame methods⟩)
        History.take around (Run.storeByName name value)) middle)) :=
    (accounts.take around _).bind fun value _ _ accounts => accounts.take around _
  apply bind (accounts.take around (Run.define name.lexeme .nil))
  intro _ bound _ accounts
  apply look
  cases superclass with
  | none => exact complete bound.current accounts
  | some id =>
      exact (accounts.take around _).bind fun frame _ _ accounts => complete frame accounts

end Accounts

/-! ## All code -/

/-- All that recorded code starts is reached by the task that it does, when it has this much fuel. -/
structure Reaching (fuel : Nat) : Prop where
  evaluate (around expr) (chronicle : Chronicle) :
    Accounts (Reaches fuel (.evaluate expr) chronicle.toMachine) chronicle
      (leftBy (evaluate fuel around expr chronicle))
  evaluateAll (around exprs) (chronicle : Chronicle) :
    Accounts (Reaches fuel (.evaluateAll exprs) chronicle.toMachine) chronicle
      (leftBy (evaluateAll fuel around exprs chronicle))
  call (around callee paren arguments) (chronicle : Chronicle) :
    Accounts (Reaches fuel (.call callee paren arguments) chronicle.toMachine) chronicle
      (leftBy (call fuel around callee paren arguments chronicle))
  invoke (owner closure arguments) (chronicle : Chronicle) :
    Accounts (Reaches fuel (.invoke closure arguments) chronicle.toMachine) chronicle
      (leftBy (invoke fuel owner closure arguments chronicle))
  instantiate (around id arguments) (chronicle : Chronicle) :
    Accounts (Reaches fuel (.instantiate id arguments) chronicle.toMachine) chronicle
      (leftBy (instantiate fuel around id arguments chronicle))
  execute (around stmt) (chronicle : Chronicle) :
    Accounts (Reaches fuel (.execute stmt) chronicle.toMachine) chronicle
      (leftBy (execute fuel around stmt chronicle))
  executeAll (around stmts) (chronicle : Chronicle) :
    Accounts (Reaches fuel (.executeAll stmts) chronicle.toMachine) chronicle
      (leftBy (executeAll fuel around stmts chronicle))

namespace Reaching

variable (reaching : Reaching fuel)

include reaching

/-! ### Expressions -/

theorem evaluate_succ (expr : Expr) (chronicle : Chronicle) :
    Accounts (Reaches (fuel + 1) (.evaluate expr) chronicle.toMachine) chronicle
      (leftBy (History.evaluate (fuel + 1) around expr chronicle)) := by
  apply Accounts.valued
  intro noted accounts
  cases expr with
  | literal value => exact accounts
  | group inner => exact accounts.part .group (reaching.evaluate around inner _)
  | unary operator right =>
      apply (accounts.part .unary (reaching.evaluate around right _)).bind
      intro value after _ accounts
      exact accounts.ofExcept _ operator
  | binary left operator right =>
      apply (accounts.part .binaryLeft (reaching.evaluate around left _)).bind
      intro first middle ended accounts
      apply (accounts.part (.binaryRight (evaluate_ran ended))
        (reaching.evaluate around right middle)).bind
      intro second after _ accounts
      exact accounts.ofExcept _ operator
  | logical left operator right =>
      apply (accounts.part .logicalLeft (reaching.evaluate around left _)).bind
      intro value middle ended accounts
      cases decided : decides operator value with
      | true => simpa [decided] using accounts.value value
      | false =>
          have goes := accounts.part (.logicalRight (evaluate_ran ended) decided)
            (reaching.evaluate around right middle)
          simpa [decided] using goes
  | read id name => exact accounts.take around _
  | assign id name value =>
      apply (accounts.part .assigned (reaching.evaluate around value _)).bind
      intro value middle _ accounts
      apply (accounts.take around (Run.store id name value)).bind
      intro _ after _ accounts
      exact accounts.value value
  | call callee paren arguments =>
      apply (accounts.part .callee (reaching.evaluate around callee _)).bind
      intro callee middle found accounts
      apply (accounts.part (.arguments (evaluate_ran found))
        (reaching.evaluateAll around arguments middle)).bind
      intro values after given accounts
      exact accounts.part (.called (evaluate_ran found) (evaluateAll_ran given))
        (reaching.call around callee paren values after)
  | get object name =>
      apply (accounts.part .getObject (reaching.evaluate around object _)).bind
      intro value middle _ accounts
      cases value with
      | object id => exact accounts.step around (propertyOwner id name) _
      | _ => exact accounts
  | set object name value =>
      apply (accounts.part .setObject (reaching.evaluate around object _)).bind
      intro target middle found accounts
      cases target with
      | object id =>
          apply (accounts.part (.setValue (evaluate_ran found))
            (reaching.evaluate around value middle)).bind
          intro given done _ accounts
          apply (accounts.take around _).bind
          intro _ after _ accounts
          exact accounts.value given
      | _ => exact accounts
  | this id keyword => exact accounts.take around _
  | super id keyword method => exact accounts.step around (superOwner around method) _

theorem evaluateAll_succ (exprs : List Expr) (chronicle : Chronicle) :
    Accounts (Reaches (fuel + 1) (.evaluateAll exprs) chronicle.toMachine) chronicle
      (leftBy (History.evaluateAll (fuel + 1) around exprs chronicle)) := by
  apply Accounts.noted
  intro noted accounts
  cases exprs with
  | nil => exact accounts
  | cons expr rest =>
      apply (accounts.part .head (reaching.evaluate around expr _)).bind
      intro value middle ended accounts
      apply (accounts.part (.tail (evaluate_ran ended))
        (reaching.evaluateAll around rest middle)).bind
      intro values after _ accounts
      exact accounts.value (value :: values)

/-! ### Calls -/

theorem call_succ (callee : Value) (paren : Token) (arguments : List Value)
    (chronicle : Chronicle) :
    Accounts (Reaches (fuel + 1) (.call callee paren arguments) chronicle.toMachine) chronicle
      (leftBy (History.call (fuel + 1) around callee paren arguments chronicle)) := by
  apply Accounts.noted
  intro middle accounts
  apply Accounts.look
  cases arity : middle.arity? callee with
  | none => exact accounts
  | some expected =>
      dsimp only
      by_cases differs : arguments.length ≠ expected
      · rw [if_pos differs]
        exact accounts
      · rw [if_neg differs]
        have enough : arguments.length = expected := Decidable.not_not.mp differs
        cases callee with
        | native native =>
            cases native
            exact accounts.take around Run.readClock
        | function id =>
            dsimp only
            apply Accounts.look
            cases found : middle.functions[id]? with
            | none => exact accounts
            | some closure =>
                rw [Heap.arity?, found] at arity
                exact accounts.part (.function found (enough.trans (Option.some.inj arity).symm))
                  (reaching.invoke _ closure arguments middle)
        | classRef id =>
            exact accounts.part (.constructor (enough ▸ arity))
              (reaching.instantiate around id arguments middle)
        | _ => exact accounts

theorem invoke_succ (closure : Closure FrameId) (arguments : List Value) (chronicle : Chronicle) :
    Accounts (Reaches (fuel + 1) (.invoke closure arguments) chronicle.toMachine) chronicle
      (leftBy (History.invoke (fuel + 1) around closure arguments chronicle)) := by
  apply Accounts.noted
  intro noted accounts
  apply (accounts.take around (Run.newFrame closure.place)).bind
  rintro frame framed ⟨⟩ accounts
  apply (accounts.take around _).bind
  rintro _ bound ⟨⟩ accounts
  apply (accounts.partInside (.body rfl)
    (reaching.executeAll around closure.routine.body _)).bind
  intro flow after _ accounts
  cases closure.isInitializer with
  | true => exact accounts
  | false => cases flow <;> exact accounts

theorem instantiate_succ (id : ClassId) (arguments : List Value) (chronicle : Chronicle) :
    Accounts (Reaches (fuel + 1) (.instantiate id arguments) chronicle.toMachine) chronicle
      (leftBy (History.instantiate (fuel + 1) around id arguments chronicle)) := by
  apply Accounts.noted
  intro noted accounts
  apply (accounts.take around (Run.newObject id)).bind
  intro object made created accounts
  apply Accounts.look
  cases found : made.method? id initializerName with
  | none => exact accounts
  | some initializer =>
      apply (accounts.take around (Run.bind initializer object)).bind
      intro closure bound binds accounts
      apply (accounts.part (.initializer (take_ran created) found (take_ran binds))
        (reaching.invoke _ closure arguments bound)).bind
      intro _ after _ accounts
      exact accounts.value (Value.object object)

/-! ### Statements -/

theorem execute_succ (stmt : Stmt) (chronicle : Chronicle) :
    Accounts (Reaches (fuel + 1) (.execute stmt) chronicle.toMachine) chronicle
      (leftBy (History.execute (fuel + 1) around stmt chronicle)) := by
  apply Accounts.noted
  intro noted accounts
  cases stmt with
  | expression expr =>
      apply (accounts.part .expression (reaching.evaluate around expr _)).bind
      intro _ after _ accounts
      exact accounts.value Flow.normal
  | print expr =>
      apply (accounts.part .print (reaching.evaluate around expr _)).bind
      intro value middle _ accounts
      apply (accounts.prints around value).bind
      intro _ after _ accounts
      exact accounts.value Flow.normal
  | var name initial =>
      cases initial with
      | none =>
          apply (accounts.take around (Run.define name.lexeme .nil)).bind
          intro _ after _ accounts
          exact accounts.value Flow.normal
      | some initial =>
          apply (accounts.part .initial (reaching.evaluate around initial _)).bind
          intro value middle _ accounts
          apply (accounts.take around (Run.define name.lexeme value)).bind
          intro _ after _ accounts
          exact accounts.value Flow.normal
  | block body =>
      apply Accounts.look
      apply (accounts.take around (Run.newFrame _)).bind
      rintro frame framed ⟨⟩ accounts
      exact accounts.partInside (.block rfl) (reaching.executeAll around body _)
  | conditional condition thenBranch elseBranch =>
      apply (accounts.part .condition (reaching.evaluate around condition _)).bind
      intro value middle tested accounts
      have tested := evaluate_ran tested
      cases holds : value.isTruthy with
      | true => exact accounts.part (.thenBranch tested holds) (reaching.execute around _ middle)
      | false =>
          cases elseBranch with
          | none => exact accounts
          | some elseBranch =>
              exact accounts.part (.elseBranch tested holds) (reaching.execute around _ middle)
  | loop condition body =>
      apply (accounts.part .tested (reaching.evaluate around condition _)).bind
      intro value middle tested accounts
      have tested := evaluate_ran tested
      cases holds : value.isTruthy with
      | false => exact accounts
      | true =>
          apply (accounts.part (.round tested holds) (reaching.execute around body middle)).bind
          intro flow after done accounts
          cases flow with
          | returned value => exact accounts
          | normal =>
              exact accounts.part (.again tested holds (execute_ran done))
                (reaching.execute around (.loop condition body) after)
  | function routine =>
      apply Accounts.look
      apply (accounts.take around (Run.newFunction _)).bind
      intro value made _ accounts
      apply (accounts.take around (Run.define routine.name.lexeme value)).bind
      intro _ after _ accounts
      exact accounts.value Flow.normal
  | returns keyword value =>
      cases value with
      | none => exact accounts
      | some value =>
          apply (accounts.part .returned (reaching.evaluate around value _)).bind
          intro value after _ accounts
          exact accounts.value (Flow.returned value)
  | classDecl name superclass methods =>
      cases superclass with
      | none =>
          apply (accounts.declareClass around name none methods).bind
          intro _ after _ accounts
          exact accounts.value Flow.normal
      | some superclass =>
          apply (accounts.part .superclass (reaching.evaluate around superclass _)).bind
          intro value middle _ accounts
          cases value with
          | classRef id =>
              apply (accounts.declareClass around name (some id) methods).bind
              intro _ after _ accounts
              exact accounts.value Flow.normal
          | _ => exact accounts

theorem executeAll_succ (stmts : List Stmt) (chronicle : Chronicle) :
    Accounts (Reaches (fuel + 1) (.executeAll stmts) chronicle.toMachine) chronicle
      (leftBy (History.executeAll (fuel + 1) around stmts chronicle)) := by
  apply Accounts.noted
  intro noted accounts
  cases stmts with
  | nil => exact accounts
  | cons stmt rest =>
      apply (accounts.part .first (reaching.execute around stmt _)).bind
      intro flow middle done accounts
      cases flow with
      | returned value => exact accounts
      | normal =>
          exact accounts.part (.following (execute_ran done))
            (reaching.executeAll around rest middle)

end Reaching

theorem reaching (fuel : Nat) : Reaching fuel := by
  induction fuel with
  | zero =>
      exact {
        evaluate := fun _ _ chronicle => Accounts.refl _ chronicle
        evaluateAll := fun _ _ chronicle => Accounts.refl _ chronicle
        call := fun _ _ _ _ chronicle => Accounts.refl _ chronicle
        invoke := fun _ _ _ chronicle => Accounts.refl _ chronicle
        instantiate := fun _ _ _ chronicle => Accounts.refl _ chronicle
        execute := fun _ _ chronicle => Accounts.refl _ chronicle
        executeAll := fun _ _ chronicle => Accounts.refl _ chronicle }
  | succ fuel induction =>
      exact {
        evaluate := fun _ => induction.evaluate_succ
        evaluateAll := fun _ => induction.evaluateAll_succ
        call := fun _ => induction.call_succ
        invoke := fun _ => induction.invoke_succ
        instantiate := fun _ => induction.instantiate_succ
        execute := fun _ => induction.execute_succ
        executeAll := fun _ => induction.executeAll_succ }

/-! ## Programs and sessions -/

theorem accounts_executeProgram (fuel : Nat) (stmts : List Stmt) (chronicle : Chronicle) :
    Accounts (ProgramReaches fuel stmts chronicle.toMachine) chronicle
      (leftBy (executeProgram fuel stmts chronicle)) := by
  induction stmts generalizing chronicle with
  | nil => exact (Accounts.refl _ chronicle).take none Run.flush
  | cons stmt rest induction =>
      have first : Accounts (ProgramReaches fuel (stmt :: rest) chronicle.toMachine) chronicle
          (leftBy (execute fuel none stmt chronicle)) :=
        (Accounts.refl _ chronicle).trans ((reaching fuel).execute none stmt chronicle)
          fun _ _ => .first
      apply first.bind
      intro flow middle ended accounts
      exact accounts.trans (induction middle) fun _ _ => .following (execute_ran ended)

namespace Session

/-- The session without its memory is one that can be reached, and every task that it has written
down has been executed by a source, in a session that can be reached. -/
structure Accounted (sink : Sink) (clock : Nat → Float) (fuel : Nat) (session : Session) : Prop where
  reachable : Lox.Session.Reachable sink clock session.forget
  executed : ∀ moment ∈ session.chronicle.past, ∀ task, moment.event = .starts task →
    ∃ earlier source, Lox.Session.Reachable sink clock earlier ∧
      earlier.Executes fuel source task moment.machine

variable {sink : Sink} {clock : Nat → Float} {fuel : Nat} {session : Session}

theorem Accounted.start : (of (.start sink clock)).Accounted sink clock fuel :=
  ⟨.start, fun _ member => absurd member List.not_mem_nil⟩

theorem Accounted.run (accounted : session.Accounted sink clock fuel) (source : String) :
    (session.run fuel source).2.Accounted sink clock fuel := by
  have same : (session.run fuel source).2.forget = (session.forget.run fuel source).2 :=
    congrArg Prod.snd (run_forget fuel session source)
  refine ⟨same ▸ accounted.reachable.run fuel source, ?_⟩
  obtain ⟨chronicle, nextId⟩ := session
  rcases run_cases fuel nextId source with ⟨problems, rejected⟩ | ⟨clean, resolved, ran⟩
  · rw [rejected]
    exact accounted.executed
  · rw [ran, ended_snd]
    intro moment member task started
    rcases accounts_executeProgram fuel _ _ moment member with before | reached
    · exact accounted.executed moment before task started
    · exact ⟨_, source, accounted.reachable, ⟨clean, resolved⟩, reached task started⟩

theorem Accounted.runAll (accounted : session.Accounted sink clock fuel) (sources : List String) :
    (session.runAll fuel sources).2.Accounted sink clock fuel := by
  induction sources generalizing session with
  | nil => exact accounted
  | cons source rest induction => exact induction (accounted.run source)

end Session

end History

end Lox
