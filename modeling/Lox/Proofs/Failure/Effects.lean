import Lox.Proofs.Failure.Origin
/-! What a failure leaves. A step that fails has changed nothing, so a run that ends with a fault
leaves everything as it was when the step that failed was due. A class declaration checks first
what it needs: from then on it cannot fail, and its name never keeps the nil that it is bound to
in between. -/

namespace Lox

open History Lexical

/-! ## Steps -/

/-- The step of a task that ends with a fault has no effect. -/
theorem Raises.unchanged {fuel : Nat} {problem : RuntimeFault} {line : Nat} {task : Task}
    {machine before after : Machine}
    (present : ∀ stmt, task = .execute stmt → machine.current < machine.forest.size)
    (raises : Raises fuel (.fault problem line) after task machine before) : after = before := by
  cases raises with
  | unary _ failed => exact Run.ofExcept_error failed
  | binary _ _ failed => exact Run.ofExcept_error failed
  | read failed => exact Run.lookUp_error failed
  | this failed => exact Run.lookUp_error failed
  | super failed => exact Run.readSuperMethod_error failed
  | get _ failed => exact Run.propertyOf_error failed
  | set _ _ failed =>
      cases failed
      rfl
  | store failed => exact Run.store_error failed
  | call _ failed =>
      cases failed
      rfl
  | print _ failed =>
      rw [Run.print_eq] at failed
      split at failed <;> cases failed
  | superclass _ _ failed =>
      cases failed
      rfl
  | plain failed =>
      obtain ⟨_, _, declared, _⟩ := declareClass_ok (present _ rfl) _ none _
      cases declared.symm.trans failed
  | derived evaluated failed =>
      have kept := evaluate_onward evaluated
      have there : before.current < before.forest.size := by
        rw [kept.current]
        exact Nat.lt_of_lt_of_le (present _ rfl) kept.frames
      obtain ⟨_, _, declared, _⟩ := declareClass_ok there _ (some _) _
      cases declared.symm.trans failed

/-! ## Checks that come first -/

/-- The name is bound to a class of this frame that has its methods and its superclass. -/
def Machine.HoldsClass (machine : Machine) (frame : FrameId) (name : Token)
    (superclass : Option ClassId) (methods : List Routine) : Prop :=
  ∃ id around, machine.forest.own? frame name.lexeme = some (.classRef id) ∧
    machine.classes[id]? = some ⟨name.lexeme, superclass, methodTable around methods⟩

/-- A class declaration has only evaluated its superclass when it fails, and does not fail once it
has it. A call that is refused starts nothing. A write that fails writes nothing. -/
def Task.Guarded (fuel : Nat) (machine : Machine) : Task → Prop
  | .execute (.classDecl name none methods) =>
      ∃ after, Lox.execute (fuel + 1) (.classDecl name none methods) machine = .ok .normal after ∧
        after.HoldsClass machine.current name none methods
  | .execute (.classDecl name (some superclass) methods) =>
      (∀ stop after,
        Lox.execute (fuel + 1) (.classDecl name (some superclass) methods) machine =
            .error stop after →
          after = leftBy (Lox.evaluate fuel superclass machine) ∧
            ∀ id blamed, superclass = .read id blamed → after = machine) ∧
      ∀ id before, Lox.evaluate fuel superclass machine = .ok (.classRef id) before →
        ∃ after,
          Lox.execute (fuel + 1) (.classDecl name (some superclass) methods) machine =
              .ok .normal after ∧
            after.HoldsClass machine.current name (some id) methods
  | .call callee paren arguments =>
      ∀ problem, machine.refusal? callee arguments.length = some problem →
        Lox.call (fuel + 1) callee paren arguments machine =
            .error (.fault problem paren.line) machine ∧
          ∀ part middle, ¬ Starts fuel (.call callee paren arguments) machine part middle
  | .store id name value =>
      ∀ stop after, Run.store id name value machine = .error stop after → after = machine
  | .evaluate (.assign id name expr) =>
      ∀ value before stop after, Lox.evaluate fuel expr machine = .ok value before →
        Run.store id name value before = .error stop after →
          Lox.evaluate (fuel + 1) (.assign id name expr) machine = .error stop before
  | .evaluate (.set object name expr) =>
      ∀ value before, Lox.evaluate fuel object machine = .ok value before →
        (∀ id, value ≠ .object id) →
          Lox.evaluate (fuel + 1) (.set object name expr) machine =
              .error (.fault .noFields name.line) before ∧
            ∀ part middle, Starts fuel (.evaluate (.set object name expr)) machine part middle →
              part = .evaluate object ∧ middle = machine
  | _ => True

namespace Task.Guarded

variable {fuel : Nat} {machine : Machine}

theorem plain (present : machine.current < machine.forest.size) (name : Token)
    (methods : List Routine) :
    Task.Guarded fuel machine (.execute (.classDecl name none methods)) := by
  obtain ⟨after, frame, declared, bound, complete⟩ := declareClass_ok present name none methods
  refine ⟨after, ?_, _, frame, bound, complete⟩
  rw [Lox.execute.eq_def]
  dsimp only
  rw [bind_apply, declared]
  rfl

theorem derived (present : machine.current < machine.forest.size) (name : Token)
    (superclass : Expr) (methods : List Routine) :
    Task.Guarded fuel machine (.execute (.classDecl name (some superclass) methods)) := by
  have declares (id : ClassId) (before : Machine)
      (evaluated : Lox.evaluate fuel superclass machine = .ok (.classRef id) before) :
      ∃ after, Lox.execute (fuel + 1) (.classDecl name (some superclass) methods) machine =
          .ok .normal after ∧ after.HoldsClass machine.current name (some id) methods := by
    have kept := evaluate_onward evaluated
    have there : before.current < before.forest.size := by
      rw [kept.current]
      exact Nat.lt_of_lt_of_le present kept.frames
    obtain ⟨after, frame, declared, bound, complete⟩ :=
      declareClass_ok there name (some id) methods
    refine ⟨after, ?_, _, frame, kept.current ▸ bound, complete⟩
    rw [Lox.execute.eq_def]
    dsimp only
    rw [bind_apply, evaluated]
    dsimp only
    rw [bind_apply, declared]
    rfl
  refine ⟨fun stop after failed => ?_, declares⟩
  have evaluatedOnly : after = leftBy (Lox.evaluate fuel superclass machine) := by
    cases evaluated : Lox.evaluate fuel superclass machine with
    | error other left =>
        rw [Lox.execute.eq_def] at failed
        dsimp only at failed
        rw [bind_apply, evaluated] at failed
        cases failed
        rfl
    | ok value before =>
        cases value with
        | classRef id =>
            obtain ⟨_, declared, _⟩ := declares id before evaluated
            cases declared.symm.trans failed
        | _ =>
            rw [Lox.execute.eq_def] at failed
            dsimp only at failed
            rw [bind_apply, evaluated] at failed
            cases failed
            rfl
  refine ⟨evaluatedOnly, ?_⟩
  rintro id blamed rfl
  rw [evaluatedOnly]
  cases fuel with
  | zero => rfl
  | succ fuel =>
      show leftBy (Run.ofExcept (machine.valueOf id blamed.lexeme) blamed machine) = machine
      cases machine.valueOf id blamed.lexeme <;> rfl

theorem call (callee : Value) (paren : Token) (arguments : List Value) :
    Task.Guarded fuel machine (.call callee paren arguments) := by
  intro problem refused
  rw [Heap.refusal?] at refused
  constructor
  · rw [Lox.call.eq_def]
    dsimp only
    rw [get_bind_apply]
    cases arity : machine.arity? callee with
    | none =>
        rw [arity] at refused
        cases refused
        rfl
    | some expected =>
        rw [arity] at refused
        dsimp only at refused ⊢
        by_cases differs : arguments.length ≠ expected
        · rw [if_pos differs] at refused ⊢
          cases refused
          rfl
        · rw [if_neg differs] at refused
          cases refused
  · intro part middle starts
    cases starts with
    | function found enough =>
        rw [Heap.arity?, found] at refused
        simp [enough] at refused
    | constructor enough =>
        rw [enough] at refused
        simp at refused

theorem assign (id : OccurrenceId) (name : Token) (expr : Expr) :
    Task.Guarded fuel machine (.evaluate (.assign id name expr)) := by
  intro value before stop after evaluated failed
  rw [Lox.evaluate.eq_def]
  dsimp only
  rw [bind_apply, evaluated]
  dsimp only
  rw [bind_apply, failed, Run.store_error failed]

theorem set (object : Expr) (name : Token) (expr : Expr) :
    Task.Guarded fuel machine (.evaluate (.set object name expr)) := by
  intro value before evaluated other
  constructor
  · rw [Lox.evaluate.eq_def]
    dsimp only
    rw [bind_apply, evaluated]
    cases value with
    | object id => exact absurd rfl (other id)
    | _ => rfl
  · intro part middle starts
    cases starts with
    | setObject => exact ⟨rfl, rfl⟩
    | setValue found =>
        cases evaluated.symm.trans found
        exact absurd rfl (other _)

end Task.Guarded

theorem Task.guarded {machine : Machine} {task : Task}
    (present : ∀ stmt, task = .execute stmt → machine.current < machine.forest.size)
    (fuel : Nat) : task.Guarded fuel machine := by
  cases task with
  | evaluate expr =>
      cases expr with
      | assign id name expr => exact .assign id name expr
      | set object name expr => exact .set object name expr
      | _ => trivial
  | store id name value => exact fun _ _ => Run.store_error
  | call callee paren arguments => exact .call callee paren arguments
  | execute stmt =>
      cases stmt with
      | classDecl name superclass methods =>
          cases superclass with
          | none => exact .plain (present _ rfl) name methods
          | some superclass => exact .derived (present _ rfl) name superclass methods
      | _ => trivial
  | _ => trivial

/-! ## Sessions -/

/-- A fault of the task is that of a part, which the task passes on, or that of its own step, which
leaves the machine as the last part has left it. -/
structure Task.Traceless (machine : Machine) (task : Task) : Prop where
  faults : ∀ fuel problem line after, task.Fails (fuel + 1) machine (.fault problem line) after →
    (∃ part middle left, Starts fuel task machine part middle ∧
      part.Fails fuel middle (.fault problem line) left ∧ left.Unchanged after) ∨
    Raises fuel (.fault problem line) after task machine after
  guarded : ∀ fuel, task.Guarded fuel machine

theorem Task.traceless {machine : Machine} {task : Task}
    (present : ∀ stmt, task = .execute stmt → machine.current < machine.forest.size) :
    task.Traceless machine where
  faults fuel problem line after failed := by
    cases failed.breaks with
    | part starts failed passed => exact .inl ⟨_, _, _, starts, failed, passed⟩
    | own raises =>
        cases raises.unchanged present
        exact .inr raises
  guarded := Task.guarded present

/-- Statements are executed in a frame that is there. -/
theorem Lexical.Fitting.present {recorded : OccurrenceId → Option Nat → Prop} {machine : Lox.Machine}
    {task : Task} (fitting : Fitting recorded machine task) (stmt : Stmt)
    (executed : task = .execute stmt) : machine.current < machine.forest.size := by
  subst executed
  rcases fitting with ⟨_, world, rfl, sound, scopes, environment, stands, _⟩
  exact sound.lt_size stands.fits

namespace Session

theorem Executes.present {sink : Sink} {clock : Nat → Float} {session : Session}
    (reachable : Reachable sink clock session) {fuel : Nat} {source : String} {task : Task}
    {machine : Machine} (executes : session.Executes fuel source task machine) (stmt : Stmt)
    (executed : task = .execute stmt) : machine.current < machine.forest.size := by
  obtain ⟨begins, holds⟩ := reachable_begins reachable executes.1
  exact (ProgramReaches.fitting executes.2 begins holds).present stmt executed

/-- In whatever a session has come to, a step that fails has no effect: each fault comes from the
step of a task, and what the run leaves is what the last part of this task has left. -/
theorem failures_leave_no_trace {sink : Sink} {clock : Nat → Float} {session : Session}
    (reachable : Reachable sink clock session) (fuel : Nat) (source : String) :
    (∀ task machine, session.Executes fuel source task machine → task.Traceless machine) ∧
    ∀ problem line, (session.run fuel source).1 = .failed (.runtime problem line) →
      ∃ further task machine before, session.Executes fuel source task machine ∧
        Raises further (.fault problem line) before task machine before ∧
        before.Unchanged (session.run fuel source).2.machine := by
  refine ⟨fun task machine executes => Task.traceless (executes.present reachable), ?_⟩
  intro problem line ended
  by_cases accepted : session.Accepts source
  · rw [run_accepted fuel accepted] at ended ⊢
    cases ran : executeProgram fuel (readSource source session.nextId).statements
        (session.ready source) with
    | ok _ after =>
        rw [ran] at ended
        cases ended
    | error stop after =>
        rw [ran] at ended
        cases stop with
        | fault problem line =>
            cases ended
            obtain ⟨further, task, machine, before, left, reaches, raises, kept⟩ :=
              executeProgram_origin ran
            have executes : session.Executes fuel source task machine := ⟨accepted, reaches⟩
            cases raises.unchanged (executes.present reachable)
            exact ⟨further, task, machine, before, executes, raises, kept⟩
        | sink fault => cases ended
        | exhausted => cases ended
  · obtain ⟨problems, rejected⟩ := run_rejected fuel accepted
    rw [rejected] at ended
    cases ended

/-- A class whose superclass is not one, declared where nothing else is. -/
theorem failures_leave_no_trace_superclass :
    Reachable .unlimited (fun _ => 0) (.start .unlimited fun _ => 0) ∧
      ((start .unlimited fun _ => 0).run 9 "{ var a; class B < a { } }").1 =
        .failed (.runtime .superclassNotClass 1) ∧
      ∃ further task machine before,
        (start .unlimited fun _ => 0).Executes 9 "{ var a; class B < a { } }" task machine ∧
        Raises further (.fault .superclassNotClass 1) before task machine before ∧
        before.Unchanged
          ((start .unlimited fun _ => 0).run 9 "{ var a; class B < a { } }").2.machine := by
  have reachable : Reachable .unlimited (fun _ => 0) (.start .unlimited fun _ => 0) := .start
  have statements : (readSource "{ var a; class B < a { } }" 0).statements =
      [.block [.var ⟨.identifier, "a", 1⟩ none,
        .classDecl ⟨.identifier, "B", 1⟩ (some (.read 0 ⟨.identifier, "a", 1⟩)) []]] := by
    with_unfolding_all rfl
  have accepted : (start .unlimited fun _ => 0).Accepts "{ var a; class B < a { } }" := by
    refine ⟨by decide +kernel, ?_⟩
    show (resolve (readSource "{ var a; class B < a { } }" 0).statements).problems = []
    rw [statements]
    decide
  have ended : ((start .unlimited fun _ => 0).run 9 "{ var a; class B < a { } }").1 =
      .failed (.runtime .superclassNotClass 1) := by
    rw [run_accepted 9 accepted, Session.ready]
    simp only [show (start .unlimited fun _ => 0).nextId = 0 from rfl, statements]
    rfl
  exact ⟨reachable, ended, (failures_leave_no_trace reachable 9 _).2 _ _ ended⟩

end Session

end Lox
