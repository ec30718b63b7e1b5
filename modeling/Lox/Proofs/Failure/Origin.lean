import Lox.Proofs.Failure.Raising
/-! Where failures come from. Every failure of a task is that of a part of it or that of its own
step, so every failure of a run comes from the step of a task that was reached; and whatever
surrounds this step leaves everything as it was when the step failed. -/

namespace Lox

open History

/-- The task fails because of a part of it, or because of its own step. -/
inductive Breaks (fuel : Nat) (stop : Stop) (after : Machine) (task : Task) (machine : Machine) :
    Prop
  | part {part middle left} : Starts fuel task machine part middle →
      part.Fails fuel middle stop left → left.Unchanged after → Breaks fuel stop after task machine
  | own {before} : Raises fuel stop after task machine before → Breaks fuel stop after task machine

namespace Breaks

variable {fuel : Nat} {stop : Stop} {machine after : Machine}

/-- The part stands in the frame of the task. -/
theorem here {task part : Task} {middle : Machine} (starts : Starts fuel task machine part middle)
    (failed : part.Fails fuel middle stop after) : Breaks fuel stop after task machine :=
  .part starts failed rfl

/-- The part stands in a frame of its own. -/
theorem inside {task part : Task} {entered : Machine} {frame : FrameId} {body : Run Flow}
    (starts : Starts fuel task machine part { entered with current := frame })
    (fails : ∀ left, body { entered with current := frame } = .error stop left →
      part.Fails fuel { entered with current := frame } stop left)
    (failed : Run.inside frame body entered = .error stop after) :
    Breaks fuel stop after task machine := by
  rw [run_inside_apply] at failed
  cases ended : body { entered with current := frame } with
  | ok flow left =>
      rw [ended] at failed
      cases failed
  | error other left =>
      rw [ended] at failed
      cases failed
      exact .part starts (fails left ended) rfl

/-! ## Expressions -/

theorem evaluate {expr : Expr} (failed : Lox.evaluate (fuel + 1) expr machine = .error stop after) :
    Breaks fuel stop after (.evaluate expr) machine := by
  rw [Lox.evaluate.eq_def] at failed
  dsimp only at failed
  cases expr with
  | literal value => cases failed
  | group inner => exact .here .group failed
  | unary operator right =>
      rcases error_of_bind failed with failed | ⟨value, before, operand, failed⟩
      · exact .here .unary failed
      · exact .own (.unary operand failed)
  | binary left operator right =>
      rcases error_of_bind failed with failed | ⟨first, middle, leftward, failed⟩
      · exact .here .binaryLeft failed
      rcases error_of_bind failed with failed | ⟨second, before, rightward, failed⟩
      · exact .here (.binaryRight leftward) failed
      · exact .own (.binary leftward rightward failed)
  | logical left operator right =>
      rcases error_of_bind failed with failed | ⟨value, middle, leftward, failed⟩
      · exact .here .logicalLeft failed
      cases decided : decides operator value with
      | true =>
          rw [decided] at failed
          cases failed
      | false =>
          rw [decided] at failed
          exact .here (.logicalRight leftward decided) failed
  | read id name => exact .own (.read failed)
  | assign id name expr =>
      rcases error_of_bind failed with failed | ⟨value, middle, assigned, failed⟩
      · exact .here .assigned failed
      rcases error_of_bind failed with failed | ⟨_, _, _, failed⟩
      · exact .here (.assignment assigned) failed
      · cases failed
  | call callee paren arguments =>
      rcases error_of_bind failed with failed | ⟨value, middle, found, failed⟩
      · exact .here .callee failed
      rcases error_of_bind failed with failed | ⟨values, before, given, failed⟩
      · exact .here (.arguments found) failed
      · exact .here (.called found given) failed
  | get object name =>
      rcases error_of_bind failed with failed | ⟨value, before, found, failed⟩
      · exact .here .getObject failed
      · refine .own (.get found ?_)
        cases value <;> exact failed
  | set object name expr =>
      rcases error_of_bind failed with failed | ⟨target, middle, found, failed⟩
      · exact .here .setObject failed
      cases target with
      | object id =>
          rcases error_of_bind failed with failed | ⟨value, before, _, failed⟩
          · exact .here (.setValue found) failed
          · cases failed
      | _ => exact .own (.set found nofun failed)
  | this id keyword => exact .own (.this failed)
  | super id keyword method => exact .own (.super failed)

theorem evaluateAll {exprs : List Expr}
    (failed : Lox.evaluateAll (fuel + 1) exprs machine = .error stop after) :
    Breaks fuel stop after (.evaluateAll exprs) machine := by
  rw [Lox.evaluateAll.eq_def] at failed
  cases exprs with
  | nil => cases failed
  | cons expr rest =>
      rcases error_of_bind failed with failed | ⟨value, middle, evaluated, failed⟩
      · exact .here .head failed
      rcases error_of_bind failed with failed | ⟨values, before, _, failed⟩
      · exact .here (.tail evaluated) failed
      · cases failed

/-! ## Calls -/

theorem call {callee : Value} {paren : Token} {arguments : List Value}
    (failed : Lox.call (fuel + 1) callee paren arguments machine = .error stop after) :
    Breaks fuel stop after (.call callee paren arguments) machine := by
  rw [Lox.call.eq_def] at failed
  dsimp only at failed
  rw [get_bind_apply] at failed
  cases arity : machine.arity? callee with
  | none =>
      rw [arity] at failed
      exact .own (.call (by rw [Heap.refusal?, arity]) failed)
  | some expected =>
      rw [arity] at failed
      dsimp only at failed
      by_cases differs : arguments.length ≠ expected
      · rw [if_pos differs] at failed
        exact .own (.call (by rw [Heap.refusal?, arity]; exact if_pos differs) failed)
      rw [if_neg differs] at failed
      have enough : arguments.length = expected := Decidable.not_not.mp differs
      cases callee with
      | native native =>
          cases native
          cases failed
      | function id =>
          dsimp only at failed
          rw [get_bind_apply] at failed
          cases found : machine.functions[id]? with
          | none =>
              rw [Heap.arity?, found] at arity
              cases arity
          | some closure =>
              rw [found] at failed
              rw [Heap.arity?, found] at arity
              exact .here (.function found (enough.trans (Option.some.inj arity).symm)) failed
      | classRef id => exact .here (.constructor (enough ▸ arity)) failed
      | _ =>
          have refused : (none : Option Nat) = some expected := arity
          cases refused

theorem invoke {closure : Closure FrameId} {arguments : List Value}
    (failed : Lox.invoke (fuel + 1) closure arguments machine = .error stop after) :
    Breaks fuel stop after (.invoke closure arguments) machine := by
  rw [Lox.invoke] at failed
  rcases error_of_bind failed with failed | ⟨frame, entered, framed, failed⟩
  · cases failed
  rcases error_of_bind failed with failed | ⟨_, bound, filled, failed⟩
  · cases failed
  cases filled
  rcases error_of_bind failed with failed | ⟨flow, left, _, failed⟩
  · exact .inside (.body framed) (fun _ => id) failed
  · cases initializer : closure.isInitializer with
    | true =>
        rw [initializer] at failed
        cases failed
    | false =>
        rw [initializer] at failed
        cases flow <;> cases failed

theorem instantiate {id : ClassId} {arguments : List Value}
    (failed : Lox.instantiate (fuel + 1) id arguments machine = .error stop after) :
    Breaks fuel stop after (.instantiate id arguments) machine := by
  rw [Lox.instantiate] at failed
  rcases error_of_bind failed with failed | ⟨object, made, created, failed⟩
  · cases failed
  rw [get_bind_apply] at failed
  cases found : made.method? id initializerName with
  | none =>
      rw [found] at failed
      cases failed
  | some initializer =>
      rw [found] at failed
      rcases error_of_bind failed with failed | ⟨closure, bound, binds, failed⟩
      · cases failed
      rcases error_of_bind failed with failed | ⟨_, _, _, failed⟩
      · exact .here (.initializer created found binds) failed
      · cases failed

/-! ## Statements -/

theorem execute {stmt : Stmt} (failed : Lox.execute (fuel + 1) stmt machine = .error stop after) :
    Breaks fuel stop after (.execute stmt) machine := by
  rw [Lox.execute.eq_def] at failed
  dsimp only at failed
  cases stmt with
  | expression expr =>
      rcases error_of_bind failed with failed | ⟨_, _, _, failed⟩
      · exact .here .expression failed
      · cases failed
  | print expr =>
      rcases error_of_bind failed with failed | ⟨value, before, evaluated, failed⟩
      · exact .here .print failed
      rcases error_of_bind failed with failed | ⟨_, _, _, failed⟩
      · exact .own (.print evaluated failed)
      · cases failed
  | var name initial =>
      cases initial with
      | none => cases failed
      | some initial =>
          rcases error_of_bind failed with failed | ⟨_, _, _, failed⟩
          · exact .here .initial failed
          · cases failed
  | block body =>
      rcases error_of_bind failed with failed | ⟨_, _, looked, failed⟩
      · cases failed
      cases looked
      rcases error_of_bind failed with failed | ⟨frame, entered, framed, failed⟩
      · cases failed
      · exact .inside (.block framed) (fun _ => id) failed
  | conditional condition thenBranch elseBranch =>
      rcases error_of_bind failed with failed | ⟨value, middle, tested, failed⟩
      · exact .here .condition failed
      cases holds : value.isTruthy with
      | true =>
          rw [holds] at failed
          exact .here (.thenBranch tested holds) failed
      | false =>
          rw [holds] at failed
          cases elseBranch with
          | none => cases failed
          | some elseBranch => exact .here (.elseBranch tested holds) failed
  | loop condition body =>
      rcases error_of_bind failed with failed | ⟨value, middle, tested, failed⟩
      · exact .here .tested failed
      cases holds : value.isTruthy with
      | false =>
          rw [holds] at failed
          cases failed
      | true =>
          rw [holds] at failed
          rcases error_of_bind failed with failed | ⟨flow, left, done, failed⟩
          · exact .here (.round tested holds) failed
          cases flow with
          | returned value => cases failed
          | normal => exact .here (.again tested holds done) failed
  | function routine => cases failed
  | returns keyword value =>
      cases value with
      | none => cases failed
      | some value =>
          rcases error_of_bind failed with failed | ⟨_, _, _, failed⟩
          · exact .here .returned failed
          · cases failed
  | classDecl name superclass methods =>
      cases superclass with
      | none =>
          rcases error_of_bind failed with failed | ⟨_, _, _, failed⟩
          · exact .own (.plain failed)
          · cases failed
      | some superclass =>
          rcases error_of_bind failed with failed | ⟨value, before, evaluated, failed⟩
          · exact .here .superclass failed
          cases value with
          | classRef id =>
              rcases error_of_bind failed with failed | ⟨_, _, _, failed⟩
              · exact .own (.derived evaluated failed)
              · cases failed
          | _ => exact .own (.superclass evaluated nofun failed)

theorem executeAll {stmts : List Stmt}
    (failed : Lox.executeAll (fuel + 1) stmts machine = .error stop after) :
    Breaks fuel stop after (.executeAll stmts) machine := by
  rw [Lox.executeAll.eq_def] at failed
  cases stmts with
  | nil => cases failed
  | cons stmt rest =>
      rcases error_of_bind failed with failed | ⟨flow, middle, done, failed⟩
      · exact .here .first failed
      cases flow with
      | returned value => cases failed
      | normal => exact .here (.following done) failed

end Breaks

/-- A task that fails fails because of a part, or because of its own step. -/
theorem Task.Fails.breaks {fuel : Nat} {task : Task} {machine after : Machine} {stop : Stop}
    (failed : task.Fails (fuel + 1) machine stop after) : Breaks fuel stop after task machine := by
  cases task with
  | evaluate expr => exact .evaluate failed
  | evaluateAll exprs => exact .evaluateAll failed
  | store id name value => exact .own (.store failed)
  | call callee paren arguments => exact .call failed
  | invoke closure arguments => exact .invoke failed
  | instantiate id arguments => exact .instantiate failed
  | execute stmt => exact .execute failed
  | executeAll stmts => exact .executeAll failed

/-! ## Runs -/

theorem Machine.Unchanged.trans {before middle after : Machine} (first : before.Unchanged middle)
    (second : middle.Unchanged after) : before.Unchanged after := by
  rw [Machine.Unchanged, second, first]

/-- Without fuel only assignments come to a fault. -/
theorem Task.Fails.store_of_zero {task : Task} {machine after : Machine} {problem : RuntimeFault}
    {line : Nat} (failed : task.Fails 0 machine (.fault problem line) after) :
    ∃ id name value, task = .store id name value ∧
      Run.store id name value machine = .error (.fault problem line) after := by
  cases task with
  | store id name value => exact ⟨id, name, value, rfl, failed⟩
  | evaluate expr =>
      rw [Task.Fails, Lox.evaluate.eq_def] at failed
      cases failed
  | evaluateAll exprs =>
      rw [Task.Fails, Lox.evaluateAll.eq_def] at failed
      cases failed
  | call callee paren arguments =>
      rw [Task.Fails, Lox.call.eq_def] at failed
      cases failed
  | invoke closure arguments =>
      rw [Task.Fails, Lox.invoke.eq_def] at failed
      cases failed
  | instantiate id arguments =>
      rw [Task.Fails, Lox.instantiate.eq_def] at failed
      cases failed
  | execute stmt =>
      rw [Task.Fails, Lox.execute.eq_def] at failed
      cases failed
  | executeAll stmts =>
      rw [Task.Fails, Lox.executeAll.eq_def] at failed
      cases failed

/-- A fault comes from the step of some task that was started, and is passed on as it is. -/
theorem Task.Fails.origin {fuel : Nat} {task : Task} {machine after : Machine}
    {problem : RuntimeFault} {line : Nat}
    (failed : task.Fails fuel machine (.fault problem line) after) :
    ∃ further last final before left, Reaches fuel task machine last final ∧
      Raises further (.fault problem line) left last final before ∧ left.Unchanged after := by
  induction fuel generalizing task machine after with
  | zero =>
      obtain ⟨id, name, value, rfl, stored⟩ := failed.store_of_zero
      exact ⟨0, _, _, _, _, .here, .store stored, rfl⟩
  | succ fuel induction =>
      cases failed.breaks with
      | part starts failed passed =>
          obtain ⟨further, last, final, before, left, reaches, raises, kept⟩ := induction failed
          exact ⟨further, last, final, before, left, .part starts reaches, raises,
            kept.trans passed⟩
      | own raises => exact ⟨fuel, _, _, _, _, .here, raises, rfl⟩

theorem executeProgram_origin {fuel : Nat} {stmts : List Stmt} {machine after : Machine}
    {problem : RuntimeFault} {line : Nat}
    (failed : executeProgram fuel stmts machine = .error (.fault problem line) after) :
    ∃ further last final before left, ProgramReaches fuel stmts machine last final ∧
      Raises further (.fault problem line) left last final before ∧ left.Unchanged after := by
  induction stmts generalizing machine with
  | nil =>
      have flushed : Run.flush machine = .error (.fault problem line) after := failed
      rw [Run.flush_eq] at flushed
      split at flushed <;> cases flushed
  | cons stmt rest induction =>
      rcases error_of_bind failed with failed | ⟨flow, middle, executed, failed⟩
      · have failed : Task.Fails fuel machine (.fault problem line) after (.execute stmt) := failed
        obtain ⟨further, last, final, before, left, reaches, rest⟩ := failed.origin
        exact ⟨further, last, final, before, left, .first reaches, rest⟩
      · obtain ⟨further, last, final, before, left, reaches, rest⟩ := induction failed
        exact ⟨further, last, final, before, left, .following executed reaches, rest⟩

end Lox
