import Lox.Proofs.History.Onward
import Lox.Proofs.Scope.Returning
/-! How far a return goes. A statement ends with a return when the return is reached from it
without entering a function; nothing happens from then on until the body has been left. A call
yields the value of the return that ends the body of the function, and the code around the call
goes on from there. -/

namespace Lox

/-! ## Code that belongs to one body -/

/-- The returns that belong to the body in which the code stands. -/
def Task.ownReturns : Task → List (Token × Option Expr)
  | .execute stmt => stmt.ownReturns
  | .executeAll stmts => Stmt.allOwnReturns stmts
  | _ => []

namespace History

/-- The statements come to an end in this way. -/
def Task.Ends (fuel : Nat) (around : Option Activation) (chronicle : Chronicle) (flow : Flow)
    (after : Chronicle) : Task → Prop
  | .execute stmt => History.execute fuel around stmt chronicle = .ok flow after
  | .executeAll stmts => History.executeAll fuel around stmts chronicle = .ok flow after
  | _ => False

/-- Executing the first statements, with a unit of fuel more than is given here, the second ones
are started, which stand in them and in the same body. -/
inductive Enters (fuel : Nat) (around : Option Activation) :
    Task → Chronicle → Task → Chronicle → Prop
  | block {body frame chronicle framed} :
      take around (Run.newFrame chronicle.current)
        (chronicle.note around (.starts (.execute (.block body)))) = .ok frame framed →
      Enters fuel around (.execute (.block body)) chronicle
        (.executeAll body) { framed with current := frame }
  | thenBranch {condition thenBranch elseBranch value chronicle middle} :
      evaluate fuel around condition (chronicle.note around
        (.starts (.execute (.conditional condition thenBranch elseBranch)))) = .ok value middle →
      value.isTruthy = true →
      Enters fuel around (.execute (.conditional condition thenBranch elseBranch)) chronicle
        (.execute thenBranch) middle
  | elseBranch {condition thenBranch elseBranch value chronicle middle} :
      evaluate fuel around condition (chronicle.note around
        (.starts (.execute (.conditional condition thenBranch (some elseBranch))))) =
          .ok value middle →
      value.isTruthy = false →
      Enters fuel around (.execute (.conditional condition thenBranch (some elseBranch))) chronicle
        (.execute elseBranch) middle
  | round {condition body value chronicle middle} :
      evaluate fuel around condition
        (chronicle.note around (.starts (.execute (.loop condition body)))) = .ok value middle →
      value.isTruthy = true →
      Enters fuel around (.execute (.loop condition body)) chronicle (.execute body) middle
  | again {condition body value chronicle middle done} :
      evaluate fuel around condition
        (chronicle.note around (.starts (.execute (.loop condition body)))) = .ok value middle →
      value.isTruthy = true → execute fuel around body middle = .ok .normal done →
      Enters fuel around (.execute (.loop condition body)) chronicle
        (.execute (.loop condition body)) done
  | first {stmt rest chronicle} :
      Enters fuel around (.executeAll (stmt :: rest)) chronicle
        (.execute stmt) (chronicle.note around (.starts (.executeAll (stmt :: rest))))
  | following {stmt rest chronicle done} :
      execute fuel around stmt (chronicle.note around (.starts (.executeAll (stmt :: rest)))) =
        .ok .normal done →
      Enters fuel around (.executeAll (stmt :: rest)) chronicle (.executeAll rest) done

/-- While the first statements are executed, the last ones are started at some time, without a
function being entered for it. -/
inductive Leads (around : Option Activation) :
    Nat → Task → Chronicle → Nat → Task → Chronicle → Prop
  | here {fuel task chronicle} : Leads around fuel task chronicle fuel task chronicle
  | part {fuel task chronicle part middle further last final} :
      Enters fuel around task chronicle part middle →
      Leads around fuel part middle further last final →
      Leads around (fuel + 1) task chronicle further last final

/-- What a return gives, and when it has it: the value of its expression, or nil if it has none. -/
def Gives (fuel : Nat) (around : Option Activation) (keyword : Token) :
    Option Expr → Chronicle → Value → Chronicle → Prop
  | none, chronicle, value, done =>
      value = .nil ∧ done = chronicle.note around (.starts (.execute (.returns keyword none)))
  | some expr, chronicle, value, done =>
      evaluate fuel around expr
        (chronicle.note around (.starts (.execute (.returns keyword (some expr))))) =
          .ok value done

/-- The code comes to one of its own returns, which gives the value; from then on nothing is done
any more, but the previous frame is the current one again. -/
def Returns (fuel : Nat) (around : Option Activation) (task : Task) (chronicle : Chronicle)
    (value : Value) (after : Chronicle) : Prop :=
  ∃ keyword value?, (keyword, value?) ∈ task.ownReturns ∧
    ∃ further before done,
      Leads around fuel task chronicle (further + 1) (.execute (.returns keyword value?)) before ∧
      Gives further around keyword value? before value done ∧
      after = { done with current := chronicle.current }

/-! ## Frames -/

variable {fuel : Nat} {around : Option Activation} {chronicle after : Chronicle} {value : Value}
  {flow : Flow} {task part : Task}

theorem current_of_records {α : Type} {recorded : Recorded α} {run : Run α} {result : α}
    (records : Records recorded run) (keeps : run.Keeps)
    (ended : recorded chronicle = .ok result after) : after.current = chronicle.current := by
  have kept := keeps chronicle.toMachine
  rw [← records chronicle, ended] at kept
  exact kept.current

theorem evaluate_current {expr : Expr}
    (ended : evaluate fuel around expr chronicle = .ok value after) :
    after.current = chronicle.current :=
  current_of_records ((compatible_records.corresponds fuel).evaluate around expr)
    ((code_keeps fuel).evaluate around expr) ended

theorem evaluateAll_current {exprs : List Expr} {values : List Value}
    (ended : evaluateAll fuel around exprs chronicle = .ok values after) :
    after.current = chronicle.current :=
  current_of_records ((compatible_records.corresponds fuel).evaluateAll around exprs)
    ((code_keeps fuel).evaluateAll around exprs) ended

theorem execute_current {stmt : Stmt} (ended : execute fuel around stmt chronicle = .ok flow after) :
    after.current = chronicle.current :=
  current_of_records ((compatible_records.corresponds fuel).execute around stmt)
    ((code_keeps fuel).execute around stmt) ended

theorem executeAll_current {stmts : List Stmt}
    (ended : executeAll fuel around stmts chronicle = .ok flow after) :
    after.current = chronicle.current :=
  current_of_records ((compatible_records.corresponds fuel).executeAll around stmts)
    ((code_keeps fuel).executeAll around stmts) ended

theorem invoke_current {closure : Closure FrameId} {arguments : List Value}
    (ended : invoke fuel around closure arguments chronicle = .ok value after) :
    after.current = chronicle.current :=
  current_of_records ((compatible_records.corresponds fuel).invoke around closure arguments)
    ((code_keeps fuel).invoke around closure arguments) ended

theorem newFrame_current {outer frame : FrameId}
    (ended : take around (Run.newFrame outer) chronicle = .ok frame after) :
    after.current = chronicle.current :=
  current_of_records (records_step around .passes _ _) (Run.closed_keeps.newFrame outer) ended

theorem Task.Ends.current (ends : Task.Ends fuel around chronicle flow after task) :
    after.current = chronicle.current := by
  cases task with
  | execute stmt => exact execute_current ends
  | executeAll stmts => exact executeAll_current ends
  | _ => exact ends.elim

theorem Gives.current {keyword : Token} {value? : Option Expr}
    (gives : Gives fuel around keyword value? chronicle value after) :
    after.current = chronicle.current := by
  cases value? with
  | none =>
      cases gives.2
      rfl
  | some expr =>
      have ended : evaluate fuel around expr _ = .ok value after := gives
      exact (evaluate_current ended :)

theorem Chronicle.withCurrent_self {frame : FrameId} (same : after.current = frame) :
    { after with current := frame } = after := by
  cases same
  rfl

/-! ## Statements that govern others -/

section

variable (fuel around chronicle)

theorem execute_block (body : List Stmt) :
    execute (fuel + 1) around (.block body) chronicle =
      (do
        let frame ← take around (Run.newFrame chronicle.current)
        inside frame (executeAll fuel around body))
        (chronicle.note around (.starts (.execute (.block body)))) := by
  rw [execute.eq_def]
  rfl

theorem execute_conditional (condition : Expr) (thenBranch : Stmt) (elseBranch : Option Stmt) :
    execute (fuel + 1) around (.conditional condition thenBranch elseBranch) chronicle =
      (do
        if (← evaluate fuel around condition).isTruthy then
          execute fuel around thenBranch
        else
          match elseBranch with
          | some elseBranch => execute fuel around elseBranch
          | none => return .normal : Recorded Flow)
        (chronicle.note around
          (.starts (.execute (.conditional condition thenBranch elseBranch)))) := by
  rw [execute.eq_def]
  rfl

theorem execute_loop (condition : Expr) (body : Stmt) :
    execute (fuel + 1) around (.loop condition body) chronicle =
      (do
        if (← evaluate fuel around condition).isTruthy then
          match ← execute fuel around body with
          | .returned value => return .returned value
          | .normal => execute fuel around (.loop condition body)
        else
          return .normal : Recorded Flow)
        (chronicle.note around (.starts (.execute (.loop condition body)))) := by
  rw [execute.eq_def]
  rfl

theorem executeAll_cons (stmt : Stmt) (rest : List Stmt) :
    executeAll (fuel + 1) around (stmt :: rest) chronicle =
      (do
        match ← execute fuel around stmt with
        | .returned value => return .returned value
        | .normal => executeAll fuel around rest : Recorded Flow)
        (chronicle.note around (.starts (.executeAll (stmt :: rest)))) := by
  rw [executeAll.eq_def]
  rfl

end

/-! ## Steps -/

/-- The returns of a part are those of the whole. -/
theorem Enters.ownReturns {middle : Chronicle} (enters : Enters fuel around task chronicle part middle)
    {entry : Token × Option Expr} (inside : entry ∈ part.ownReturns) :
    entry ∈ task.ownReturns := by
  cases enters with
  | block => exact inside
  | @thenBranch condition thenBranch elseBranch =>
      cases elseBranch with
      | none => exact inside
      | some elseBranch => exact List.mem_append_left _ inside
  | elseBranch => exact List.mem_append_right _ inside
  | round => exact inside
  | again => exact inside
  | first => exact List.mem_append_left _ inside
  | following => exact List.mem_append_right _ inside

/-- What returns in a part returns in the whole. -/
theorem Enters.returned {middle left : Chronicle}
    (enters : Enters fuel around task chronicle part middle)
    (ends : Task.Ends fuel around middle (.returned value) left part) :
    Task.Ends (fuel + 1) around chronicle (.returned value)
      { left with current := chronicle.current } task := by
  cases enters with
  | @block body frame _ framed made =>
      have ended : executeAll fuel around body { framed with current := frame } =
          .ok (.returned value) left := ends
      have outside : framed.current = chronicle.current := (newFrame_current made :)
      rw [Task.Ends, execute_block, bind_apply, made]
      dsimp only
      rw [inside_apply, ended, outside]
      rfl
  | @thenBranch condition thenBranch elseBranch _ _ _ tested holds =>
      have same : left.current = chronicle.current :=
        ends.current.trans (evaluate_current tested :)
      rw [Chronicle.withCurrent_self same, Task.Ends, execute_conditional, bind_apply, tested]
      dsimp only
      rw [if_pos holds]
      exact ends
  | elseBranch tested holds =>
      have same : left.current = chronicle.current :=
        ends.current.trans (evaluate_current tested :)
      rw [Chronicle.withCurrent_self same, Task.Ends, execute_conditional, bind_apply, tested]
      dsimp only
      rw [if_neg (Bool.eq_false_iff.mp holds)]
      exact ends
  | round tested holds =>
      have same : left.current = chronicle.current :=
        ends.current.trans (evaluate_current tested :)
      have ended : execute fuel around _ middle = .ok (.returned value) left := ends
      rw [Chronicle.withCurrent_self same, Task.Ends, execute_loop, bind_apply, tested]
      dsimp only
      rw [if_pos holds, bind_apply, ended]
      rfl
  | again tested holds done =>
      have same : left.current = chronicle.current :=
        ends.current.trans ((execute_current done :).trans (evaluate_current tested :))
      rw [Chronicle.withCurrent_self same, Task.Ends, execute_loop, bind_apply, tested]
      dsimp only
      rw [if_pos holds, bind_apply, done]
      exact ends
  | first =>
      have same : left.current = chronicle.current := ends.current
      have ended : execute fuel around _ _ = .ok (.returned value) left := ends
      rw [Chronicle.withCurrent_self same, Task.Ends, executeAll_cons, bind_apply, ended]
      rfl
  | following done =>
      have same : left.current = chronicle.current :=
        ends.current.trans (execute_current done :)
      rw [Chronicle.withCurrent_self same, Task.Ends, executeAll_cons, bind_apply, done]
      exact ends

/-- Without fuel nothing ends. -/
theorem Task.Ends.not_zero (ends : Task.Ends 0 around chronicle flow after task) : False := by
  cases task with
  | execute stmt =>
      rw [Task.Ends, execute.eq_def] at ends
      cases ends
  | executeAll stmts =>
      rw [Task.Ends, executeAll.eq_def] at ends
      cases ends
  | _ => exact ends

/-- The return comes from one of the parts. -/
def InPart (fuel : Nat) (around : Option Activation) (task : Task) (chronicle : Chronicle)
    (value : Value) (after : Chronicle) : Prop :=
  ∃ part middle left, Enters fuel around task chronicle part middle ∧
    Task.Ends fuel around middle (.returned value) left part ∧
    after = { left with current := chronicle.current }

theorem inPart {middle : Chronicle} (enters : Enters fuel around task chronicle part middle)
    (ends : Task.Ends fuel around middle (.returned value) after part)
    (same : middle.current = chronicle.current) :
    InPart fuel around task chronicle value after :=
  ⟨part, middle, after, enters, ends,
    (Chronicle.withCurrent_self (ends.current.trans same)).symm⟩

/-- What returns is a return or has a part that returns. -/
theorem Task.Ends.returned_cases
    (ends : Task.Ends (fuel + 1) around chronicle (.returned value) after task) :
    InPart fuel around task chronicle value after ∨
      ∃ keyword value?, task = .execute (.returns keyword value?) ∧
        Gives fuel around keyword value? chronicle value after := by
  cases task with
  | executeAll stmts =>
      cases stmts with
      | nil =>
          rw [Task.Ends, executeAll.eq_def] at ends
          cases ends
      | cons stmt rest =>
          rw [Task.Ends, executeAll_cons] at ends
          obtain ⟨flow, middle, done, ends⟩ := exists_of_bind_ok ends
          cases flow with
          | returned other =>
              cases ends
              exact .inl (inPart .first done rfl)
          | normal => exact .inl (inPart (.following done) ends (execute_current done :))
  | execute stmt =>
      cases stmt with
      | block body =>
          rw [Task.Ends, execute_block] at ends
          obtain ⟨frame, framed, made, ends⟩ := exists_of_bind_ok ends
          have outside : framed.current = chronicle.current := (newFrame_current made :)
          rw [inside_apply, outside] at ends
          cases ended : executeAll fuel around body { framed with current := frame } with
          | error stop left =>
              rw [ended] at ends
              cases ends
          | ok flow left =>
              rw [ended] at ends
              cases ends
              exact .inl ⟨_, _, left, .block made, ended, rfl⟩
      | conditional condition thenBranch elseBranch =>
          rw [Task.Ends, execute_conditional] at ends
          obtain ⟨tested, middle, evaluated, ends⟩ := exists_of_bind_ok ends
          have same : middle.current = chronicle.current := (evaluate_current evaluated :)
          cases holds : tested.isTruthy with
          | true =>
              rw [holds] at ends
              exact .inl (inPart (.thenBranch evaluated holds) ends same)
          | false =>
              rw [holds] at ends
              cases elseBranch with
              | none => cases ends
              | some elseBranch => exact .inl (inPart (.elseBranch evaluated holds) ends same)
      | loop condition body =>
          rw [Task.Ends, execute_loop] at ends
          obtain ⟨tested, middle, evaluated, ends⟩ := exists_of_bind_ok ends
          have same : middle.current = chronicle.current := (evaluate_current evaluated :)
          cases holds : tested.isTruthy with
          | false =>
              rw [holds] at ends
              cases ends
          | true =>
              rw [holds] at ends
              obtain ⟨flow, left, done, ends⟩ := exists_of_bind_ok ends
              cases flow with
              | returned other =>
                  cases ends
                  exact .inl (inPart (.round evaluated holds) done same)
              | normal =>
                  exact .inl (inPart (.again evaluated holds done) ends
                    ((execute_current done :).trans same))
      | returns keyword value? =>
          refine .inr ⟨keyword, value?, rfl, ?_⟩
          rw [Task.Ends, execute.eq_def] at ends
          cases value? with
          | none =>
              cases ends
              exact ⟨rfl, rfl⟩
          | some expr =>
              obtain ⟨_, _, noted, ends⟩ := exists_of_bind_ok ends
              cases noted
              obtain ⟨given, done, evaluated, ends⟩ := exists_of_bind_ok ends
              cases ends
              exact evaluated
      | expression expr =>
          rw [Task.Ends, execute.eq_def] at ends
          obtain ⟨_, _, _, ends⟩ := exists_of_bind_ok ends
          obtain ⟨_, _, _, ends⟩ := exists_of_bind_ok ends
          cases ends
      | print expr =>
          rw [Task.Ends, execute.eq_def] at ends
          obtain ⟨_, _, _, ends⟩ := exists_of_bind_ok ends
          obtain ⟨_, _, _, ends⟩ := exists_of_bind_ok ends
          obtain ⟨_, _, _, ends⟩ := exists_of_bind_ok ends
          cases ends
      | var name initial =>
          rw [Task.Ends, execute.eq_def] at ends
          obtain ⟨_, _, _, ends⟩ := exists_of_bind_ok ends
          cases initial with
          | none =>
              obtain ⟨_, _, _, ends⟩ := exists_of_bind_ok ends
              cases ends
          | some initial =>
              obtain ⟨_, _, _, ends⟩ := exists_of_bind_ok ends
              obtain ⟨_, _, _, ends⟩ := exists_of_bind_ok ends
              cases ends
      | function routine =>
          rw [Task.Ends, execute.eq_def] at ends
          obtain ⟨_, _, _, ends⟩ := exists_of_bind_ok ends
          obtain ⟨_, _, _, ends⟩ := exists_of_bind_ok ends
          obtain ⟨_, _, _, ends⟩ := exists_of_bind_ok ends
          obtain ⟨_, _, _, ends⟩ := exists_of_bind_ok ends
          cases ends
      | classDecl name superclass methods =>
          rw [Task.Ends, execute.eq_def] at ends
          obtain ⟨_, _, _, ends⟩ := exists_of_bind_ok ends
          cases superclass with
          | none =>
              obtain ⟨_, _, _, ends⟩ := exists_of_bind_ok ends
              cases ends
          | some superclass =>
              obtain ⟨given, _, _, ends⟩ := exists_of_bind_ok ends
              cases given with
              | classRef id =>
                  obtain ⟨_, _, _, ends⟩ := exists_of_bind_ok ends
                  cases ends
              | _ => cases ends
  | _ => exact ends.elim

/-! ## Runs -/

theorem Leads.ownReturns {further : Nat} {last : Task} {final : Chronicle}
    (leads : Leads around fuel task chronicle further last final) {entry : Token × Option Expr}
    (inside : entry ∈ last.ownReturns) : entry ∈ task.ownReturns := by
  induction leads with
  | here => exact inside
  | part enters _ induction => exact enters.ownReturns (induction inside)

/-- A return ends its own execution with what it gives. -/
theorem Gives.ends {keyword : Token} {value? : Option Expr}
    (gives : Gives fuel around keyword value? chronicle value after) :
    execute (fuel + 1) around (.returns keyword value?) chronicle = .ok (.returned value) after := by
  rw [execute.eq_def]
  cases value? with
  | none =>
      obtain ⟨rfl, rfl⟩ := gives
      rfl
  | some expr =>
      have evaluated : evaluate fuel around expr _ = .ok value after := gives
      show (evaluate fuel around expr >>= fun value => pure (Flow.returned value))
        (chronicle.note around _) = _
      rw [bind_apply, evaluated]
      rfl

theorem Leads.returned {further : Nat} {last : Task} {before done : Chronicle}
    (leads : Leads around fuel task chronicle further last before)
    (ends : Task.Ends further around before (.returned value) done last) :
    Task.Ends fuel around chronicle (.returned value)
      { done with current := chronicle.current } task := by
  induction leads with
  | here =>
      rw [Chronicle.withCurrent_self ends.current]
      exact ends
  | part enters _ induction =>
      have whole := enters.returned (induction ends)
      exact whole

/-- Code ends with a return exactly if it comes to one of its own. -/
theorem ends_returned_iff :
    Task.Ends fuel around chronicle (.returned value) after task ↔
      Returns fuel around task chronicle value after := by
  constructor
  · intro ends
    induction fuel generalizing task chronicle after with
    | zero => exact ends.not_zero.elim
    | succ fuel induction =>
        rcases ends.returned_cases with
          ⟨part, middle, left, enters, returns, rfl⟩ | ⟨keyword, value?, rfl, gives⟩
        · obtain ⟨keyword, value?, inside, further, before, done, leads, gives, rfl⟩ :=
            induction returns
          exact ⟨keyword, value?, enters.ownReturns inside, further, before, done,
            .part enters leads, gives, rfl⟩
        · exact ⟨keyword, value?, List.mem_singleton.mpr rfl, fuel, chronicle, after, .here, gives,
            (Chronicle.withCurrent_self gives.current).symm⟩
  · rintro ⟨keyword, value?, _, further, before, done, leads, gives, rfl⟩
    exact leads.returned gives.ends

/-! ## Calls -/

/-- Where the body of a function starts: in a new frame that binds the parameters. -/
def Chronicle.enterBody (chronicle : Chronicle) (owner : Option Activation)
    (closure : Closure FrameId) (arguments : List Value) : Chronicle :=
  let noted := chronicle.note owner (.starts (.invoke closure arguments))
  let framed := (noted.turn (noted.addFrame closure.place) owner).note owner .passes
  let filled := (framed.turn { framed.toMachine with
    forest := framed.forest.defineAll noted.forest.size
      ((closure.routine.parameters.map Token.lexeme).zip arguments) } owner).note owner .passes
  { filled with current := noted.forest.size }

/-- What a call yields that is not that of an initializer. -/
def Flow.given : Flow → Value
  | .returned value => value
  | .normal => .nil

theorem invoke_plain {closure : Closure FrameId} (plain : closure.isInitializer = false)
    (arguments : List Value) :
    invoke (fuel + 1) around closure arguments chronicle =
      match executeAll fuel around closure.routine.body
          (chronicle.enterBody around closure arguments) with
      | .ok flow left => .ok (Flow.given flow) { left with current := chronicle.current }
      | .error stop left => .error stop { left with current := chronicle.current } := by
  rw [invoke.eq_def]
  dsimp only
  show (inside chronicle.forest.size (executeAll fuel around closure.routine.body) >>= _)
    ({ chronicle.enterBody around closure arguments with current := chronicle.current }) = _
  rw [bind_apply, inside_apply]
  have entered : ({ { chronicle.enterBody around closure arguments with
      current := chronicle.current } with current := chronicle.forest.size } : Chronicle) =
      chronicle.enterBody around closure arguments := rfl
  rw [entered]
  cases executeAll fuel around closure.routine.body
      (chronicle.enterBody around closure arguments) with
  | error stop left => rfl
  | ok flow left =>
      rw [plain]
      cases flow <;> rfl

/-- A call of a function goes on where the function has come back to. -/
theorem evaluate_call {callee : Expr} {paren : Token} {arguments : List Expr} {id : FunctionId}
    {middle before : Chronicle} {values : List Value} {closure : Closure FrameId}
    (found : evaluate (fuel + 1) around callee
      (chronicle.note around (.starts (.evaluate (.call callee paren arguments)))) =
        .ok (.function id) middle)
    (given : evaluateAll (fuel + 1) around arguments middle = .ok values before)
    (known : before.functions[id]? = some closure)
    (ended : evaluate (fuel + 2) around (.call callee paren arguments) chronicle =
      .ok value after) :
    ∃ done, invoke fuel before.owners[id]?.join closure values
        (before.note around (.starts (.call (.function id) paren values))) = .ok value done ∧
      done.current = chronicle.current ∧
      after = done.note around (.yields (.call callee paren arguments) value) := by
  rw [evaluate.eq_def] at ended
  dsimp only at ended
  obtain ⟨_, _, noted, ended⟩ := exists_of_bind_ok ended
  cases noted
  obtain ⟨result, done, called, ended⟩ := exists_of_bind_ok ended
  cases ended
  rw [bind_apply, found] at called
  dsimp only at called
  rw [bind_apply, given] at called
  dsimp only at called
  rw [call.eq_def] at called
  dsimp only at called
  obtain ⟨_, _, noted, called⟩ := exists_of_bind_ok called
  cases noted
  obtain ⟨_, _, looked, called⟩ := exists_of_bind_ok called
  cases looked
  have arity : (before.note around (.starts (.call (.function id) paren values))).arity?
      (.function id) = some closure.routine.arity := by
    show (before.functions[id]?.map _) = _
    rw [known]
    rfl
  rw [arity] at called
  dsimp only at called
  split at called
  · cases called
  · obtain ⟨_, _, looked, called⟩ := exists_of_bind_ok called
    cases looked
    have known : (before.note around (.starts (.call (.function id) paren values))).functions[id]? =
      some closure := known
    rw [known] at called
    refine ⟨done, called, ?_, rfl⟩
    exact (invoke_current called :).trans
      ((evaluateAll_current given).trans (evaluate_current found :))

/-! ## Programs -/

/-- No statement of an accepted program returns. -/
theorem topLevel_normal {session : Lox.Session} {source : String} (accepted : session.Accepts source)
    {stmt : Stmt} (member : stmt ∈ (readSource source session.nextId).statements)
    {machine after : Machine}
    (ended : Lox.execute fuel stmt machine = .ok flow after) : flow = .normal := by
  cases flow with
  | normal => rfl
  | returned value =>
      have records := (compatible_records.corresponds fuel).execute none stmt (.of machine)
      rw [show (Chronicle.of machine).toMachine = machine from rfl, ended] at records
      cases recorded : execute fuel none stmt (.of machine) with
      | error stop left =>
          rw [recorded] at records
          cases records
      | ok other left =>
          rw [recorded] at records
          cases records
          have ends : Task.Ends fuel none (.of machine) (.returned value) left (.execute stmt) :=
            recorded
          obtain ⟨keyword, value?, inside, _⟩ := ends_returned_iff.mp ends
          have all := Stmt.mem_allOwnReturns member inside
          rw [accepted.ownReturns] at all
          cases all

/-- No statement of an accepted program returns. Code ends with a return exactly if it comes to one
of its own, and nothing is done between the end of that return and the end of the code. A call
that is not that of an initializer yields the value of this return, or nil if the body ends without
one; and the code around the call goes on from there, in the frame in which it stood. -/
theorem returns_caught :
    (∀ (session : Lox.Session) source, session.Accepts source →
      ∀ stmt ∈ (readSource source session.nextId).statements, ∀ fuel machine flow after,
        Lox.execute fuel stmt machine = .ok flow after → flow = .normal) ∧
    ∀ fuel around,
      Corresponds Records fuel ∧
      (∀ stmt chronicle value after,
        execute fuel around stmt chronicle = .ok (.returned value) after ↔
          Returns fuel around (.execute stmt) chronicle value after) ∧
      (∀ stmts chronicle value after,
        executeAll fuel around stmts chronicle = .ok (.returned value) after ↔
          Returns fuel around (.executeAll stmts) chronicle value after) ∧
      (∀ closure arguments chronicle value after, closure.isInitializer = false →
        (invoke (fuel + 1) around closure arguments chronicle = .ok value after ↔
          ∃ left, after = { left with current := chronicle.current } ∧
            (Returns fuel around (.executeAll closure.routine.body)
                (chronicle.enterBody around closure arguments) value left ∨
              value = .nil ∧ executeAll fuel around closure.routine.body
                (chronicle.enterBody around closure arguments) = .ok .normal left))) ∧
      ∀ callee paren arguments chronicle id middle values before closure value after,
        evaluate (fuel + 1) around callee
            (chronicle.note around (.starts (.evaluate (.call callee paren arguments)))) =
          .ok (.function id) middle →
        evaluateAll (fuel + 1) around arguments middle = .ok values before →
        before.functions[id]? = some closure →
        evaluate (fuel + 2) around (.call callee paren arguments) chronicle = .ok value after →
          ∃ done, invoke fuel before.owners[id]?.join closure values
              (before.note around (.starts (.call (.function id) paren values))) =
                .ok value done ∧
            done.current = chronicle.current ∧
            after = done.note around (.yields (.call callee paren arguments) value) := by
  refine ⟨fun session source accepted stmt member fuel machine flow after =>
    topLevel_normal accepted member, fun fuel around => ⟨compatible_records.corresponds fuel,
      fun stmt chronicle value after =>
        @ends_returned_iff fuel around chronicle after value (.execute stmt),
      fun stmts chronicle value after =>
        @ends_returned_iff fuel around chronicle after value (.executeAll stmts), ?_, ?_⟩⟩
  · intro closure arguments chronicle value after plain
    rw [invoke_plain plain]
    constructor
    · intro ended
      cases ran : executeAll fuel around closure.routine.body
          (chronicle.enterBody around closure arguments) with
      | error stop left =>
          rw [ran] at ended
          cases ended
      | ok flow left =>
          rw [ran] at ended
          cases ended
          cases flow with
          | returned value => exact ⟨left, rfl, .inl (ends_returned_iff.mp ran)⟩
          | normal => exact ⟨left, rfl, .inr ⟨rfl, rfl⟩⟩
    · rintro ⟨left, rfl, returns | ⟨rfl, ran⟩⟩
      · have ran : executeAll fuel around closure.routine.body
            (chronicle.enterBody around closure arguments) = .ok (.returned value) left :=
          ends_returned_iff.mpr returns
        rw [ran]
        rfl
      · rw [ran]
        rfl
  · intro callee paren arguments chronicle id middle values before closure value after found given
      known ended
    exact evaluate_call found given known ended

/-- A function that returns from a loop in its first round: where it is declared, where its body
runs, and where it is called. -/
theorem returns_caught_loop :
    let keyword : Token := ⟨.keyword .returnWord, "return", 1⟩
    let name : Token := ⟨.identifier, "f", 1⟩
    let paren : Token := ⟨.mark .rightParen, ")", 1⟩
    let loop : Stmt := .loop (.literal (.bool true)) (.returns keyword none)
    let closure : Closure FrameId := ⟨.mk name [] [loop], 0, false⟩
    let session : Lox.Session := .start .unlimited fun _ => 0
    let declared : Chronicle := .of (((session.machine.onHeap (·.addFunction closure)).define 0 "f"
      (.function 0)).learn (Table.ofList [(0, 0)]))
    (session.Accepts "fun f(){return;}" ∧
      ∃ stmt ∈ (readSource "fun f(){return;}" session.nextId).statements,
        ∃ flow after, Lox.execute 9 stmt session.machine = .ok flow after ∧ flow = .normal) ∧
      (∃ after, execute 9 none loop declared = .ok (.returned .nil) after ∧
        Returns 9 none (.execute loop) declared .nil after) ∧
      (∃ after left : Chronicle, invoke 9 none closure [] declared = .ok .nil after ∧
        after = { left with current := declared.current }) ∧
      ∃ after done : Chronicle,
        evaluate 9 none (.call (.read 0 name) paren []) declared = .ok .nil after ∧
        after = done.note none (.yields (.call (.read 0 name) paren []) .nil) := by
  intro keyword name paren loop closure session declared
  have statements : (readSource "fun f(){return;}" 0).statements =
      [.function (.mk name [] [.returns keyword none])] := by
    with_unfolding_all rfl
  have accepted : session.Accepts "fun f(){return;}" := by
    constructor
    · show (readSource "fun f(){return;}" 0).problems = []
      decide +kernel
    · show (resolve (readSource "fun f(){return;}" 0).statements).problems = []
      rw [statements]
      decide
  refine ⟨⟨accepted, ?_⟩, ?_, ?_, ?_⟩
  · have member : Stmt.function (.mk name [] [.returns keyword none]) ∈
        (readSource "fun f(){return;}" session.nextId).statements :=
      statements ▸ List.mem_singleton.mpr rfl
    have ran : ∃ flow after, Lox.execute 9 (.function (.mk name [] [.returns keyword none]))
        session.machine = .ok flow after := ⟨_, _, rfl⟩
    obtain ⟨flow, after, ran⟩ := ran
    exact ⟨_, member, flow, after, ran,
      returns_caught.1 session _ accepted _ member 9 _ _ _ ran⟩
  · have returned : ∃ after, execute 9 none loop declared = .ok (.returned .nil) after := ⟨_, rfl⟩
    obtain ⟨after, returned⟩ := returned
    exact ⟨after, returned, ((returns_caught.2 9 none).2.1 loop _ _ _).mp returned⟩
  · have invoked : ∃ after, invoke 9 none closure [] declared = .ok .nil after := ⟨_, rfl⟩
    obtain ⟨after, invoked⟩ := invoked
    obtain ⟨left, same, _⟩ :=
      ((returns_caught.2 8 none).2.2.2.1 closure [] declared .nil after rfl).mp invoked
    exact ⟨after, left, invoked, same⟩
  · have called : ∃ after,
        evaluate 9 none (.call (.read 0 name) paren []) declared = .ok .nil after := ⟨_, rfl⟩
    obtain ⟨after, called⟩ := called
    obtain ⟨done, _, _, resumed⟩ := (returns_caught.2 7 none).2.2.2.2 (.read 0 name) paren []
      declared 0 _ _ _ closure .nil after rfl rfl rfl called
    exact ⟨after, done, called, resumed⟩

end History

end Lox
