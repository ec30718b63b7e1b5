import Lox.Proofs.Lexical.DirectLoop
import Lox.Proofs.Lexical.Presence
import Lox.Proofs.History.Receivers
/-! Loops with a head of three parts. The statement that stands for such a loop does what the loop
does that is executed as it is written. All that its rounds do by themselves they do inside of one
frame, which binds the variable of the loop. -/

namespace Lox

/-! ## What is done without a call -/

/-- A call has frames of its own. -/
def Task.IsCall : Task → Prop
  | call _ _ _ | invoke _ _ | instantiate _ _ => True
  | _ => False

/-- While the first task is done, the last one is started, and not by a call. -/
inductive Does : Nat → Task → Machine → Task → Machine → Prop
  | here {fuel task machine} : Does fuel task machine task machine
  | part {fuel task machine part middle last final} :
      Starts fuel task machine part middle → ¬ part.IsCall → Does fuel part middle last final →
      Does (fuel + 1) task machine last final

namespace Machine

/-- The inner frame is this frame or lies inside of it. -/
def Encloses (machine : Machine) (frame inner : FrameId) : Prop :=
  ∃ distance, machine.forest.ancestor? inner distance = some frame

/-- The code stands in the frame or inside of it. -/
def Inside (machine : Machine) (frame : FrameId) : Prop :=
  machine.Encloses frame machine.current

variable {before after : Machine} {frame target : FrameId}

theorem Later.ancestor? (later : before.Later after) {distance : Nat}
    (reached : before.forest.ancestor? frame distance = some target) :
    after.forest.ancestor? frame distance = some target := by
  induction distance generalizing frame with
  | zero => exact reached
  | succ distance induction =>
      rw [Forest.ancestor?] at reached ⊢
      cases linked : before.forest.enclosing? frame with
      | none =>
          rw [linked] at reached
          cases reached
      | some outer =>
          rw [linked] at reached
          rw [later.links frame (Forest.lt_size_of_enclosing? linked), linked]
          exact induction reached

theorem Inside.onward (inside : before.Inside frame) (onward : before.Onward after) :
    after.Inside frame := by
  rcases inside with ⟨distance, reached⟩
  refine ⟨distance, ?_⟩
  rw [onward.current]
  exact onward.toLater.ancestor? reached

end Machine

section

variable {fuel : Nat} {machine after : Machine}

/-- A part that is no call starts where the task stands, or in a new frame inside of it. -/
theorem Starts.surrounds {task part : Task} (starts : Starts fuel task machine part after)
    (free : ¬ task.IsCall) (partFree : ¬ part.IsCall) :
    ∃ middle, machine.Onward middle ∧
      (after = middle ∨ ∃ frame, after = { middle with current := frame } ∧
        middle.forest.enclosing? frame = some middle.current) := by
  cases starts with
  | called | function | constructor | initializer => exact absurd trivial partFree
  | body => exact absurd trivial free
  | block entered =>
      cases entered
      exact ⟨machine.addFrame machine.current, .addFrame machine machine.current, .inr ⟨_, rfl,
        Forest.enclosing?_addChild_size machine.forest machine.current⟩⟩
  | binaryRight ran | logicalRight ran | assignment ran | arguments ran | setValue ran | tail ran
  | thenBranch ran | elseBranch ran | round ran =>
      exact ⟨after, evaluate_onward ran, .inl rfl⟩
  | again ran _ body => exact ⟨after, (evaluate_onward ran).trans (execute_onward body), .inl rfl⟩
  | following ran => exact ⟨after, execute_onward ran, .inl rfl⟩
  | _ => exact ⟨machine, .refl machine, .inl rfl⟩

end

/-! ## The variable of a loop -/

/-- The code stands inside of the frame, and the frame binds the name. -/
structure Machine.Shares (machine : Machine) (frame : FrameId) (name : String) : Prop where
  inside : machine.Inside frame
  bound : (machine.forest.own? frame name).isSome

section

variable {fuel : Nat} {machine after : Machine} {frame : FrameId} {name : String}

theorem Starts.shares {task part : Task} (starts : Starts fuel task machine part after)
    (free : ¬ task.IsCall) (partFree : ¬ part.IsCall) (shares : machine.Shares frame name) :
    after.Shares frame name := by
  rcases starts.surrounds free partFree with ⟨middle, onward, rfl | ⟨inner, rfl, linked⟩⟩
  · exact ⟨shares.inside.onward onward, onward.bound _ _ shares.bound⟩
  · rcases shares.inside.onward onward with ⟨distance, reached⟩
    refine ⟨⟨distance + 1, ?_⟩, onward.bound _ _ shares.bound⟩
    show middle.forest.ancestor? inner (distance + 1) = some frame
    rw [Forest.ancestor?, linked]
    exact reached

theorem Does.shares {task last : Task} (does : Does fuel task machine last after)
    (free : ¬ task.IsCall) (shares : machine.Shares frame name) : after.Shares frame name := by
  induction does with
  | here => exact shares
  | part starts partFree _ induction =>
      exact induction partFree (starts.shares free partFree shares)

/-- An expression is evaluated, an assignment made. -/
def Task.OfExpression : Task → Prop
  | .evaluate _ | .evaluateAll _ | .store _ _ _ => True
  | _ => False

/-- No expression executes a statement but by a call. -/
theorem Does.ofExpression {task last : Task} (does : Does fuel task machine last after)
    (evaluates : task.OfExpression) : last.OfExpression := by
  induction does with
  | here => exact evaluates
  | part starts _ _ induction =>
      refine induction ?_
      cases starts <;> trivial

/-- A declared variable is bound in the frame where it is declared. -/
theorem execute_var_bound {token : Token} {initial : Option Expr} {flow : Flow}
    (present : machine.current < machine.forest.size)
    (ran : execute fuel (.var token initial) machine = .ok flow after) :
    (after.forest.own? machine.current token.lexeme).isSome := by
  have bound {before : Machine} (onward : machine.Onward before) (value : Value) :
      ((before.define before.current token.lexeme value).forest.own? machine.current
        token.lexeme).isSome := by
    have kept := Nat.lt_of_lt_of_le present onward.frames
    rw [onward.current, Machine.define, Forest.own?_define_same _ kept]
    rfl
  cases fuel with
  | zero => cases ran
  | succ fuel =>
      cases initial with
      | none =>
          cases ran
          exact bound (.refl machine) .nil
      | some initial =>
          change EStateM.bind (evaluate fuel initial) _ machine = _ at ran
          rw [EStateM.bind] at ran
          cases evaluated : evaluate fuel initial machine with
          | ok value before =>
              rw [evaluated] at ran
              cases ran
              exact bound (evaluate_onward evaluated) value
          | error _ _ =>
              rw [evaluated] at ran
              cases ran

end

/-- The statement that stands for a loop is larger than the loop's body. -/
theorem Stmt.forLoop_ne_body {first : Stmt} {condition increment : Option Expr} {body : Stmt} :
    body ≠ .forLoop (some first) condition increment body := by
  intro same
  have sizes := congrArg sizeOf same
  cases increment <;> simp [Stmt.forLoop] at sizes <;> omega

/-- Whatever the body of a loop does by itself, in whatever round, it does inside of the one frame
that is made for the loop, and that frame binds the variable of the loop. -/
theorem Does.body_shares {fuel : Nat} {machine start : Machine} {name : Token}
    {initial : Option Expr} {condition increment : Option Expr} {body : Stmt}
    (governed : body.isDeclaration = false)
    (round : Does fuel (.execute (.forLoop (some (.var name initial)) condition increment body))
      machine (.execute body) start) : start.Shares machine.forest.size name.lexeme := by
  generalize reached : Task.execute body = task at round
  cases round with
  | here => exact absurd (Task.execute.inj reached) Stmt.forLoop_ne_body
  | part starts _ does =>
      subst reached
      cases starts with
      | block entered =>
          cases entered
          cases does with
          | part starts _ does =>
              cases starts with
              | first =>
                  cases does with
                  | here => cases governed
                  | part starts _ does =>
                      cases starts with
                      | initial => exact (does.ofExpression trivial).elim
              | following ran =>
                  -- The variable is bound before the first round.
                  have new : machine.forest.size < (machine.addFrame machine.current).forest.size :=
                    Nat.lt_of_lt_of_eq (Nat.lt_succ_self _) (Forest.size_add _ _).symm
                  refine does.shares id ⟨⟨0, ?_⟩, execute_var_bound new ran⟩
                  exact congrArg some (execute_onward ran).current

/-- A function closes over the frame in which it is declared. -/
theorem execute_function_place (fuel : Nat) (routine : Routine) (machine : Machine) :
    ∃ after, execute (fuel + 1) (.function routine) machine = .ok .normal after ∧
      after.functions[machine.functions.size]? = some ⟨routine, machine.current, false⟩ := by
  refine ⟨_, rfl, ?_⟩
  exact Array.getElem?_push_size

theorem declareClass_place {name : Token} {superclass : Option ClassId} {methods : List Routine}
    {machine after : Machine}
    (ended : declareClass name superclass methods machine = .ok () after) :
    ∃ place, after.classes =
        machine.classes.push ⟨name.lexeme, superclass, methodTable place methods⟩ ∧
      (place = machine.current ∨ after.forest.enclosing? place = some machine.current) := by
  cases superclass with
  | none => exact ⟨_, classes_storeByName ended, .inl rfl⟩
  | some id =>
      refine ⟨_, classes_storeByName ended, .inr ?_⟩
      obtain ⟨frame, rfl⟩ := exists_of_storeByName ended
      exact (Forest.enclosing?_define ..).trans
        (Machine.enclosing?_enclose (machine.define machine.current name.lexeme .nil) _ _ _)

/-- The methods of a class close over the frame in which it is declared, or over one just inside
of it. -/
theorem execute_class_place {fuel : Nat} {name : Token} {superclass : Option Expr}
    {methods : List Routine} {machine after : Machine} {flow : Flow} {frame : FrameId}
    (inside : machine.Inside frame)
    (ended : execute fuel (.classDecl name superclass methods) machine = .ok flow after) :
    ∃ parent place,
      after.classes.back? = some ⟨name.lexeme, parent, methodTable place methods⟩ ∧
        after.Encloses frame place := by
  have declared {middle : Machine} {parent : Option ClassId} (same : middle.current = after.current)
      (done : declareClass name parent methods middle = .ok () after) :
      ∃ parent place,
        after.classes.back? = some ⟨name.lexeme, parent, methodTable place methods⟩ ∧
          after.Encloses frame place := by
    obtain ⟨place, classes, stands⟩ := declareClass_place done
    refine ⟨parent, place, by rw [classes, Array.back?_push], ?_⟩
    obtain ⟨distance, reached⟩ := inside.onward (execute_onward ended)
    rw [same] at stands
    rcases stands with rfl | linked
    · exact ⟨distance, reached⟩
    · exact ⟨distance + 1, by rw [Forest.ancestor?, linked]; exact reached⟩
  have stayed : after.current = machine.current := (execute_onward ended).current
  cases fuel with
  | zero => cases ended
  | succ fuel =>
      cases superclass with
      | none =>
          obtain ⟨_, _, done, last⟩ := exists_of_bind_ok ended
          cases last
          exact declared stayed.symm done
      | some superclass =>
          rw [execute] at ended
          obtain ⟨value, middle, evaluated, rest⟩ := exists_of_bind_ok ended
          have kept : middle.current = machine.current := (evaluate_onward evaluated).current
          cases value with
          | classRef id =>
              obtain ⟨_, _, done, last⟩ := exists_of_bind_ok rest
              cases last
              exact declared (kept.trans stayed.symm) done
          | _ => cases rest

/-! ## What a loop does -/

namespace Lexical

open World Grammar

variable {recorded : OccurrenceId → Option Nat → Prop} {world : World} {scopes : List Scope}
  {environment : Environment}

/-- The same flow; what follows the loop stands where the loop stands. -/
def LoopsAlike (scopes : List Scope) (environment : Environment) (after : World)
    (flow other : Flow) : Prop :=
  other = flow ∧ StandsHere scopes after environment

/-- The machine of this world is about to execute the statement. Beside its frames there are chains,
and the environment is what the names of the statement mean there. -/
structure AboutTo (recorded : OccurrenceId → Option Nat → Prop) (world : World)
    (scopes : List Scope) (environment : Environment) (machine : Lox.Machine) (stmt : Stmt) :
    Prop where
  framed : world.framed = machine
  sound : Sound recorded world
  stands : StandsHere scopes world environment
  holds : stmt.Scoped recorded scopes

section

variable {extends? : FrameId → Prop} {α β γ : Type} {related : World → α → β → Prop}
  {framedEnd : EStateM.Result Stop Lox.Machine α} {chainedEnd : EStateM.Result Stop Machine β}

/-- The run of the chains is replaced by one that has come to the same. -/
theorem EndAlike.endsAs {finish : World → α → γ → Prop} {same : β → γ → Prop}
    {otherEnd : EStateM.Result Stop Machine γ}
    (alike : EndAlike recorded extends? world related framedEnd chainedEnd)
    (ends : EndsAs same chainedEnd otherEnd)
    (holds : ∀ after value middle other, Later extends? world after →
      related after value middle → same middle other → finish after value other) :
    EndAlike recorded extends? world finish framedEnd otherEnd := by
  cases framedEnd with
  | ok value framed =>
      cases chainedEnd with
      | ok middle chained =>
          cases otherEnd with
          | ok other final =>
              rcases ends with ⟨equal, rfl⟩
              rcases alike with ⟨layout, later, sound, relates⟩
              exact ⟨layout, later, sound, holds _ _ _ _ later relates equal⟩
          | error _ _ => exact ends.elim
      | error _ _ => exact alike.elim
  | error stop framed =>
      cases chainedEnd with
      | ok _ _ => exact alike.elim
      | error _ _ =>
          cases otherEnd with
          | ok _ _ => exact ends.elim
          | error _ _ =>
              rcases ends with ⟨rfl, rfl⟩
              exact alike

theorem EndAlike.finishes (alike : EndAlike recorded extends? world related framedEnd chainedEnd)
    (done : Finishes framedEnd) : Finishes chainedEnd := by
  rintro after rfl
  cases framedEnd with
  | ok _ _ => exact alike
  | error stop framed =>
      rcases alike with ⟨rfl, _⟩
      exact done framed rfl

end

/-- What finishes is replaced by what has come to the same, the other way round. -/
theorem EndsAs.symm {α β : Type} {related : α → β → Prop} {first : EStateM.Result Stop Machine α}
    {second : EStateM.Result Stop Machine β} (ends : EndsAs related first second) :
    EndsAs (fun value other => related other value) second first := by
  cases first with
  | ok _ _ =>
      cases second with
      | ok _ _ => exact ⟨ends.1, ends.2.symm⟩
      | error _ _ => exact ends.elim
  | error _ _ =>
      cases second with
      | ok _ _ => exact ends.elim
      | error _ _ => exact ⟨ends.1.symm, ends.2.symm⟩

section

variable {initializer : Option Stmt} {condition increment : Option Expr} {body : Stmt}
  {machine : Lox.Machine}

theorem forLoop_not_declaration :
    (Stmt.forLoop initializer condition increment body).isDeclaration = false := by
  cases initializer <;> rfl

/-- The body keeps the rules where it stands. -/
theorem scoped_body
    (holds : (Stmt.forLoop initializer condition increment body).Scoped recorded scopes) :
    ∃ inner, body.Scoped recorded inner := by
  have repeated {outer : List Scope} {test : Expr}
      (holds : (Stmt.loop test (repeated increment body)).Scoped recorded outer) :
      ∃ inner, body.Scoped recorded inner := by
    cases increment with
    | none => exact ⟨outer, holds.2.1⟩
    | some step => exact ⟨∅ :: outer, holds.2.1.1⟩
  cases initializer with
  | none => exact repeated holds
  | some first => exact repeated holds.2.1

/-- The statement does what the loop does, if both have fuel enough. -/
theorem AboutTo.agrees
    (about : AboutTo recorded world scopes environment machine
      (.forLoop initializer condition increment body)) (fuel : Nat) :
    EndAlike recorded Nothing world
      (fun after flow out => out.1 = flow ∧ StandsHere scopes after environment)
      (Lox.execute fuel (.forLoop initializer condition increment body) machine)
      (execute fuel environment (.forLoop initializer condition increment body) world.chained) := by
  rcases about with ⟨rfl, sound, stands, holds⟩
  refine ((simulates recorded fuel).governed sound forLoop_not_declaration stands holds).imply ?_
  intro after flow out later _ same
  refine ⟨same, ?_⟩
  rw [StandsHere, later.current]
  exact stands.later sound later id

variable (initializes : ∀ first ∈ initializer, IsInitializer first)
  (governed : body.isDeclaration = false)

include initializes governed

theorem AboutTo.runs_directly
    (about : AboutTo recorded world scopes environment machine
      (.forLoop initializer condition increment body)) {fuel : Nat}
    (finishes : Finishes
      (Lox.execute fuel (.forLoop initializer condition increment body) machine)) :
    EndAlike recorded Nothing world (LoopsAlike scopes environment)
      (Lox.execute fuel (.forLoop initializer condition increment body) machine)
      (forLoop (fuel + 8) environment initializer condition increment body world.chained) := by
  rcases scoped_body about.holds with ⟨_, holds⟩
  have agrees := about.agrees fuel
  have ends := forLoop_covers holds governed initializes condition increment environment fuel
    world.chained (agrees.finishes finishes)
  refine agrees.endsAs ends ?_
  rintro after flow ⟨_, _⟩ other - ⟨rfl, stands⟩ rfl
  exact ⟨rfl, stands⟩

theorem AboutTo.runs_as_direct
    (about : AboutTo recorded world scopes environment machine
      (.forLoop initializer condition increment body)) {fuel : Nat}
    (finishes : Finishes
      (forLoop fuel environment initializer condition increment body world.chained)) :
    EndAlike recorded Nothing world (LoopsAlike scopes environment)
      (Lox.execute (fuel + fuel + 8) (.forLoop initializer condition increment body) machine)
      (forLoop fuel environment initializer condition increment body world.chained) := by
  rcases scoped_body about.holds with ⟨_, holds⟩
  have ends := covers_forLoop holds governed initializes condition increment environment fuel
    world.chained finishes
  refine (about.agrees _).endsAs ends.symm ?_
  rintro after flow ⟨_, _⟩ other - ⟨rfl, stands⟩ rfl
  exact ⟨rfl, stands⟩

end

theorem isInitializer_of_read {tokens : List Token} {first next : OccurrenceId}
    {initializer : Option Stmt} (initialized : LoopInitializer tokens first initializer next) :
    ∀ stmt ∈ initializer, IsInitializer stmt := by
  rintro stmt member
  cases initialized with
  | none => cases member
  | var declared =>
      cases member
      cases declared
      trivial
  | expression stated =>
      cases member
      cases stated
      trivial

end Lexical

/-! ## A loop with one round

The body of the loop declares a function that reads the variable of the loop, and the increment
makes the condition fail. -/

namespace OneRound

open Lexical Token

def initializer : Stmt := .var (ofName "i") (some (.literal (.bool true)))

def condition : Expr := .read 0 (ofName "i")

def increment : Expr := .assign 1 (ofName "i") (.literal .nil)

def routine : Routine := .mk (ofName "f") [] [.expression (.read 2 (ofName "i"))]

def body : Stmt := .block [.function routine]

def loop : Stmt := .forLoop (some initializer) (some condition) (some increment) body

def source : String := "for(var i=true;i;i=nil){fun f(){i;}}"

/-- The machine on which the source runs. -/
def machine : Machine :=
  (Machine.start .unlimited fun _ => 0).learn ((((∅ : Distances).set 0 0).set 2 3).set 1 1)

theorem readSource_source : readSource source 0 = ⟨[], [loop], 3⟩ := by
  with_unfolding_all rfl

theorem resolve_loop : resolve [loop] = ⟨(((∅ : Distances).set 0 0).set 2 3).set 1 1, []⟩ := by
  with_unfolding_all rfl

theorem initialized : Grammar.LoopInitializer
    [ofWord .varWord, ofName "i", ofMark .equal, ofWord .trueWord, ofMark .semicolon] 0
    (some initializer) 0 := by
  have value : Grammar.Derives .expression [ofWord .trueWord] 0 (.literal (.bool true)) 0 :=
    Grammar.Derives.expression_of_primary (.literal rfl)
  exact .var (.mk rfl rfl (.some rfl value) rfl)

theorem written : Grammar.Statement true false
    [ofMark .leftBrace, ofWord .funWord, ofName "f", ofMark .leftParen, ofMark .rightParen,
      ofMark .leftBrace, ofName "i", ofMark .semicolon, ofMark .rightBrace, ofMark .rightBrace]
    2 body 3 := by
  have read : Grammar.Derives .expression [ofName "i"] 2 (.read 2 (ofName "i")) 3 :=
    Grammar.Derives.expression_of_primary (.read rfl)
  have stated : Grammar.Declarations true [ofName "i", ofMark .semicolon] 2
      [.expression (.read 2 (ofName "i"))] 3 := .cons (.statement (.expression (.mk read rfl))) .nil
  have function : Grammar.Function true
      [ofName "f", ofMark .leftParen, ofMark .rightParen, ofMark .leftBrace, ofName "i",
        ofMark .semicolon, ofMark .rightBrace] 2 routine 3 := .mk rfl rfl .none rfl rfl stated rfl
  exact .block rfl (.cons (.function rfl function) .nil) rfl

theorem executes :
    (Session.start .unlimited fun _ => 0).Executes 10 source (.execute loop) machine := by
  have number : (Session.start .unlimited fun _ => 0).nextId = 0 := rfl
  refine ⟨⟨?_, ?_⟩, ?_⟩
  · rw [number, readSource_source]
  · rw [number, readSource_source, resolve_loop]
  · rw [Session.ready, number, readSource_source, resolve_loop]
    exact .first .here

theorem finishes : Finishes (execute 10 loop machine) := by
  decide +kernel

/-- The condition holds once, so that the body is executed and declares its function. -/
theorem does : ∃ start there, Does 10 (.execute loop) machine (.execute body) start ∧
    Does 10 (.execute body) start (.execute (.function routine)) there := by
  have tested : ∃ bound, execute 8 initializer
      { machine.addFrame machine.current with current := machine.forest.size } =
        .ok .normal bound ∧ evaluate 5 condition bound = .ok (.bool true) bound :=
    ⟨_, by with_unfolding_all rfl, by with_unfolding_all rfl⟩
  rcases tested with ⟨bound, initialized, tested⟩
  exact ⟨_, _, .part (.block rfl) id (.part (.following initialized) id (.part .first id
    (.part (.round tested rfl) id (.part (.block rfl) id (.part .first id .here))))),
    .part (.block rfl) id (.part .first id .here)⟩

end OneRound

namespace Session

open Lexical World

/-- A loop that is read with a head of three parts, wherever it is reached in an accepted source,
does what it says: its statement and the loop that is executed as it is written, its initializer
once in one new scope and then rounds in that scope, finish both or neither, with the same output,
the same flow and the same error, and leave alike all that is visible outside. What the body
does by itself it does in all rounds inside of one frame, which binds the variable of the loop, and
the functions and methods that it declares close over frames that lie inside of that one. -/
theorem loops_run_directly {sink : Sink} {clock : Nat → Float} {session : Session}
    (reachable : Reachable sink clock session) {fuel : Nat} {source : String} {machine : Machine}
    {initializer : Option Stmt} {condition increment : Option Expr} {body : Stmt}
    {heading tokens : List Token} {first middle before next : OccurrenceId}
    {nearest takesElse : Bool}
    (initialized : Grammar.LoopInitializer heading first initializer middle)
    (written : Grammar.Statement nearest takesElse tokens before body next)
    (reached : session.Executes fuel source
      (.execute (.forLoop initializer condition increment body)) machine) :
    let whole := Stmt.forLoop initializer condition increment body
    (∃ recorded world scopes environment,
      AboutTo recorded world scopes environment machine whole) ∧
    (∀ recorded world scopes environment, AboutTo recorded world scopes environment machine whole →
      let direct := fun fuel =>
        forLoop fuel environment initializer condition increment body world.chained
      (∀ fuel, Finishes (execute fuel whole machine) → ∃ enough,
        EndAlike recorded Nothing world (LoopsAlike scopes environment)
          (execute fuel whole machine) (direct enough)) ∧
      ∀ fuel, Finishes (direct fuel) → ∃ enough,
        EndAlike recorded Nothing world (LoopsAlike scopes environment)
          (execute enough whole machine) (direct fuel)) ∧
    ∀ name initial, initializer = some (.var name initial) →
      ∀ fuel start, Does fuel (.execute whole) machine (.execute body) start →
        ∀ fuel task there, Does fuel (.execute body) start task there →
          there.Shares machine.forest.size name.lexeme ∧
          (∀ routine, task = .execute (.function routine) → ∀ fuel, ∃ after,
            execute (fuel + 1) (.function routine) there = .ok .normal after ∧
            after.functions[there.functions.size]? = some ⟨routine, there.current, false⟩) ∧
          ∀ name superclass methods, task = .execute (.classDecl name superclass methods) →
            ∀ fuel flow after,
              execute fuel (.classDecl name superclass methods) there = .ok flow after →
              ∃ parent place,
                after.classes.back? = some ⟨name.lexeme, parent, methodTable place methods⟩ ∧
                  after.Encloses machine.forest.size place := by
  intro whole
  have initializes := isInitializer_of_read initialized
  have governed := written.isDeclaration
  refine ⟨?_, ?_, ?_⟩
  · rcases reached with ⟨accepted, reaches⟩
    rcases reachable_begins reachable accepted with ⟨begins, holds⟩
    rcases ProgramReaches.fitting reaches begins holds with
      ⟨_, world, framed, sound, scopes, environment, stands, _, keeps⟩
    exact ⟨_, world, scopes, environment, framed, sound, stands, keeps⟩
  · intro recorded world scopes environment about
    exact ⟨fun fuel finishes => ⟨_, about.runs_directly initializes governed finishes⟩,
      fun fuel finishes => ⟨_, about.runs_as_direct initializes governed finishes⟩⟩
  · rintro name initial rfl fuel start round fuel task there does
    have shares := does.shares id (round.body_shares governed)
    refine ⟨shares, ?_, ?_⟩
    · rintro routine rfl fuel
      exact execute_function_place fuel routine there
    · rintro name superclass methods rfl fuel flow after ended
      exact execute_class_place shares.inside ended

/-- The function that is declared in the round lies inside of the frame of the loop. -/
theorem loops_run_directly_oneRound :
    Reachable .unlimited (fun _ => 0) (.start .unlimited fun _ => 0) ∧
    (start .unlimited fun _ => 0).Executes 10 OneRound.source (.execute OneRound.loop)
      OneRound.machine ∧
    (∃ recorded world scopes environment,
      AboutTo recorded world scopes environment OneRound.machine OneRound.loop ∧ ∃ enough,
        EndAlike recorded Nothing world (LoopsAlike scopes environment)
          (execute 10 OneRound.loop OneRound.machine)
          (forLoop enough environment (some OneRound.initializer) (some OneRound.condition)
            (some OneRound.increment) OneRound.body world.chained)) ∧
    ∃ start there after,
      Does 10 (.execute OneRound.loop) OneRound.machine (.execute OneRound.body) start ∧
      Does 10 (.execute OneRound.body) start (.execute (.function OneRound.routine)) there ∧
      there.Shares OneRound.machine.forest.size "i" ∧
      execute 10 (.function OneRound.routine) there = .ok .normal after ∧
      after.functions[there.functions.size]? = some ⟨OneRound.routine, there.current, false⟩ := by
  have reachable : Reachable .unlimited (fun _ => 0) (.start .unlimited fun _ => 0) := .start
  rcases loops_run_directly reachable OneRound.initialized OneRound.written OneRound.executes with
    ⟨⟨recorded, world, scopes, environment, about⟩, agrees, rounds⟩
  refine ⟨reachable, OneRound.executes, ⟨recorded, world, scopes, environment, about, ?_⟩, ?_⟩
  · exact (agrees recorded world scopes environment about).1 10 OneRound.finishes
  · rcases OneRound.does with ⟨start, there, round, declares⟩
    rcases rounds (.ofName "i") _ rfl 10 start round 10 _ there declares with
      ⟨shares, functions, _⟩
    rcases functions OneRound.routine rfl 9 with ⟨after, ended, closure⟩
    exact ⟨start, there, after, round, declares, shares, ended, closure⟩

end Session

end Lox
