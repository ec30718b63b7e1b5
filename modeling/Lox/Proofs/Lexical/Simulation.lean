import Lox.Proofs.Lexical.Steps
/-! With the same fuel, code in a frame and the same code in a chain that fits the frame
agree. The proof is by induction on the fuel: what takes more fuel is put together from
parts that take less, with one lemma for each kind of code. -/

namespace Lox

/-- What a call yields when its body has ended this way. -/
def Flow.answer {m : Type → Type} [Pure m] : Flow → m Value
  | .returned value => pure value
  | .normal => pure .nil

namespace Lexical

open Scope World

/-! ## Moving to another frame -/

namespace World

def moveTo (world : World) (frame : FrameId) : World :=
  { world with framed := { world.framed with current := frame } }

theorem Sound.moveTo {recorded : OccurrenceId → Option Nat → Prop} {world : World}
    (sound : Sound recorded world) (frame : FrameId) : Sound recorded (world.moveTo frame) :=
  ⟨sound.distances, ⟨sound.cells.length, sound.cells.nodup, sound.cells.contents,
    sound.cells.covered, sound.cells.root, sound.cells.present, sound.cells.globals⟩,
    sound.heaps.mono (fun _ _ _ => id) rfl rfl, sound.sorted, sound.sink, sound.clock,
    sound.ticks⟩

theorem Later.moveBack {extends? : FrameId → Prop} {world after : World} {frame : FrameId}
    (later : Later extends? (world.moveTo frame) after) :
    Later extends? world (after.moveTo world.framed.current) :=
  ⟨rfl, later.globals, later.distances, later.size, later.links, later.bound, later.layout, later.fresh⟩

end World

theorem Agrees.inside {recorded : OccurrenceId → Option Nat → Prop} {extends? : FrameId → Prop}
    {world : World} {frame : FrameId} {α : Type} {body : Lox.Run α} {lexical : Run α}
    (agrees : Agrees recorded extends? (world.moveTo frame) Same body lexical) :
    Agrees recorded extends? world Same (Run.inside frame body) lexical := by
  have entered : { world.framed with current := frame } = (world.moveTo frame).framed := rfl
  have beside : (world.moveTo frame).chained = world.chained := rfl
  rw [Agrees, beside] at agrees
  rw [Agrees, Run.inside, entered]
  generalize body (world.moveTo frame).framed = framedEnd at agrees ⊢
  generalize lexical world.chained = chainedEnd at agrees ⊢
  cases framedEnd with
  | ok value framed =>
      cases chainedEnd with
      | ok other chained =>
          rcases agrees with ⟨layout, later, sound, same⟩
          exact ⟨layout, later.moveBack, sound.moveTo _, same⟩
      | error _ _ => exact agrees.elim
  | error stop framed =>
      cases chainedEnd with
      | ok _ _ => exact agrees.elim
      | error _ _ =>
          rcases agrees with ⟨same, expected, layout, later, sound⟩
          exact ⟨same, expected, layout, later.moveBack, sound.moveTo _⟩

/-! ## What is simulated -/

/-- Only a declaration extends the current frame. -/
def Declares (world : World) (stmt : Stmt) : FrameId → Prop :=
  fun frame => stmt.isDeclaration = true ∧ frame = world.framed.current

/-- The same flow, and an environment for what follows the statement. -/
def FlowsAlike (scopes : List Scope) (stmt : Stmt) (after : World) (flow : Flow)
    (out : Flow × Environment) : Prop :=
  out.1 = flow ∧ StandsHere (stmt.scopesAfter scopes) after out.2

/-- All kinds of code agree when they are given this much fuel. -/
structure Simulates (recorded : OccurrenceId → Option Nat → Prop) (fuel : Nat) : Prop where
  evaluate : ∀ {world : World} {scopes : List Scope} {environment : Environment} (expr : Expr),
    Sound recorded world → world.Fits world.framed.current scopes environment →
      expr.Scoped recorded scopes → Agrees recorded Nothing world Same (Lox.evaluate fuel expr)
        (Lexical.evaluate fuel environment expr)
  evaluateAll : ∀ {world : World} {scopes : List Scope} {environment : Environment}
    (exprs : List Expr), Sound recorded world →
      world.Fits world.framed.current scopes environment → Expr.AllScoped recorded scopes exprs →
        Agrees recorded Nothing world Same (Lox.evaluateAll fuel exprs)
          (Lexical.evaluateAll fuel environment exprs)
  call : ∀ {world : World} (callee : Value) (paren : Token) (arguments : List Value),
    Sound recorded world → Agrees recorded Nothing world Same
      (Lox.call fuel callee paren arguments) (Lexical.call fuel callee paren arguments)
  invoke : ∀ {world : World} {framed : Closure FrameId} {chained : Closure Environment}
    (arguments : List Value), Sound recorded world →
      FunctionsAlike recorded world framed chained → arguments.length = framed.routine.arity →
        Agrees recorded Nothing world Same (Lox.invoke fuel framed arguments)
          (Lexical.invoke fuel chained arguments)
  instantiate : ∀ {world : World} (id : ClassId) (arguments : List Value), Sound recorded world →
    (∀ initializer, world.framed.method? id initializerName = some initializer →
      arguments.length = initializer.routine.arity) →
        Agrees recorded Nothing world Same (Lox.instantiate fuel id arguments)
          (Lexical.instantiate fuel id arguments)
  execute : ∀ {world : World} {scopes : List Scope} {environment : Environment} (stmt : Stmt),
    Sound recorded world → StandsHere scopes world environment → stmt.Scoped recorded scopes →
      Agrees recorded (Declares world stmt) world (FlowsAlike scopes stmt) (Lox.execute fuel stmt)
        (Lexical.execute fuel environment stmt)
  executeAll : ∀ {world : World} {scopes : List Scope} {environment : Environment}
    (stmts : List Stmt), Sound recorded world → StandsHere scopes world environment →
      Stmt.AllScoped recorded scopes stmts → Agrees recorded (· = world.framed.current) world Same
        (Lox.executeAll fuel stmts) (Lexical.executeAll fuel environment stmts)

/-! ## Entering -/

section

variable {recorded : OccurrenceId → Option Nat → Prop} {world : World} {scopes : List Scope}
  {environment : Environment}

/-- The start of a block. -/
theorem enterBlock (sound : Sound recorded world) (stands : StandsHere scopes world environment) :
    Sound recorded ((world.addFrame world.framed.current).moveTo world.forest.size) ∧
      StandsHere (∅ :: scopes) ((world.addFrame world.framed.current).moveTo world.forest.size)
        environment.enter := by
  have entered := stands_addFrame sound stands.fits
  exact ⟨(sound.addFrame world.framed.current).moveTo _, entered.fits, entered.tight⟩

/-- The start of a body, with its parameters. -/
theorem enterBody (sound : Sound recorded world) {framed : Closure FrameId}
    {chained : Closure Environment} (alike : FunctionsAlike recorded world framed chained)
    (arguments : List Value) (enough : arguments.length = framed.routine.arity) :
    ∃ environment bound scopes,
      bound.framed = { world.framed.addFrame framed.place with
        forest := (world.forest.addChild framed.place).defineAll world.forest.size
          ((framed.routine.parameters.map Token.lexeme).zip arguments) } ∧
      defineAll chained.place.enter ((framed.routine.parameters.map Token.lexeme).zip arguments)
        world.chained = .ok environment bound.chained ∧
      Later (· = world.forest.size) world bound ∧ Sound recorded bound ∧
      StandsHere scopes (bound.moveTo world.forest.size) environment ∧ Settled scopes ∧
      Stmt.AllScoped recorded scopes framed.routine.body := by
  rcases alike.place with ⟨scopes, fits, holds, _⟩
  rcases framed with ⟨⟨name, parameters, body⟩, place, isInitializer⟩
  rcases holds with ⟨settled, ordinary, distinct, holds⟩
  have entered := stands_addFrame sound fits
  rcases entered.defineAll parameters arguments (sound.addFrame place) enough ordinary
    (fun _ _ => rfl) distinct with
    ⟨environment, bound, framedBound, chainedBound, further, boundSound, boundStands⟩
  exact ⟨environment, bound, ofParameters parameters :: scopes, framedBound, chainedBound,
    (later_addFrame place).trans further, boundSound, ⟨boundStands.fits, boundStands.tight⟩,
    settled.enter.parameters parameters, holds⟩

end

namespace Simulates

variable {recorded : OccurrenceId → Option Nat → Prop} {fuel : Nat} {world : World}
  {scopes : List Scope} {environment : Environment}

/-! ## Expressions -/

section

variable (simulates : Simulates recorded fuel) (sound : Sound recorded world)

include simulates sound

/-- A part is evaluated first. -/
theorem first {α β : Type} {related : World → α → β → Prop} {extends? : FrameId → Prop}
    (fits : world.Fits world.framed.current scopes environment) {expr : Expr}
    (holds : expr.Scoped recorded scopes) {next : Value → Lox.Run α} {continued : Value → Run β}
    (rest : ∀ after value, Later Nothing world after → Sound recorded after →
      after.Fits after.framed.current scopes environment →
        Agrees recorded extends? after related (next value) (continued value)) :
    Agrees recorded extends? world related (Lox.evaluate fuel expr >>= next)
      (Lexical.evaluate fuel environment expr >>= continued) := by
  refine (simulates.evaluate expr sound fits holds).followed nofun ?_
  rintro after _ value later afterSound rfl
  refine rest after value later afterSound ?_
  rw [later.current]
  exact later.fits fits

theorem evaluate_succ (fits : world.Fits world.framed.current scopes environment) (expr : Expr)
    (holds : expr.Scoped recorded scopes) : Agrees recorded Nothing world Same
      (Lox.evaluate (fuel + 1) expr) (Lexical.evaluate (fuel + 1) environment expr) := by
  cases expr with
  | literal value => exact .pure sound rfl
  | group inner => exact simulates.evaluate inner sound fits holds
  | unary operator right =>
      have holds : right.Scoped recorded scopes := holds
      refine simulates.first sound fits holds ?_
      intro after value _ afterSound _
      exact .ofExcept (fun _ => applyUnary_expected) afterSound
  | binary left operator right =>
      refine simulates.first sound fits holds.1 ?_
      intro middle left _ middleSound middleFits
      refine simulates.first middleSound middleFits holds.2 ?_
      intro after right _ afterSound _
      exact .ofExcept (fun _ => applyBinary_expected) afterSound
  | logical left operator right =>
      refine simulates.first sound fits holds.1 ?_
      intro after left _ afterSound afterFits
      split
      · exact .pure afterSound rfl
      · exact simulates.evaluate right afterSound afterFits holds.2
  | read id name => exact .lookUp sound fits holds.1
  | assign id name value =>
      refine simulates.first sound fits holds.2.1 ?_
      intro after value _ afterSound afterFits
      refine (Agrees.assign afterSound afterFits holds.1 holds.2.2 value).bind ?_
      rintro final _ _ - finalSound -
      exact .pure finalSound rfl
  | call callee paren arguments =>
      refine simulates.first sound fits holds.1 ?_
      intro middle callee _ middleSound middleFits
      refine (simulates.evaluateAll arguments middleSound middleFits holds.2).bind ?_
      rintro after _ arguments - afterSound rfl
      exact simulates.call callee paren arguments afterSound
  | get object name =>
      have holds : object.Scoped recorded scopes := holds
      refine simulates.first sound fits holds ?_
      intro after value _ afterSound _
      cases value with
      | object id => exact .property afterSound id name
      | _ => exact .fault trivial afterSound
  | set object name value =>
      refine simulates.first sound fits holds.1 ?_
      intro middle target _ middleSound middleFits
      cases target with
      | object id =>
          refine simulates.first middleSound middleFits holds.2 ?_
          intro after value _ afterSound _
          refine (Agrees.setField afterSound id name.lexeme value).bind ?_
          rintro final _ _ - finalSound -
          exact .pure finalSound rfl
      | _ => exact .fault trivial middleSound
  | this id keyword =>
      rcases holds with ⟨spelled, distance, receives, known⟩
      refine .lookUp sound fits ?_
      rw [spelled, distance?, receives]
      exact known
  | super id keyword method =>
      rcases holds with ⟨spelled, distance, inherits, known⟩
      exact .readSuperMethod sound fits method spelled inherits known

theorem evaluateAll_succ (fits : world.Fits world.framed.current scopes environment)
    (exprs : List Expr) (holds : Expr.AllScoped recorded scopes exprs) :
    Agrees recorded Nothing world Same (Lox.evaluateAll (fuel + 1) exprs)
      (Lexical.evaluateAll (fuel + 1) environment exprs) := by
  cases exprs with
  | nil => exact .pure sound rfl
  | cons expr rest =>
      refine simulates.first sound fits holds.1 ?_
      intro middle value _ middleSound middleFits
      refine (simulates.evaluateAll rest middleSound middleFits holds.2).bind ?_
      rintro after _ values - afterSound rfl
      exact .pure afterSound rfl

/-! ## Calls -/

theorem call_succ (callee : Value) (paren : Token) (arguments : List Value) :
    Agrees recorded Nothing world Same (Lox.call (fuel + 1) callee paren arguments)
      (Lexical.call (fuel + 1) callee paren arguments) := by
  refine Agrees.get ?_
  rw [sound.heaps.arity?]
  cases arity : world.framed.arity? callee with
  | none => exact .fault trivial sound
  | some count =>
      dsimp only
      split
      · exact .fault trivial sound
      · rename_i enough
        have enough := Decidable.not_not.mp enough
        cases callee with
        | native native =>
            cases native
            exact .readClock sound
        | function id =>
            refine Agrees.get ?_
            have entry := sound.heaps.functions.entries id
            have declared : (world.framed.functions[id]?).map (·.routine.arity) = some count :=
              arity
            revert entry declared
            generalize world.framed.functions[id]? = framed?
            generalize world.chained.functions[id]? = chained?
            rintro (same | _) declared
            · cases declared
              exact simulates.invoke arguments sound same enough
            · cases declared
        | classRef id =>
            refine simulates.instantiate id arguments sound ?_
            intro initializer found
            cases arity
            rw [enough, found]
            rfl
        | _ => exact .fault trivial sound

theorem invoke_succ {framed : Closure FrameId} {chained : Closure Environment}
    (arguments : List Value) (alike : FunctionsAlike recorded world framed chained)
    (enough : arguments.length = framed.routine.arity) :
    Agrees recorded Nothing world Same (Lox.invoke (fuel + 1) framed arguments)
      (Lexical.invoke (fuel + 1) chained arguments) := by
  rcases enterBody sound alike arguments enough with
    ⟨environment, bound, scopes, framedBound, chainedBound, later, boundSound, here, _, holds⟩
  rcases alike.place with ⟨_, fits, _, initializes⟩
  rcases framed with ⟨⟨name, parameters, body⟩, place, isInitializer⟩
  rcases chained with ⟨_, around, _⟩
  cases alike.routine
  cases alike.isInitializer
  refine Agrees.within (Nat.le_refl _) ?_
  refine Agrees.after_step
    (do
      let flow ← Run.inside world.forest.size (Lox.executeAll fuel body)
      if isInitializer then
        return ((← get).forest.own? place thisName).getD .nil
      else
        flow.answer)
    (do
      let flow ← Lexical.executeAll fuel environment body
      if isInitializer then
        return ((← get).content? around thisName).getD .nil
      else
        flow.answer) later ?_ ?_ ?_
  · rw [framedBound]
    rfl
  · rw [Lexical.invoke]
    show EStateM.bind (Lexical.defineAll around.enter
      ((parameters.map Token.lexeme).zip arguments)) _ world.chained = _
    have chainedBound : Lexical.defineAll around.enter
      ((parameters.map Token.lexeme).zip arguments) world.chained = _ := chainedBound
    rw [EStateM.bind, chainedBound]
    rfl
  · have ran := simulates.executeAll body (boundSound.moveTo _) here holds
    refine (Agrees.inside ran).bind ?_
    rintro after _ flow last afterSound rfl
    cases isInitializer with
    | true =>
        rcases initializes rfl with ⟨outer, rfl⟩
        have remains := last.fits (later.fits fits)
        rcases afterSound.content?_declared remains (locate?_receiver outer) with
          ⟨_, ⟨⟩, same, _⟩
        refine Agrees.get ?_
        exact .pure afterSound (congrArg (Option.getD · Value.nil) same)
    | false => cases flow <;> exact .pure afterSound rfl

theorem instantiate_succ (id : ClassId) (arguments : List Value)
    (enough : ∀ initializer, world.framed.method? id initializerName = some initializer →
      arguments.length = initializer.routine.arity) :
    Agrees recorded Nothing world Same (Lox.instantiate (fuel + 1) id arguments)
      (Lexical.instantiate (fuel + 1) id arguments) := by
  refine (Agrees.newObject sound id).bind ?_
  rintro made _ object - madeSound ⟨rfl, classes⟩
  refine Agrees.get ?_
  have entry := madeSound.heaps.method? id initializerName
  rw [← method?_of_classes classes] at enough
  revert entry enough
  generalize made.framed.method? id initializerName = framed?
  generalize made.chained.method? id initializerName = chained?
  rintro enough (same | _)
  · refine (Agrees.bind_method madeSound same object).bind ?_
    rintro bound framed chained - boundSound ⟨alike, routine⟩
    refine (simulates.invoke arguments boundSound alike ?_).bind ?_
    · rw [routine]
      exact enough _ rfl
    · rintro after _ _ - afterSound -
      exact .pure afterSound rfl
  · exact .pure madeSound rfl

/-! ## Statements -/

omit simulates in
/-- A statement that declares nothing leaves the environment as it is. -/
theorem finished {stmt : Stmt} (governed : stmt.scopesAfter scopes = scopes)
    {actual : Lox.Run Flow} {lexical : Run (Flow × Environment)}
    (stands : StandsHere scopes world environment)
    (agrees : Agrees recorded Nothing world
      (fun _ flow out => out = (flow, environment)) actual lexical) :
    Agrees recorded (Declares world stmt) world (FlowsAlike scopes stmt) actual lexical := by
  refine (agrees.imply ?_).extending
  rintro after flow _ later afterSound rfl
  refine ⟨rfl, ?_⟩
  rw [governed, StandsHere, later.current]
  exact stands.later sound later id

/-- What a conditional or a loop governs. -/
theorem governed {stmt : Stmt} (declares : stmt.isDeclaration = false)
    (stands : StandsHere scopes world environment) (holds : stmt.Scoped recorded scopes) :
    Agrees recorded Nothing world (fun _ flow out => out.1 = flow) (Lox.execute fuel stmt)
      (Lexical.execute fuel environment stmt) := by
  refine ((simulates.execute stmt sound stands holds).weaken ?_).imply ?_
  · rintro _ ⟨declared, _⟩
    rw [declares] at declared
    cases declared
  · rintro after flow out - - ⟨same, _⟩
    exact same

theorem branch {stmt : Stmt} (declares : stmt.isDeclaration = false)
    (stands : StandsHere scopes world environment) (holds : stmt.Scoped recorded scopes) :
    Agrees recorded Nothing world (fun _ flow out => out = (flow, environment))
      (Lox.execute fuel stmt)
      (do
        let (flow, _) ← Lexical.execute fuel environment stmt
        return (flow, environment)) := by
  rw [← bind_pure (Lox.execute fuel stmt)]
  refine (simulates.governed sound declares stands holds).bind ?_
  rintro after _ ⟨flow, _⟩ - afterSound rfl
  exact .pure afterSound rfl

/-- A part of a statement is evaluated first. -/
theorem first_stands {α β : Type} {related : World → α → β → Prop} {extends? : FrameId → Prop}
    (stands : StandsHere scopes world environment) {expr : Expr}
    (holds : expr.Scoped recorded scopes) {next : Value → Lox.Run α} {continued : Value → Run β}
    (rest : ∀ after value, Later Nothing world after → Sound recorded after →
      StandsHere scopes after environment →
        Agrees recorded extends? after related (next value) (continued value)) :
    Agrees recorded extends? world related (Lox.evaluate fuel expr >>= next)
      (Lexical.evaluate fuel environment expr >>= continued) := by
  refine simulates.first sound stands.fits holds ?_
  intro after value later afterSound _
  refine rest after value later afterSound ?_
  rw [StandsHere, later.current]
  exact stands.later sound later id

theorem execute_loop (stands : StandsHere scopes world environment) (condition : Expr) (body : Stmt)
    (holds : (Stmt.loop condition body).Scoped recorded scopes) :
    Agrees recorded Nothing world (FlowsAlike scopes (.loop condition body))
      (Lox.execute (fuel + 1) (.loop condition body))
      (Lexical.execute (fuel + 1) environment (.loop condition body)) := by
  refine simulates.first_stands sound stands holds.1 ?_
  intro tested value _ testedSound testedStands
  split
  · refine (simulates.governed testedSound holds.2.2 testedStands holds.2.1).bind ?_
    rintro after _ ⟨flow, _⟩ later afterSound rfl
    have afterStands : StandsHere scopes after environment := by
      rw [StandsHere, later.current]
      exact testedStands.later testedSound later id
    cases flow with
    | returned value => exact .pure afterSound ⟨rfl, afterStands⟩
    | normal =>
        refine (simulates.execute (.loop condition body) afterSound afterStands holds).weaken ?_
        rintro _ ⟨declared, _⟩
        cases declared
  · exact .pure testedSound ⟨rfl, testedStands⟩

omit simulates in
/-- A function is made when its name is declared, and knows itself. -/
theorem execute_function (stands : StandsHere scopes world environment) (routine : Routine)
    (holds : (Stmt.function routine).Scoped recorded scopes) :
    Agrees recorded (Declares world (.function routine)) world
      (FlowsAlike scopes (.function routine)) (Lox.execute (fuel + 1) (.function routine))
      (Lexical.execute (fuel + 1) environment (.function routine)) := by
  rcases holds with ⟨declarable, holds⟩
  refine Agrees.declare stands sound declarable.free ⟨rfl, rfl⟩ ?_
  intro inner declared framed _ declaredSound declaredStands
  have sort := sorted_ordinary declarable.ordinary (.function declared.framed.functions.size)
  rcases declaredStands.define declaredSound sort with
    ⟨defined, framedDefined, chainedDefined, later, definedSound, definedStands⟩
  have heaps := definedSound.heaps
  have alike : FunctionsAlike recorded defined ⟨routine, declared.framed.current, false⟩
      ⟨routine, inner, false⟩ := ⟨rfl, rfl, _, definedStands.fits, holds, nofun⟩
  have made : Sound recorded (defined.withHeaps
      (defined.framed.addFunction ⟨routine, declared.framed.current, false⟩)
      (defined.chained.addFunction ⟨routine, inner, false⟩)) :=
    definedSound.withHeaps (heaps.functions.push alike) heaps.classes heaps.objects
  refine (Agrees.of_ok .normal (.normal, inner) ?_ ?_ (later.trans later_withHeaps) made
    ⟨rfl, ?_⟩).extending
  · rw [withHeaps, framedDefined]
    rfl
  · show EStateM.Result.ok (Flow.normal, inner)
      ((declared.chained.onHeap (·.addFunction ⟨routine, inner, false⟩)).set inner
        routine.name.lexeme (.function declared.chained.functions.size)) = _
    rw [← declaredSound.heaps.functions.size, Machine.set_onHeap, ← chainedDefined]
    rfl
  · have here : StandsHere (bindIn scopes routine.name.lexeme .ready) defined inner := by
      rw [StandsHere, later.current]
      exact definedStands
    exact ⟨here.fits, here.tight⟩

theorem execute_succ (stands : StandsHere scopes world environment) (stmt : Stmt)
    (holds : stmt.Scoped recorded scopes) :
    Agrees recorded (Declares world stmt) world (FlowsAlike scopes stmt)
      (Lox.execute (fuel + 1) stmt) (Lexical.execute (fuel + 1) environment stmt) := by
  cases stmt with
  | expression expr =>
      refine finished sound rfl stands ?_
      refine simulates.first sound stands.fits holds ?_
      intro after _ _ afterSound _
      exact .pure afterSound rfl
  | print expr =>
      refine finished sound rfl stands ?_
      refine simulates.first sound stands.fits holds ?_
      intro after value _ afterSound _
      refine (Agrees.print afterSound value).bind ?_
      rintro final _ _ - finalSound -
      exact .pure finalSound rfl
  | var name initial =>
      rcases holds with ⟨declarable, holds⟩
      cases initial with
      | none =>
          refine Agrees.declare stands sound declarable.free ⟨rfl, rfl⟩ ?_
          intro inner declared framed _ declaredSound declaredStands
          have sort := sorted_ordinary declarable.ordinary .nil
          refine (Agrees.define declaredStands declaredSound sort).extending.bind ?_
          rintro after _ _ - afterSound ⟨afterStands, _⟩
          exact .pure afterSound ⟨rfl, afterStands⟩
      | some initial =>
          refine Agrees.declare stands sound declarable.free ⟨rfl, rfl⟩ ?_
          intro inner declared framed _ declaredSound declaredStands
          refine (simulates.first_stands declaredSound declaredStands holds ?_).extending
          intro evaluated value _ evaluatedSound evaluatedStands
          have sort := sorted_ordinary declarable.ordinary value
          refine (Agrees.define evaluatedStands evaluatedSound sort).bind ?_
          rintro after _ _ - afterSound ⟨afterStands, _⟩
          exact .pure afterSound ⟨rfl, afterStands⟩
  | block body =>
      refine finished sound rfl stands ?_
      refine Agrees.within (Nat.le_refl _) ?_
      refine Agrees.after_step
        (Run.inside world.forest.size (Lox.executeAll fuel body) >>= Pure.pure) _
        (later_addFrame world.framed.current) (by rw [bind_pure]; rfl) rfl ?_
      have entered := enterBlock sound stands
      have ran := simulates.executeAll body entered.1 entered.2 holds
      refine (Agrees.inside ran).bind ?_
      rintro after _ flow - afterSound rfl
      exact .pure afterSound rfl
  | conditional condition thenBranch elseBranch =>
      refine finished sound rfl stands ?_
      cases elseBranch with
      | none =>
          refine simulates.first_stands sound stands holds.1 ?_
          intro tested value _ testedSound testedStands
          split
          · exact simulates.branch testedSound holds.2.2 testedStands holds.2.1
          · exact .pure testedSound rfl
      | some elseBranch =>
          refine simulates.first_stands sound stands holds.1 ?_
          intro tested value _ testedSound testedStands
          split
          · exact simulates.branch testedSound holds.2.1.2 testedStands holds.2.1.1
          · exact simulates.branch testedSound holds.2.2.2 testedStands holds.2.2.1
  | loop condition body =>
      exact (simulates.execute_loop sound stands condition body holds).extending
  | function routine => exact execute_function sound stands routine holds
  | returns keyword value =>
      refine finished sound rfl stands ?_
      cases value with
      | none => exact .pure sound rfl
      | some value =>
          refine simulates.first sound stands.fits holds ?_
          intro after value _ afterSound _
          exact .pure afterSound rfl
  | classDecl name superclass methods =>
      rcases holds with ⟨declarable, inherits, holds⟩
      cases superclass with
      | none =>
          refine ((Agrees.declareClass sound stands declarable none rfl holds).weaken ?_).bind ?_
          · rintro _ rfl
            exact .inr ⟨rfl, rfl⟩
          · rintro after _ environment' - afterSound afterStands
            exact .pure afterSound ⟨rfl, afterStands⟩
      | some superclass =>
          refine simulates.first_stands sound stands inherits ?_
          intro tested value later testedSound testedStands
          cases value with
          | classRef id =>
              refine ((Agrees.declareClass testedSound testedStands declarable (some id) rfl
                holds).weaken ?_).bind ?_
              · rintro _ rfl
                exact .inr ⟨rfl, later.current⟩
              · rintro after _ environment' - afterSound afterStands
                exact .pure afterSound ⟨rfl, afterStands⟩
          | _ => exact .fault trivial testedSound

theorem executeAll_succ (stands : StandsHere scopes world environment) (stmts : List Stmt)
    (holds : Stmt.AllScoped recorded scopes stmts) :
    Agrees recorded (· = world.framed.current) world Same (Lox.executeAll (fuel + 1) stmts)
      (Lexical.executeAll (fuel + 1) environment stmts) := by
  cases stmts with
  | nil => exact .pure sound rfl
  | cons stmt rest =>
      refine ((simulates.execute stmt sound stands holds.1).weaken ?_).bind ?_
      · rintro _ ⟨_, rfl⟩
        exact .inr rfl
      · rintro after _ ⟨flow, environment'⟩ later afterSound ⟨rfl, afterStands⟩
        cases flow with
        | returned value => exact .pure afterSound rfl
        | normal =>
            have rest := simulates.executeAll rest afterSound afterStands holds.2
            rw [later.current] at rest
            exact rest

end

/-! ## Any fuel -/

/-- Without fuel nothing is done on either side. -/
theorem zero (recorded : OccurrenceId → Option Nat → Prop) : Simulates recorded 0 where
  evaluate _ sound _ _ := .exhausted sound
  evaluateAll _ sound _ _ := .exhausted sound
  call _ _ _ sound := .exhausted sound
  invoke _ sound _ _ := .exhausted sound
  instantiate _ _ sound _ := .exhausted sound
  execute _ sound _ _ := .exhausted sound
  executeAll _ sound _ _ := .exhausted sound

end Simulates

theorem simulates (recorded : OccurrenceId → Option Nat → Prop) (fuel : Nat) :
    Simulates recorded fuel := by
  induction fuel with
  | zero => exact .zero recorded
  | succ fuel induction =>
      exact {
        evaluate := fun expr sound fits holds => induction.evaluate_succ sound fits expr holds
        evaluateAll := fun exprs sound fits holds =>
          induction.evaluateAll_succ sound fits exprs holds
        call := fun callee paren arguments sound => induction.call_succ sound callee paren arguments
        invoke := fun arguments sound alike enough =>
          induction.invoke_succ sound arguments alike enough
        instantiate := fun id arguments sound enough =>
          induction.instantiate_succ sound id arguments enough
        execute := fun stmt sound stands holds => induction.execute_succ sound stands stmt holds
        executeAll := fun stmts sound stands holds =>
          induction.executeAll_succ sound stands stmts holds }

/-! ## Programs -/

theorem Agrees.executeProgram {recorded : OccurrenceId → Option Nat → Prop} {world : World}
    (fuel : Nat) (stmts : List Stmt) (sound : Sound recorded world)
    (stands : StandsHere [] world .outermost) (holds : Stmt.AllScoped recorded [] stmts) :
    Agrees recorded (· = world.framed.current) world Same (Lox.executeProgram fuel stmts)
      (Lexical.executeProgram fuel stmts) := by
  induction stmts generalizing world with
  | nil => exact .flush sound
  | cons stmt rest induction =>
      have top : stmt.scopesAfter [] = [] := by cases stmt <;> rfl
      refine (((simulates recorded fuel).execute stmt sound stands holds.1).weaken ?_).bind ?_
      · rintro _ ⟨_, rfl⟩
        exact .inr rfl
      · rintro after _ ⟨flow, environment⟩ later afterSound ⟨rfl, afterStands⟩
        rw [top] at afterStands
        have outermost : StandsHere [] after .outermost := by
          rw [← afterStands.fits.of_nil.2]
          exact afterStands
        have agrees := induction afterSound outermost (by rw [← top]; exact holds.2)
        rw [later.current] at agrees
        exact agrees

end Lexical

end Lox
