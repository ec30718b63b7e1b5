import Lox.Proofs.Alike
import Lox.Proofs.History.Advance
/-! Runs stay in order. When code starts where it can stand, everything that is written down while
it runs is in order, whatever the code is and however it ends: one induction on the fuel. -/

namespace Lox

open Scope History

/-! ## Values of operators and literals -/

theorem Machine.has_ofLiteral (machine : Machine) (literal : Literal) :
    machine.Has (.ofLiteral literal) := by
  cases literal <;> trivial

theorem applyUnary_has (machine : Machine) {operator : Token} {operand value : Value}
    (applied : applyUnary operator operand = .ok value) : machine.Has value := by
  rw [applyUnary.eq_def] at applied
  split at applied <;> cases applied <;> trivial

theorem applyArithmetic_has (machine : Machine) {operator : Token} {left right : Float}
    {value : Value} (applied : applyArithmetic operator left right = .ok value) :
    machine.Has value := by
  rw [applyArithmetic.eq_def] at applied
  split at applied <;> cases applied <;> trivial

theorem applyBinary_has (machine : Machine) {operator : Token} {left right value : Value}
    (applied : applyBinary operator left right = .ok value) : machine.Has value := by
  rw [applyBinary.eq_def] at applied
  split at applied
  · cases applied
    trivial
  · cases applied
    trivial
  · split at applied <;> cases applied <;> trivial
  · split at applied
    · exact applyArithmetic_has machine applied
    · cases applied

/-- If the call returns, its value is there. -/
def Machine.HasFlow (machine : Machine) : Flow → Prop
  | .normal => True
  | .returned value => machine.Has value

namespace History

/-! ## Where code is ready -/

variable {recorded : OccurrenceId → Option Nat → Prop} {scopes : List Scope}
  {around owner : Option Activation} {chronicle after : Chronicle} {α : Type}

/-- All is in order, and the code stands with these scopes around it. -/
structure Chronicle.Ready (recorded : OccurrenceId → Option Nat → Prop) (scopes : List Scope)
    (around : Option Activation) (chronicle : Chronicle) : Prop where
  sound : chronicle.Sound recorded
  stands : chronicle.toMachine.Stands scopes around

theorem Chronicle.Ready.later (ready : chronicle.Ready recorded scopes around)
    (continues : Continues recorded chronicle after) : after.Ready recorded scopes around :=
  ⟨continues.sound, continues.stands ready.stands⟩

theorem Chronicle.Ready.bindIn (ready : chronicle.Ready recorded scopes around) {name : Token}
    (ordinary : name.Ordinary) (state : NameState) :
    chronicle.Ready recorded (bindIn scopes name.lexeme state) around :=
  ⟨ready.sound, ready.stands.lies.bindIn ready.stands.opened ordinary state,
    ready.stands.opened⟩

/-- Code is ready in a new frame inside the one where it would be ready. -/
theorem Chronicle.Sound.entered {frame outer : FrameId} {scope : Scope}
    (sound : Chronicle.Sound recorded { chronicle with current := frame })
    (opened : chronicle.toMachine.Open frame)
    (linked : chronicle.forest.enclosing? frame = some outer)
    (this : scope.find? thisName = none) (super : scope.find? superName = none)
    (lies : chronicle.toMachine.Lies outer scopes around) :
    Chronicle.Ready recorded (scope :: scopes) around { chronicle with current := frame } := by
  have moved := Machine.Steady.moveTo chronicle.toMachine frame
  exact ⟨sound, .inside (moved.opens _ opened) linked this super (lies.later moved),
    moved.opens _ opened⟩

theorem Chronicle.Ready.scopesAfter {stmt : Stmt} (ready : chronicle.Ready recorded scopes around)
    (holds : stmt.Scoped recorded scopes) :
    chronicle.Ready recorded (stmt.scopesAfter scopes) around := by
  cases stmt with
  | var name initial => exact ready.bindIn holds.1.ordinary .ready
  | function routine => exact ready.bindIn holds.1.ordinary .ready
  | classDecl name superclass methods => exact ready.bindIn holds.1.ordinary .ready
  | _ => exact ready

/-- The evaluation of an expression is written down, and its value. -/
theorem Carries.valued {expr : Expr} {body : Recorded Value}
    (ready : chronicle.Ready recorded scopes around) (holds : expr.Scoped recorded scopes)
    (declared : chronicle.toMachine.Declared around expr.receivers)
    (goes : ∀ after, Continues recorded chronicle after →
      Carries recorded Machine.Has after (body after)) :
    Carries recorded Machine.Has chronicle (valued around expr body chronicle) := by
  refine Carries.noted ready.sound ⟨scopes, ready.stands, holds, declared⟩ fun after continues => ?_
  refine (goes after continues).bind fun value final continues has => ?_
  exact Carries.noted continues.sound has fun last further =>
    .value further.sound (has.later further.steady.toLater)

theorem find?_ofParameters {parameters : List Token} {name : String}
    (others : ∀ parameter ∈ parameters, parameter.lexeme ≠ name) :
    (ofParameters parameters).find? name = none := by
  have several (scope : Scope) (free : scope.find? name = none) :
      (parameters.foldl (fun scope name => scope.set name.lexeme .ready) scope).find? name =
        none := by
    induction parameters generalizing scope with
    | nil => exact free
    | cons parameter rest induction =>
        rw [List.forall_mem_cons] at others
        apply induction others.2
        rw [Table.find?_set_other _ others.1.symm]
        exact free
  exact several ∅ rfl

/-- A method that is found in a class body is one of its methods, in the place of the class. -/
theorem mem_of_methodTable {place : FrameId} {methods : List Routine} {name : String}
    {method : Closure FrameId} (found : (methodTable place methods).find? name = some method) :
    method.place = place ∧ method.routine ∈ methods := by
  have alike : TablesAlike
      (fun first (_ : Closure FrameId) => first.place = place ∧ first.routine ∈ methods)
      (methodTable place methods) (methodTable place methods) :=
    methodTable_alike place place (List.forall₂_same.mpr fun _ member => ⟨rfl, rfl, member⟩)
  have entry := alike name
  rw [found] at entry
  cases entry with
  | some holds => exact holds

theorem ordinary_of_scoped {routine : Routine} (holds : routine.Scoped recorded scopes) :
    ∀ parameter ∈ routine.parameters, parameter.Ordinary := by
  cases routine with
  | mk name parameters body => exact holds.2.1

theorem body_of_scoped {routine : Routine} (holds : routine.Scoped recorded scopes) :
    Stmt.AllScoped recorded (ofParameters routine.parameters :: scopes) routine.body := by
  cases routine with
  | mk name parameters body => exact holds.2.2.2

theorem receivers_body (routine : Routine) :
    routine.receivers = Stmt.allReceivers routine.body := by
  cases routine
  rfl

theorem hasFlow_anywhere (machine : Machine) (current : FrameId) (flow : Flow)
    (has : machine.HasFlow flow) : Machine.HasFlow { machine with current := current } flow := by
  cases flow with
  | normal => trivial
  | returned value => cases value <;> exact has

/-- A class is declared where its methods can stand. -/
theorem Carries.declareClass {name : Token} {superclass : Option ClassId} {expr? : Option Expr}
    {methods : List Routine} (ready : chronicle.Ready recorded scopes around)
    (ordinary : name.Ordinary) (same : expr?.isSome = superclass.isSome)
    (holds : Routine.AllScoped recorded (ofClass (bindIn scopes name.lexeme .ready) expr?)
      methods) :
    Carries recorded (fun _ _ => True) chronicle
      (declareClass around name superclass methods chronicle) := by
  rw [ofClass, same] at holds
  refine (Carries.take ready.sound
    (ready.sound.present.defineHere ready.stands.opened ordinary (by trivial))).bind
      fun _ bound continues here => ?_
  replace ready := (ready.later continues).bindIn ordinary .ready
  -- From here on only the frame of the methods depends on whether there is a superclass.
  have complete (frame : FrameId) (after : Chronicle) (continues : Continues recorded bound after)
      (offers : ∀ method, method.place = frame → method.routine ∈ methods →
        after.toMachine.Offers recorded method superclass) :
      Carries recorded (fun _ _ => True) after
        ((do
          let value ← History.take around
            (Run.newClass ⟨name.lexeme, superclass, methodTable frame methods⟩)
          History.take around (Run.storeByName name value)) after) := by
    refine (Carries.take continues.sound (continues.sound.present.newClass ?_)).bind
      fun value made further has => ?_
    · intro query method found
      obtain ⟨placed, member⟩ := mem_of_methodTable found
      exact offers method placed member
    · have continues := continues.trans further
      have opened := (ready.later continues).stands.opened
      refine .take continues.sound (continues.sound.present.storeByName opened ordinary ?_ has)
      rw [continues.current]
      exact continues.steady.bound _ _ here
  refine Carries.look ?_
  have lies := ready.stands.lies
  cases superclass with
  | none =>
      refine complete bound.current bound (.refl ready.sound) fun method placed member => ?_
      exact .plain (placed.symm ▸ lies) (Routine.allScoped_mem holds method.routine member)
  | some superclass =>
      refine (Carries.take ready.sound
        (ready.sound.present.superFrame bound.current superclass)).bind
          fun frame after continues framed => ?_
      refine complete frame after continues fun method placed member => ?_
      subst placed
      exact .derived framed.1 framed.2 (lies.later continues.steady)
        (Routine.allScoped_mem holds method.routine member)

/-! ## All code -/

/-- Code of all kinds that has this much fuel stays in order. -/
structure Preserves (recorded : OccurrenceId → Option Nat → Prop) (fuel : Nat) : Prop where
  evaluate {chronicle : Chronicle} {scopes : List Scope} {around : Option Activation}
    (expr : Expr) : chronicle.Ready recorded scopes around → expr.Scoped recorded scopes →
    chronicle.toMachine.Declared around expr.receivers →
    Carries recorded Machine.Has chronicle (evaluate fuel around expr chronicle)
  evaluateAll {chronicle : Chronicle} {scopes : List Scope} {around : Option Activation}
    (exprs : List Expr) : chronicle.Ready recorded scopes around →
    Expr.AllScoped recorded scopes exprs →
    chronicle.toMachine.Declared around (Expr.allReceivers exprs) →
    Carries recorded Machine.HasAll chronicle (evaluateAll fuel around exprs chronicle)
  call {chronicle : Chronicle} (around : Option Activation) {callee : Value} (paren : Token)
    {arguments : List Value} : chronicle.Sound recorded → chronicle.toMachine.Has callee →
    chronicle.toMachine.HasAll arguments →
    Carries recorded Machine.Has chronicle (call fuel around callee paren arguments chronicle)
  invoke {chronicle : Chronicle} {owner : Option Activation} {closure : Closure FrameId}
    {arguments : List Value} : chronicle.Sound recorded →
    chronicle.toMachine.Lodged recorded closure owner → chronicle.toMachine.HasAll arguments →
    Carries recorded (fun machine value => machine.Has value ∧ (closure.isInitializer = true →
      ∀ activation, owner = some activation → value = .object activation.receiver))
      chronicle (invoke fuel owner closure arguments chronicle)
  instantiate {chronicle : Chronicle} (around : Option Activation) (id : ClassId)
    {arguments : List Value} : chronicle.Sound recorded →
    chronicle.toMachine.HasAll arguments →
    Carries recorded Machine.Has chronicle (instantiate fuel around id arguments chronicle)
  execute {chronicle : Chronicle} {scopes : List Scope} {around : Option Activation}
    (stmt : Stmt) : chronicle.Ready recorded scopes around → stmt.Scoped recorded scopes →
    chronicle.toMachine.Declared around stmt.receivers →
    Carries recorded Machine.HasFlow chronicle (execute fuel around stmt chronicle)
  executeAll {chronicle : Chronicle} {scopes : List Scope} {around : Option Activation}
    (stmts : List Stmt) : chronicle.Ready recorded scopes around →
    Stmt.AllScoped recorded scopes stmts →
    chronicle.toMachine.Declared around (Stmt.allReceivers stmts) →
    Carries recorded Machine.HasFlow chronicle (executeAll fuel around stmts chronicle)

namespace Preserves

variable {fuel : Nat} (preserves : Preserves recorded fuel)

include preserves

/-! ### Expressions -/

theorem evaluate_succ (expr : Expr) (ready : chronicle.Ready recorded scopes around)
    (holds : expr.Scoped recorded scopes)
    (declared : chronicle.toMachine.Declared around expr.receivers) :
    Carries recorded Machine.Has chronicle (History.evaluate (fuel + 1) around expr chronicle) := by
  refine Carries.valued ready holds declared fun chronicle continues => ?_
  replace ready := ready.later continues
  replace declared := declared.later continues.steady.toLater
  clear continues
  cases expr with
  | literal value => exact .value ready.sound (chronicle.has_ofLiteral value)
  | group inner => exact preserves.evaluate inner ready holds declared
  | unary operator right =>
      refine (preserves.evaluate right ready holds declared).bind
        fun value after continues has => ?_
      exact .ofExcept continues.sound fun value applied => applyUnary_has after.toMachine applied
  | binary left operator right =>
      refine (preserves.evaluate left ready holds.1 declared.left).bind
        fun first middle continues has => ?_
      refine (preserves.evaluate right (ready.later continues) holds.2
        (declared.right.later continues.steady.toLater)).bind fun second after continues has => ?_
      exact .ofExcept continues.sound fun value applied => applyBinary_has after.toMachine applied
  | logical left operator right =>
      refine (preserves.evaluate left ready holds.1 declared.left).bind
        fun value after continues has => ?_
      split
      · exact .value continues.sound has
      · exact preserves.evaluate right (ready.later continues) holds.2
          (declared.right.later continues.steady.toLater)
  | read id name => exact .take ready.sound (ready.sound.present.lookUp id name)
  | assign id name value =>
      obtain ⟨ordinary, holds, known⟩ := holds
      refine (preserves.evaluate value ready holds declared).bind
        fun value middle continues has => ?_
      have stands := continues.stands ready.stands
      refine (Carries.take continues.sound
        (continues.sound.present.store stands ordinary known has)).bind
          fun _ after continues _ => ?_
      exact .value continues.sound (has.later continues.steady.toLater)
  | call callee paren arguments =>
      refine (preserves.evaluate callee ready holds.1 declared.left).bind
        fun callee middle continues has => ?_
      refine (preserves.evaluateAll arguments (ready.later continues) holds.2
        (declared.right.later continues.steady.toLater)).bind
          fun arguments after continues all => ?_
      exact preserves.call around paren continues.sound (has.later continues.steady.toLater) all
  | get object name =>
      refine (preserves.evaluate object ready holds declared).bind
        fun value after continues has => ?_
      cases value with
      | object id => exact .step continues.sound (continues.sound.present.property has) trivial
      | _ => exact .stop continues.sound
  | set object name value =>
      refine (preserves.evaluate object ready holds.1 declared.left).bind
        fun target middle continues has => ?_
      cases target with
      | object id =>
          refine (preserves.evaluate value (ready.later continues) holds.2
            (declared.right.later continues.steady.toLater)).bind
              fun value after continues has => ?_
          refine (Carries.take continues.sound
            (continues.sound.present.setFieldOf id name.lexeme has)).bind
              fun _ final continues _ => ?_
          exact .value continues.sound (has.later continues.steady.toLater)
      | _ => exact .stop continues.sound
  | this id keyword => exact .take ready.sound (ready.sound.present.lookUp id keyword)
  | super id keyword method =>
      obtain ⟨spelled, distance, inherits, known⟩ := holds
      exact .step ready.sound
        (ready.sound.present.superMethod ready.stands method spelled inherits known) trivial

theorem evaluateAll_succ (exprs : List Expr) (ready : chronicle.Ready recorded scopes around)
    (holds : Expr.AllScoped recorded scopes exprs)
    (declared : chronicle.toMachine.Declared around (Expr.allReceivers exprs)) :
    Carries recorded Machine.HasAll chronicle
      (History.evaluateAll (fuel + 1) around exprs chronicle) := by
  refine Carries.noted ready.sound ⟨scopes, ready.stands, holds, declared⟩
    fun chronicle continues => ?_
  replace ready := ready.later continues
  replace declared := declared.later continues.steady.toLater
  clear continues
  cases exprs with
  | nil => exact .value ready.sound fun _ none => absurd none List.not_mem_nil
  | cons expr rest =>
      refine (preserves.evaluate expr ready holds.1 declared.left).bind
        fun value middle continues has => ?_
      refine (preserves.evaluateAll rest (ready.later continues) holds.2
        (declared.right.later continues.steady.toLater)).bind fun values after continues all => ?_
      exact .value continues.sound
        (List.forall_mem_cons.mpr ⟨has.later continues.steady.toLater, all⟩)

/-! ### Calls -/

theorem call_succ (around : Option Activation) {callee : Value} (paren : Token)
    {arguments : List Value} (sound : chronicle.Sound recorded)
    (has : chronicle.toMachine.Has callee) (all : chronicle.toMachine.HasAll arguments) :
    Carries recorded Machine.Has chronicle
      (History.call (fuel + 1) around callee paren arguments chronicle) := by
  refine Carries.noted sound ⟨has, all⟩ fun chronicle continues => ?_
  replace all := all.later continues.steady.toLater
  have sound := continues.sound
  refine Carries.look ?_
  cases chronicle.arity? callee with
  | none => exact .stop sound
  | some arity =>
      dsimp only
      split
      · exact .stop sound
      · cases callee with
        | native native =>
            cases native
            exact .take sound sound.present.readClock
        | function id =>
            refine Carries.look ?_
            cases found : chronicle.functions[id]? with
            | some closure =>
                exact (preserves.invoke sound (sound.present.functions id closure found) all).weaken
                  fun _ _ => And.left
            | none => exact .stop sound
        | classRef id => exact preserves.instantiate around id sound all
        | _ => exact .stop sound

theorem invoke_succ {closure : Closure FrameId} {arguments : List Value}
    (sound : chronicle.Sound recorded) (lodged : chronicle.toMachine.Lodged recorded closure owner)
    (all : chronicle.toMachine.HasAll arguments) :
    Carries recorded (fun machine value => machine.Has value ∧ (closure.isInitializer = true →
      ∀ activation, owner = some activation → value = .object activation.receiver))
      chronicle (History.invoke (fuel + 1) owner closure arguments chronicle) := by
  refine Carries.noted sound ⟨lodged, all⟩ fun chronicle continues => ?_
  replace lodged := lodged.later continues.steady
  replace all := all.later continues.steady.toLater
  refine (Carries.take continues.sound (continues.sound.present.newFrame closure.place)).bind
    fun frame middle continues framed => ?_
  replace lodged := lodged.later continues.steady
  replace all := all.later continues.steady.toLater
  obtain ⟨opened, linked⟩ := framed
  obtain ⟨scopes, lies, holds⟩ := lodged.stands
  have ordinary := ordinary_of_scoped holds
  refine (Carries.take continues.sound (continues.sound.present.bindParameters opened ?_ ?_)).bind
    fun _ bound continues _ => ?_
  · intro entry member
    obtain ⟨parameter, inside, same⟩ := List.mem_map.mp (List.of_mem_zip member).1
    rw [← same]
    exact ⟨(ordinary parameter inside).notThis, (ordinary parameter inside).notSuper⟩
  · intro entry member
    exact all _ (List.of_mem_zip member).2
  have inner : Carries recorded Machine.HasFlow bound
      (inside frame (History.executeAll fuel owner closure.routine.body) bound) := by
    refine .inside continues.sound hasFlow_anywhere ?_
    rintro _ rfl sound
    refine preserves.executeAll closure.routine.body (sound.entered
      (continues.steady.opens _ opened) ?_ ?_ ?_ (lies.later continues.steady))
      (body_of_scoped holds) ?_
    · exact (continues.steady.links _ opened.present).trans linked
    · exact find?_ofParameters fun parameter member => (ordinary parameter member).notThis
    · exact find?_ofParameters fun parameter member => (ordinary parameter member).notSuper
    · rw [← receivers_body]
      exact lodged.declared.later (continues.steady.trans (.moveTo bound.toMachine frame)).toLater
  replace lodged := lodged.later continues.steady
  refine inner.bind fun flow after continues has => ?_
  replace lodged := lodged.later continues.steady
  cases initializer : closure.isInitializer with
  | true =>
      obtain ⟨activation, belongs, own⟩ := lodged.arises.receiver initializer
      refine Carries.look (.value continues.sound ?_)
      rw [own]
      refine ⟨continues.sound.present.values _ _ _ own, fun _ other belongs' => ?_⟩
      cases belongs.symm.trans belongs'
      rfl
  | false =>
      cases flow with
      | returned value => exact .value continues.sound ⟨has, nofun⟩
      | normal => exact .value continues.sound ⟨trivial, nofun⟩

theorem instantiate_succ (around : Option Activation) (id : ClassId) {arguments : List Value}
    (sound : chronicle.Sound recorded) (all : chronicle.toMachine.HasAll arguments) :
    Carries recorded Machine.Has chronicle
      (History.instantiate (fuel + 1) around id arguments chronicle) := by
  refine Carries.noted sound all fun chronicle continues => ?_
  replace all := all.later continues.steady.toLater
  refine (Carries.take continues.sound (continues.sound.present.newObject id)).bind
    fun object made continues has => ?_
  replace all := all.later continues.steady.toLater
  refine Carries.look ?_
  cases found : made.method? id initializerName with
  | some initializer =>
      refine (Carries.take continues.sound (continues.sound.present.bindTo found has)).bind
        fun closure bound continues lodged => ?_
      replace has := has.later continues.steady.toLater
      replace all := all.later continues.steady.toLater
      refine (preserves.invoke continues.sound lodged all).bind fun _ after continues _ => ?_
      exact .value continues.sound (has.later continues.steady.toLater)
  | none => exact .value continues.sound has

/-! ### Statements -/

theorem execute_succ (stmt : Stmt) (ready : chronicle.Ready recorded scopes around)
    (holds : stmt.Scoped recorded scopes)
    (declared : chronicle.toMachine.Declared around stmt.receivers) :
    Carries recorded Machine.HasFlow chronicle
      (History.execute (fuel + 1) around stmt chronicle) := by
  refine Carries.noted ready.sound ⟨scopes, ready.stands, holds, declared⟩
    fun chronicle continues => ?_
  replace ready := ready.later continues
  replace declared := declared.later continues.steady.toLater
  clear continues
  cases stmt with
  | expression expr =>
      refine (preserves.evaluate expr ready holds declared).bind fun _ after continues _ => ?_
      exact .value continues.sound trivial
  | print expr =>
      refine (preserves.evaluate expr ready holds declared).bind fun value after continues has => ?_
      have printed : after.toMachine.Advances recorded after.owners around (fun _ _ => True)
          (Run.print value after.toMachine) := continues.sound.present.print value
      have orderly : Event.Orderly recorded (leftBy (Run.print value after.toMachine)) around
          (.prints value) := has.later printed.steady.toLater
      refine (Carries.step continues.sound printed orderly).bind fun _ final continues _ => ?_
      exact .value continues.sound trivial
  | var name initial =>
      obtain ⟨declarable, holds⟩ := holds
      cases initial with
      | none =>
          refine (Carries.take ready.sound (ready.sound.present.defineHere ready.stands.opened
            declarable.ordinary (by trivial))).bind fun _ after continues _ => ?_
          exact .value continues.sound trivial
      | some initial =>
          refine (preserves.evaluate initial (ready.bindIn declarable.ordinary .declared) holds
            declared).bind fun value middle continues has => ?_
          replace ready := ready.later continues
          refine (Carries.take ready.sound (ready.sound.present.defineHere ready.stands.opened
            declarable.ordinary has)).bind fun _ after continues _ => ?_
          exact .value continues.sound trivial
  | block body =>
      refine Carries.look ?_
      refine (Carries.take ready.sound (ready.sound.present.newFrame chronicle.current)).bind
        fun frame entered continues framed => ?_
      refine .inside continues.sound hasFlow_anywhere ?_
      rintro _ rfl sound
      refine preserves.executeAll body (sound.entered framed.1 framed.2 rfl rfl
        (ready.stands.lies.later continues.steady)) holds ?_
      exact declared.later (continues.steady.trans (.moveTo entered.toMachine frame)).toLater
  | conditional condition thenBranch elseBranch =>
      cases elseBranch with
      | none =>
          refine (preserves.evaluate condition ready holds.1 declared.left).bind
            fun value after continues _ => ?_
          split
          · exact preserves.execute thenBranch (ready.later continues) holds.2.1
              (declared.right.later continues.steady.toLater)
          · exact .value continues.sound trivial
      | some elseBranch =>
          refine (preserves.evaluate condition ready holds.1 declared.left).bind
            fun value after continues _ => ?_
          split
          · exact preserves.execute thenBranch (ready.later continues) holds.2.1.1
              (declared.right.left.later continues.steady.toLater)
          · exact preserves.execute elseBranch (ready.later continues) holds.2.2.1
              (declared.right.right.later continues.steady.toLater)
  | loop condition body =>
      refine (preserves.evaluate condition ready holds.1 declared.left).bind
        fun value middle continues _ => ?_
      replace ready := ready.later continues
      replace declared := declared.later continues.steady.toLater
      split
      · refine (preserves.execute body ready holds.2.1 declared.right).bind
          fun flow after continues has => ?_
        cases flow with
        | returned value => exact .value continues.sound has
        | normal =>
            exact preserves.execute (.loop condition body) (ready.later continues) holds
              (declared.later continues.steady.toLater)
      · exact .value ready.sound trivial
  | function routine =>
      obtain ⟨declarable, holds⟩ := holds
      have lodged :
          chronicle.toMachine.Lodged recorded ⟨routine, chronicle.current, false⟩ around :=
        ⟨⟨_, (ready.bindIn declarable.ordinary .ready).stands.lies, holds⟩, declared,
          .inl ⟨ready.stands.opened, rfl⟩⟩
      refine Carries.look ?_
      refine (Carries.take ready.sound (ready.sound.present.newFunction lodged)).bind
        fun value made continues has => ?_
      replace ready := ready.later continues
      refine (Carries.take ready.sound (ready.sound.present.defineHere ready.stands.opened
        declarable.ordinary has)).bind fun _ after continues _ => ?_
      exact .value continues.sound trivial
  | returns keyword value =>
      cases value with
      | none => exact .value ready.sound trivial
      | some value =>
          refine (preserves.evaluate value ready holds declared).bind
            fun value after continues has => ?_
          exact .value continues.sound has
  | classDecl name superclass methods =>
      obtain ⟨declarable, inherits, holds⟩ := holds
      cases superclass with
      | none =>
          refine (Carries.declareClass ready declarable.ordinary rfl holds).bind
            fun _ after continues _ => ?_
          exact .value continues.sound trivial
      | some superclass =>
          refine (preserves.evaluate superclass ready inherits declared).bind
            fun value middle continues _ => ?_
          cases value with
          | classRef id =>
              refine (Carries.declareClass (ready.later continues) declarable.ordinary rfl
                holds).bind fun _ after continues _ => ?_
              exact .value continues.sound trivial
          | _ => exact .stop continues.sound

theorem executeAll_succ (stmts : List Stmt) (ready : chronicle.Ready recorded scopes around)
    (holds : Stmt.AllScoped recorded scopes stmts)
    (declared : chronicle.toMachine.Declared around (Stmt.allReceivers stmts)) :
    Carries recorded Machine.HasFlow chronicle
      (History.executeAll (fuel + 1) around stmts chronicle) := by
  refine Carries.noted ready.sound ⟨scopes, ready.stands, holds, declared⟩
    fun chronicle continues => ?_
  replace ready := ready.later continues
  replace declared := declared.later continues.steady.toLater
  clear continues
  cases stmts with
  | nil => exact .value ready.sound trivial
  | cons stmt rest =>
      refine (preserves.execute stmt ready holds.1 declared.left).bind
        fun flow after continues has => ?_
      cases flow with
      | returned value => exact .value continues.sound has
      | normal =>
          exact preserves.executeAll rest ((ready.later continues).scopesAfter holds.1) holds.2
            (declared.right.later continues.steady.toLater)

end Preserves

/-- Code of all kinds stays in order. -/
theorem preserves (recorded : OccurrenceId → Option Nat → Prop) (fuel : Nat) :
    Preserves recorded fuel := by
  induction fuel with
  | zero =>
      exact {
        evaluate := fun _ ready _ _ => .stop ready.sound
        evaluateAll := fun _ ready _ _ => .stop ready.sound
        call := fun {_} _ {_} _ {_} sound _ _ => .stop sound
        invoke := fun sound _ _ => .stop sound
        instantiate := fun {_} _ _ {_} sound _ => .stop sound
        execute := fun _ ready _ _ => .stop ready.sound
        executeAll := fun _ ready _ _ => .stop ready.sound }
  | succ fuel induction =>
      exact {
        evaluate := induction.evaluate_succ
        evaluateAll := induction.evaluateAll_succ
        call := induction.call_succ
        invoke := induction.invoke_succ
        instantiate := induction.instantiate_succ
        execute := induction.execute_succ
        executeAll := induction.executeAll_succ }

end History

end Lox
