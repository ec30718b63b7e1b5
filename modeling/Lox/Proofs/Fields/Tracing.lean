import Lox.Proofs.Fields.Assignment
import Lox.Proofs.History.Order
/-! Every run leaves a memory in order, whatever its code is and wherever it stands: one induction
on the fuel, and from it what sessions leave. -/

namespace Lox.History

/-- Code of all kinds that has this much fuel leaves a memory in order. -/
structure Orders (fuel : Nat) : Prop where
  evaluate {chronicle : Chronicle} (around : Option Activation) (expr : Expr) : chronicle.Traced →
    Reports Machine.Knows chronicle (evaluate fuel around expr chronicle)
  evaluateAll {chronicle : Chronicle} (around : Option Activation) (exprs : List Expr) :
    chronicle.Traced →
    Reports Machine.KnowsAll chronicle (evaluateAll fuel around exprs chronicle)
  call {chronicle : Chronicle} (around : Option Activation) {callee : Value} (paren : Token)
    {arguments : List Value} : chronicle.Traced → chronicle.toMachine.Knows callee →
    chronicle.toMachine.KnowsAll arguments →
    Reports Machine.Knows chronicle (call fuel around callee paren arguments chronicle)
  invoke {chronicle : Chronicle} (owner : Option Activation) (closure : Closure FrameId)
    {arguments : List Value} : chronicle.Traced → chronicle.toMachine.KnowsAll arguments →
    Reports Machine.Knows chronicle (invoke fuel owner closure arguments chronicle)
  instantiate {chronicle : Chronicle} (around : Option Activation) (id : ClassId)
    {arguments : List Value} : chronicle.Traced → chronicle.toMachine.KnowsAll arguments →
    Reports Machine.Knows chronicle (instantiate fuel around id arguments chronicle)
  execute {chronicle : Chronicle} (around : Option Activation) (stmt : Stmt) : chronicle.Traced →
    Reports Machine.KnowsFlow chronicle (execute fuel around stmt chronicle)
  executeAll {chronicle : Chronicle} (around : Option Activation) (stmts : List Stmt) :
    chronicle.Traced →
    Reports Machine.KnowsFlow chronicle (executeAll fuel around stmts chronicle)

variable {around owner : Option Activation} {chronicle : Chronicle}

/-- A class is declared after its superclass. -/
theorem Reports.declareClass (name : Token) {superclass : Option ClassId} (methods : List Routine)
    (traced : chronicle.Traced)
    (knows : ∀ id, superclass = some id → chronicle.toMachine.Knows (.classRef id)) :
    Reports (fun _ _ => True) chronicle
      (declareClass around name superclass methods chronicle) := by
  refine (Reports.take (.define _ _) traced (traced.grounded.defineHere name.lexeme
    (by trivial))).bind fun _ bound _ traced later _ => ?_
  replace knows := fun id same => (knows id same).later later
  have complete (frame : FrameId) {after : Chronicle} (traced : after.Traced)
      (knows : ∀ id, superclass = some id → after.toMachine.Knows (.classRef id)) :
      Reports (fun _ _ => True) after ((do
        let value ← History.take around
          (Run.newClass ⟨name.lexeme, superclass, methodTable frame methods⟩)
        History.take around (Run.storeByName name value)) after) := by
    refine (Reports.step traced (Run.keeps_newClass _) (traced.grounded.newClass knows)
      fun _ => False.elim).bind fun value made _ traced _ knows => ?_
    exact .take (.storeByName name value) traced (traced.grounded.storeByName name knows)
  refine Reports.look ?_
  cases superclass with
  | none => exact complete bound.current traced knows
  | some id =>
      refine (Reports.take (.superFrame bound.current id) traced
        (traced.grounded.superFrame bound.current (knows id rfl))).bind
          fun frame after _ traced later _ => ?_
      exact complete frame traced fun id same => (knows id same).later later

namespace Orders

variable {fuel : Nat} (traces : Orders fuel)

include traces

/-! ### Expressions -/

theorem evaluate_succ (expr : Expr) (traced : chronicle.Traced) :
    Reports Machine.Knows chronicle (History.evaluate (fuel + 1) around expr chronicle) := by
  refine Reports.valued traced fun traced => ?_
  cases expr with
  | literal value => exact .value traced (Machine.knows_ofLiteral _ value)
  | group inner => exact traces.evaluate around inner traced
  | unary operator right =>
      refine (traces.evaluate around right traced).bind fun value after _ traced _ _ => ?_
      exact .ofExcept traced fun _ => Machine.applyUnary_knows after.toMachine
  | binary left operator right =>
      refine (traces.evaluate around left traced).bind fun first middle _ traced _ _ => ?_
      refine (traces.evaluate around right traced).bind fun second after _ traced _ _ => ?_
      exact .ofExcept traced fun _ => Machine.applyBinary_knows after.toMachine
  | logical left operator right =>
      refine (traces.evaluate around left traced).bind fun value after _ traced _ knows => ?_
      split
      · exact .value traced knows
      · exact traces.evaluate around right traced
  | read id name => exact .take (.lookUp id name) traced (traced.grounded.lookUp id name)
  | assign id name value =>
      refine (traces.evaluate around value traced).bind fun value middle _ traced _ knows => ?_
      refine (Reports.take (.store id name value) traced
        (traced.grounded.store id name knows)).bind fun _ after _ traced later _ => ?_
      exact .value traced (knows.later later)
  | call callee paren arguments =>
      refine (traces.evaluate around callee traced).bind fun callee middle _ traced _ knows => ?_
      refine (traces.evaluateAll around arguments traced).bind
        fun arguments after _ traced later all => ?_
      exact traces.call around paren traced (knows.later later) all
  | get object name =>
      refine (traces.evaluate around object traced).bind fun value after _ traced _ knows => ?_
      cases value with
      | object id =>
          exact .step traced (Run.closed_keeps.elementary (.property id name))
            (traced.grounded.property name knows) fun _ => False.elim
      | _ => exact .stop traced
  | set object name value =>
      refine (traces.evaluate around object traced).bind
        fun target middle found traced _ knows => ?_
      cases target with
      | object id =>
          refine (traces.evaluate around value traced).bind
            fun given done evaluated traced _ knows => ?_
          refine (Reports.assigned found evaluated traced knows).bind
            fun _ final _ traced later _ => ?_
          exact .value traced (knows.later later)
      | _ => exact .stop traced
  | this id keyword => exact .take (.lookUp id keyword) traced (traced.grounded.lookUp id keyword)
  | super id keyword method =>
      exact .step traced (Run.closed_keeps.elementary (.superMethod id keyword method))
        (traced.grounded.superMethod id keyword method) fun _ => False.elim

theorem evaluateAll_succ (exprs : List Expr) (traced : chronicle.Traced) :
    Reports Machine.KnowsAll chronicle
      (History.evaluateAll (fuel + 1) around exprs chronicle) := by
  refine Reports.noted traced (fun _ => False.elim) fun traced => ?_
  cases exprs with
  | nil => exact .value traced fun _ none => absurd none List.not_mem_nil
  | cons expr rest =>
      refine (traces.evaluate around expr traced).bind fun value middle _ traced _ knows => ?_
      refine (traces.evaluateAll around rest traced).bind fun values after _ traced later all => ?_
      exact .value traced (List.forall_mem_cons.mpr ⟨knows.later later, all⟩)

/-! ### Calls -/

theorem call_succ {callee : Value} (paren : Token) {arguments : List Value}
    (traced : chronicle.Traced) (knows : chronicle.toMachine.Knows callee)
    (all : chronicle.toMachine.KnowsAll arguments) :
    Reports Machine.Knows chronicle
      (History.call (fuel + 1) around callee paren arguments chronicle) := by
  have mentioned : Event.Known chronicle.toMachine (.starts (.call callee paren arguments)) := by
    rintro value (same | member)
    · exact same ▸ knows
    · exact all value member
  refine Reports.noted traced mentioned fun traced => Reports.look ?_
  cases (chronicle.note around (.starts (.call callee paren arguments))).arity? callee with
  | none => exact .stop traced
  | some arity =>
      dsimp only
      split
      · exact .stop traced
      · cases callee with
        | native native =>
            cases native
            exact .take .readClock traced traced.grounded.readClock
        | function id =>
            refine Reports.look ?_
            cases (chronicle.note around
                (.starts (.call (.function id) paren arguments))).functions[id]? with
            | some closure => exact traces.invoke _ closure traced all
            | none => exact .stop traced
        | classRef id => exact traces.instantiate around id traced all
        | _ => exact .stop traced

theorem invoke_succ (closure : Closure FrameId) {arguments : List Value}
    (traced : chronicle.Traced) (all : chronicle.toMachine.KnowsAll arguments) :
    Reports Machine.Knows chronicle
      (History.invoke (fuel + 1) owner closure arguments chronicle) := by
  refine Reports.noted traced all fun traced => ?_
  refine (Reports.take (.newFrame closure.place) traced
    (traced.grounded.newFrame closure.place)).bind fun frame middle _ traced later _ => ?_
  replace all : middle.toMachine.KnowsAll arguments := all.later later
  refine (Reports.take (.defineAll frame _) traced (traced.grounded.bindParameters frame
    fun entry member => all _ (List.of_mem_zip member).2)).bind fun _ bound _ traced _ _ => ?_
  have inner : Reports Machine.KnowsFlow bound
      (inside frame (History.executeAll fuel owner closure.routine.body) bound) :=
    .inside traced (fun machine current flow knows => Machine.knowsFlow_moveTo knows current)
      fun traced => traces.executeAll owner closure.routine.body traced
  refine inner.bind fun flow after _ traced _ knows => ?_
  cases closure.isInitializer with
  | true =>
      refine Reports.look (.value traced ?_)
      cases own : after.forest.own? closure.place thisName with
      | none => trivial
      | some value => exact traced.grounded.values _ _ _ own
  | false =>
      cases flow with
      | returned value => exact .value traced knows
      | normal => exact .value traced (by trivial)

theorem instantiate_succ (id : ClassId) {arguments : List Value} (traced : chronicle.Traced)
    (all : chronicle.toMachine.KnowsAll arguments) :
    Reports Machine.Knows chronicle
      (History.instantiate (fuel + 1) around id arguments chronicle) := by
  refine Reports.noted traced all fun traced => ?_
  refine (Reports.newObject id traced).bind fun object made _ traced later knows => ?_
  replace all : made.toMachine.KnowsAll arguments := all.later later
  refine Reports.look ?_
  cases made.method? id initializerName with
  | none => exact .value traced knows
  | some initializer =>
      refine (Reports.take (.bind initializer object) traced
        (traced.grounded.bindTo initializer knows)).bind fun closure bound _ traced later _ => ?_
      replace knows := knows.later later
      refine (traces.invoke _ closure traced (all.later later)).bind
        fun _ after _ traced later _ => ?_
      exact .value traced (knows.later later)

/-! ### Statements -/

theorem execute_succ (stmt : Stmt) (traced : chronicle.Traced) :
    Reports Machine.KnowsFlow chronicle
      (History.execute (fuel + 1) around stmt chronicle) := by
  refine Reports.noted traced (fun _ => False.elim) fun traced => ?_
  cases stmt with
  | expression expr =>
      refine (traces.evaluate around expr traced).bind fun _ after _ traced _ _ => ?_
      exact .value traced (by trivial)
  | print expr =>
      refine (traces.evaluate around expr traced).bind fun value after _ traced _ knows => ?_
      have later := (Run.keeps_print value after.toMachine).toLater
      have mentioned : Event.Known (leftBy (Run.print value after.toMachine)) (.prints value) := by
        rintro _ rfl
        exact knows.later later
      refine (Reports.step traced (Run.keeps_print value) (traced.grounded.print value)
        mentioned).bind fun _ final _ traced _ _ => ?_
      exact .value traced (by trivial)
  | var name initial =>
      cases initial with
      | none =>
          refine (Reports.take (.define name.lexeme .nil) traced
            (traced.grounded.defineHere name.lexeme (by trivial))).bind
              fun _ after _ traced _ _ => ?_
          exact .value traced (by trivial)
      | some initial =>
          refine (traces.evaluate around initial traced).bind
            fun value middle _ traced _ knows => ?_
          refine (Reports.take (.define name.lexeme value) traced
            (traced.grounded.defineHere name.lexeme knows)).bind fun _ after _ traced _ _ => ?_
          exact .value traced (by trivial)
  | block body =>
      refine Reports.look ?_
      refine (Reports.take (.newFrame _) traced (traced.grounded.newFrame _)).bind
        fun frame entered _ traced _ _ => ?_
      exact .inside traced (fun machine current flow knows => Machine.knowsFlow_moveTo knows current)
        fun traced => traces.executeAll around body traced
  | conditional condition thenBranch elseBranch =>
      refine (traces.evaluate around condition traced).bind fun value after _ tested _ _ => ?_
      split
      · exact traces.execute around thenBranch tested
      · cases elseBranch with
        | none => exact .value tested (by trivial)
        | some elseBranch => exact traces.execute around elseBranch tested
  | loop condition body =>
      refine (traces.evaluate around condition traced).bind fun value middle _ traced _ _ => ?_
      split
      · refine (traces.execute around body traced).bind fun flow after _ traced _ knows => ?_
        cases flow with
        | returned value => exact .value traced knows
        | normal => exact traces.execute around (.loop condition body) traced
      · exact .value traced (by trivial)
  | function routine =>
      refine Reports.look ?_
      refine (Reports.take (.newFunction _) traced (traced.grounded.newFunction _)).bind
        fun value made _ traced _ knows => ?_
      refine (Reports.take (.define routine.name.lexeme value) traced
        (traced.grounded.defineHere routine.name.lexeme knows)).bind
          fun _ after _ traced _ _ => ?_
      exact .value traced (by trivial)
  | returns keyword value =>
      cases value with
      | none => exact .value traced (by trivial)
      | some value =>
          refine (traces.evaluate around value traced).bind fun value after _ traced _ knows => ?_
          exact .value traced knows
  | classDecl name superclass methods =>
      cases superclass with
      | none =>
          have known (id : ClassId) (absent : none = some id) :
              Machine.Knows (chronicle.note around (.starts (.execute (.classDecl name none
                methods)))).toMachine (.classRef id) := by
            cases absent
          refine (Reports.declareClass name methods traced known).bind
            fun _ after _ traced _ _ => ?_
          exact .value traced (by trivial)
      | some superclass =>
          refine (traces.evaluate around superclass traced).bind
            fun value middle _ traced _ knows => ?_
          cases value with
          | classRef id =>
              have known (other : ClassId) (same : some id = some other) :
                  middle.toMachine.Knows (.classRef other) := Option.some.inj same ▸ knows
              refine (Reports.declareClass name methods traced known).bind
                fun _ after _ traced _ _ => ?_
              exact .value traced (by trivial)
          | _ => exact .stop traced

theorem executeAll_succ (stmts : List Stmt) (traced : chronicle.Traced) :
    Reports Machine.KnowsFlow chronicle
      (History.executeAll (fuel + 1) around stmts chronicle) := by
  refine Reports.noted traced (fun _ => False.elim) fun traced => ?_
  cases stmts with
  | nil => exact .value traced (by trivial)
  | cons stmt rest =>
      refine (traces.execute around stmt traced).bind fun flow after _ traced _ knows => ?_
      cases flow with
      | returned value => exact .value traced knows
      | normal => exact traces.executeAll around rest traced

end Orders

theorem orders (fuel : Nat) : Orders fuel := by
  induction fuel with
  | zero =>
      exact {
        evaluate := fun _ _ => .stop
        evaluateAll := fun _ _ => .stop
        call := fun {_} _ {_} _ {_} traced _ _ => .stop traced
        invoke := fun {_} _ _ {_} traced _ => .stop traced
        instantiate := fun {_} _ _ {_} traced _ => .stop traced
        execute := fun _ _ => .stop
        executeAll := fun _ _ => .stop }
  | succ fuel induction =>
      exact {
        evaluate := fun _ => induction.evaluate_succ
        evaluateAll := fun _ => induction.evaluateAll_succ
        call := fun {_} _ {_} => induction.call_succ
        invoke := fun _ => induction.invoke_succ
        instantiate := fun _ => induction.instantiate_succ
        execute := fun _ => induction.execute_succ
        executeAll := fun _ => induction.executeAll_succ }

/-! ## Sessions -/

theorem Reports.executeProgram (fuel : Nat) (stmts : List Stmt) (traced : chronicle.Traced) :
    Reports (fun _ _ => True) chronicle (executeProgram fuel stmts chronicle) := by
  induction stmts generalizing chronicle with
  | nil =>
      have mentioned : Event.Known (leftBy (Run.flush chronicle.toMachine)) .passes :=
        fun _ => False.elim
      rw [History.executeProgram, History.take]
      exact .step traced Run.keeps_flush traced.grounded.flush mentioned
  | cons stmt rest induction =>
      exact ((orders fuel).execute none stmt traced).bind fun _ after _ traced _ _ =>
        induction traced

namespace Session

theorem traced_start (sink : Sink) (clock : Nat → Float) :
    (of (Lox.Session.start sink clock)).chronicle.Traced := by
  have nothing {α : Type} {index : Nat} {value : α} : (#[] : Array α)[index]? ≠ some value := by
    simp
  refine ⟨⟨fun frame name value bound => ?_, fun _ _ _ _ found _ => absurd found nothing,
    fun _ _ _ found _ => absurd found nothing⟩, fun _ member => absurd member List.not_mem_nil,
    rfl, fun _ _ suffix => absurd (List.suffix_nil.mp suffix) (List.cons_ne_nil _ _)⟩
  have bound := (Lexical.own?_start sink clock frame name).symm.trans bound
  split at bound
  · cases bound
    trivial
  · cases bound

theorem traced_run {session : Session} (traced : session.chronicle.Traced) (fuel : Nat)
    (source : String) : (session.run fuel source).2.chronicle.Traced := by
  obtain ⟨chronicle, nextId⟩ := session
  rcases run_cases fuel nextId source with ⟨problems, rejected⟩ | ⟨_, _, ran⟩
  · rw [rejected]
    exact traced
  · have learnt (distances : Distances) : (chronicle.learn distances).Traced :=
      ⟨traced.grounded.learn distances, traced.mentions, traced.now, traced.always⟩
    rw [ran, ended_snd]
    exact (Reports.executeProgram fuel _ (learnt _)).traced

theorem traced_runAll {session : Session} (traced : session.chronicle.Traced) (fuel : Nat)
    (sources : List String) : (session.runAll fuel sources).2.chronicle.Traced := by
  induction sources generalizing session with
  | nil => exact traced
  | cons source rest induction => exact induction (traced_run traced fuel source)

end Session

end Lox.History
