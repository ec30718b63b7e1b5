import Lox.Proofs.Variation.Tree
import Lox.Scope
/-! The walk over a program and over a variant of it. Both find the same faults, and record
the same distances under numbers that stand for each other. -/

namespace Lox

variable {variation : Variation}

/-- The same fault of the scope rules, blamed on the same place. -/
inductive Diagnostic.Varies (variation : Variation) : Diagnostic → Diagnostic → Prop
  | scope {fault blamed blamed'} : variation.tokens blamed blamed' →
      Varies variation (.scope fault blamed) (.scope fault blamed')

/-- The two walks have come to the same place. -/
structure Walk.Varies (variation : Variation) (walk other : Walk) : Prop where
  scopes : other.scopes = walk.scopes
  distances : ∀ id id', variation.ids id id' →
    walk.distances.find? id = other.distances.find? id'
  problems : List.Forall₂ (Diagnostic.Varies variation) walk.problems other.problems

/-! ## Steps -/

namespace Walk.Varies

variable {walk other : Walk}

theorem report (varies : walk.Varies variation other) (fault : ScopeFault) {blamed blamed' : Token}
    (same : variation.tokens blamed blamed') :
    (walk.report fault blamed).Varies variation (other.report fault blamed') :=
  ⟨varies.scopes, varies.distances, List.rel_append varies.problems (.cons (.scope same) .nil)⟩

theorem reportIf (varies : walk.Varies variation other) {condition condition' : Bool}
    (alike : condition' = condition) (fault : ScopeFault) {blamed blamed' : Token}
    (same : variation.tokens blamed blamed') :
    (walk.reportIf condition fault blamed).Varies variation
      (other.reportIf condition' fault blamed') := by
  rw [alike, Walk.reportIf, Walk.reportIf]
  split
  · exact varies.report fault same
  · exact varies

theorem enter (varies : walk.Varies variation other) : walk.enter.Varies variation other.enter :=
  ⟨congrArg (∅ :: ·) varies.scopes, varies.distances, varies.problems⟩

theorem leave (varies : walk.Varies variation other) : walk.leave.Varies variation other.leave :=
  ⟨congrArg List.tail varies.scopes, varies.distances, varies.problems⟩

theorem bind (varies : walk.Varies variation other) (name : String) (state : NameState) :
    (walk.bind name state).Varies variation (other.bind name state) := by
  rw [Walk.bind, Walk.bind, varies.scopes]
  cases walk.scopes with
  | nil => exact varies
  | cons scope outer => exact ⟨rfl, varies.distances, varies.problems⟩

theorem innermost? (varies : walk.Varies variation other) (name : String) :
    other.innermost? name = walk.innermost? name := by
  rw [Walk.innermost?, Walk.innermost?, varies.scopes]

theorem distance? (varies : walk.Varies variation other) (name : String) :
    other.distance? name = walk.distance? name := by
  rw [Walk.distance?, Walk.distance?, varies.scopes]

theorem declare (varies : walk.Varies variation other) {name name' : Token}
    (same : variation.tokens name name') :
    (walk.declare name).Varies variation (other.declare name') := by
  rw [Walk.declare, Walk.declare, variation.lexeme same, varies.innermost?]
  cases walk.innermost? name.lexeme with
  | some _ => exact varies.report .redeclared same
  | none => exact varies.bind name.lexeme .declared

theorem define (varies : walk.Varies variation other) {name name' : Token}
    (same : variation.tokens name name') :
    (walk.define name).Varies variation (other.define name') := by
  rw [Walk.define, Walk.define, variation.lexeme same]
  exact varies.bind name.lexeme .ready

theorem declareAll (varies : walk.Varies variation other) {names names' : List Token}
    (texts : variation.Texts names names') :
    (names.foldl (fun walk name => (walk.declare name).define name) walk).Varies variation
      (names'.foldl (fun walk name => (walk.declare name).define name) other) := by
  induction texts generalizing walk other with
  | nil => exact varies
  | cons same _ induction => exact induction ((varies.declare same).define same)

theorem locate (varies : walk.Varies variation other) (unique : variation.Exact)
    {id id' : OccurrenceId} (ids : variation.ids id id') {name name' : Token}
    (same : variation.tokens name name') :
    (walk.locate id name).Varies variation (other.locate id' name') := by
  rw [Walk.locate, Walk.locate, variation.lexeme same, varies.distance?]
  cases walk.distance? name.lexeme with
  | none => exact varies
  | some distance =>
      refine ⟨varies.scopes, fun query query' related => ?_, varies.problems⟩
      rw [Table.find?_set, Table.find?_set, varies.distances query query' related]
      by_cases written : query = id
      · rw [if_pos written, if_pos ((unique related ids).mp written)]
      · rw [if_neg written, if_neg fun written' => written ((unique related ids).mpr written')]

theorem locateThis (varies : walk.Varies variation other) (unique : variation.Exact)
    (kind : ClassKind) {id id' : OccurrenceId} (ids : variation.ids id id')
    {keyword keyword' : Token} (same : variation.tokens keyword keyword') :
    (walk.locateThis kind id keyword).Varies variation (other.locateThis kind id' keyword') := by
  cases kind with
  | outside => exact varies.report .thisOutsideClass same
  | plain | derived => exact varies.locate unique ids same

theorem locateSuper (varies : walk.Varies variation other) (unique : variation.Exact)
    (kind : ClassKind) {id id' : OccurrenceId} (ids : variation.ids id id')
    {keyword keyword' : Token} (same : variation.tokens keyword keyword') :
    (walk.locateSuper kind id keyword).Varies variation (other.locateSuper kind id' keyword') := by
  cases kind with
  | outside => exact (varies.report .superOutsideClass same).locate unique ids same
  | plain => exact (varies.report .superWithoutSuperclass same).locate unique ids same
  | derived => exact varies.locate unique ids same

theorem checkInheritance (varies : walk.Varies variation other) {name name' : Token}
    (same : variation.tokens name name') {superclass superclass' : Option Expr}
    (inherits : Expr.Varies? variation superclass superclass') :
    (walk.checkInheritance name superclass).Varies variation
      (other.checkInheritance name' superclass') := by
  cases inherits with
  | none => exact varies
  | some parent =>
      cases parent with
      | read _ spelled =>
          refine varies.reportIf ?_ .selfInheritance spelled
          rw [variation.lexeme spelled, variation.lexeme same]
      | _ => exact varies

theorem enterClass (varies : walk.Varies variation other) {superclass superclass' : Option Expr}
    (inherits : Expr.Varies? variation superclass superclass') :
    (walk.enterClass superclass).Varies variation (other.enterClass superclass') := by
  cases inherits with
  | none => exact varies.enter.bind thisName .ready
  | some _ => exact (varies.enter.bind superName .ready).enter.bind thisName .ready

theorem leaveClass (varies : walk.Varies variation other) {superclass superclass' : Option Expr}
    (inherits : Expr.Varies? variation superclass superclass') :
    (walk.leaveClass superclass).Varies variation (other.leaveClass superclass') := by
  cases inherits with
  | none => exact varies.leave
  | some _ => exact varies.leave.leave

end Walk.Varies

theorem ClassKind.ofSuperclass_varies {superclass superclass' : Option Expr}
    (inherits : Expr.Varies? variation superclass superclass') :
    ofSuperclass superclass' = ofSuperclass superclass := by
  cases inherits <;> rfl

theorem BodyKind.ofMethod_varies {name name' : Token} (same : variation.tokens name name') :
    ofMethod name' = ofMethod name := by
  rw [ofMethod, ofMethod, variation.lexeme same]

/-! ## Walks -/

mutual
theorem Expr.Varies.resolve (unique : variation.Exact) (kind : ClassKind) {expr expr' : Expr}
    {walk other : Walk} : expr.Varies variation expr' → walk.Varies variation other →
      (expr.resolve kind walk).Varies variation (expr'.resolve kind other)
  | .literal, varies => varies
  | .group inner, varies => inner.resolve unique kind varies
  | .unary _ right, varies => right.resolve unique kind varies
  | .binary left _ right, varies | .logical left _ right, varies =>
      right.resolve unique kind (left.resolve unique kind varies)
  | .read ids same, varies => by
      refine (varies.reportIf ?_ .readInOwnInitializer same).locate unique ids same
      rw [variation.lexeme same, varies.innermost?]
  | .assign ids same value, varies => (value.resolve unique kind varies).locate unique ids same
  | .call callee _ arguments, varies =>
      arguments.resolveAll unique kind (callee.resolve unique kind varies)
  | .get object _, varies => object.resolve unique kind varies
  | .set object _ value, varies =>
      object.resolve unique kind (value.resolve unique kind varies)
  | .this ids same, varies => varies.locateThis unique kind ids same
  | .super ids same _, varies => varies.locateSuper unique kind ids same

theorem Expr.AllVary.resolveAll (unique : variation.Exact) (kind : ClassKind)
    {exprs exprs' : List Expr} {walk other : Walk} :
    Expr.AllVary variation exprs exprs' → walk.Varies variation other →
      (Expr.resolveAll kind exprs walk).Varies variation (Expr.resolveAll kind exprs' other)
  | .nil, varies => varies
  | .cons first rest, varies => rest.resolveAll unique kind (first.resolve unique kind varies)
end

theorem Expr.Varies?.resolve? (unique : variation.Exact) (kind : ClassKind)
    {expr? expr?' : Option Expr} {walk other : Walk}
    (vary : Expr.Varies? variation expr? expr?') (varies : walk.Varies variation other) :
    (Expr.resolve? kind expr? walk).Varies variation (Expr.resolve? kind expr?' other) := by
  cases vary with
  | none => exact varies
  | some same => exact same.resolve unique kind varies

mutual
theorem Stmt.Varies.resolve (unique : variation.Exact) (around : Surroundings) {stmt stmt' : Stmt}
    {walk other : Walk} : stmt.Varies variation stmt' → walk.Varies variation other →
      (stmt.resolve around walk).Varies variation (stmt'.resolve around other)
  | .expression expr, varies | .print expr, varies => expr.resolve unique around.classKind varies
  | .var same initial, varies =>
      (Expr.Varies?.resolve? unique around.classKind initial (varies.declare same)).define same
  | .block body, varies => (body.resolveAll unique around varies.enter).leave
  | .conditional condition thenBranch, varies =>
      thenBranch.resolve unique around (condition.resolve unique around.classKind varies)
  | .conditionalElse condition thenBranch elseBranch, varies =>
      elseBranch.resolve unique around
        (thenBranch.resolve unique around (condition.resolve unique around.classKind varies))
  | .loop condition body, varies =>
      body.resolve unique around (condition.resolve unique around.classKind varies)
  | .function (.mk same parameters body), varies =>
      (Routine.Varies.mk same parameters body).resolve unique _ ((varies.declare same).define same)
  | .returns same value, varies => by
      have returned := varies.reportIf (Eq.refl (around.body == .topLevel)) .topLevelReturn same
      refine Expr.Varies?.resolve? unique around.classKind value
        (returned.reportIf ?_ .returnFromInitializer same)
      cases value <;> rfl
  | .classDecl same inherits methods, varies => by
      have named := ((varies.declare same).define same).checkInheritance same inherits
      have kind := ClassKind.ofSuperclass_varies inherits
      rw [Stmt.resolve, Stmt.resolve, kind]
      exact (methods.resolveMethods unique _
        ((Expr.Varies?.resolve? unique _ inherits named).enterClass inherits)).leaveClass inherits

theorem Stmt.AllVary.resolveAll (unique : variation.Exact) (around : Surroundings)
    {stmts stmts' : List Stmt} {walk other : Walk} :
    Stmt.AllVary variation stmts stmts' → walk.Varies variation other →
      (Stmt.resolveAll around stmts walk).Varies variation (Stmt.resolveAll around stmts' other)
  | .nil, varies => varies
  | .cons first rest, varies => rest.resolveAll unique around (first.resolve unique around varies)

theorem Routine.Varies.resolve (unique : variation.Exact) (around : Surroundings)
    {routine routine' : Routine} {walk other : Walk} :
    routine.Varies variation routine' → walk.Varies variation other →
      (routine.resolve around walk).Varies variation (routine'.resolve around other)
  | .mk _ parameters body, varies =>
      (body.resolveAll unique around (varies.enter.declareAll parameters)).leave

theorem Routine.AllVary.resolveMethods (unique : variation.Exact) (inside : ClassKind)
    {methods methods' : List Routine} {walk other : Walk} :
    Routine.AllVary variation methods methods' → walk.Varies variation other →
      (Routine.resolveMethods inside methods walk).Varies variation
        (Routine.resolveMethods inside methods' other)
  | .nil, varies => varies
  | .cons (.mk same parameters body) rest, varies => by
      have kind := BodyKind.ofMethod_varies same
      rw [Routine.resolveMethods, Routine.resolveMethods]
      show (Routine.resolveMethods inside _ (Routine.resolve ⟨.ofMethod _, inside⟩ _ walk)).Varies
        variation (Routine.resolveMethods inside _ (Routine.resolve ⟨.ofMethod _, inside⟩ _ other))
      rw [Routine.name, Routine.name, kind]
      exact rest.resolveMethods unique inside
        ((Routine.Varies.mk same parameters body).resolve unique _ varies)
end

/-! ## Programs -/

/-- A variant of a program breaks the same rules at the same places. -/
theorem resolve_varies (unique : variation.Exact) {program program' : List Stmt}
    (vary : Stmt.AllVary variation program program') :
    (∀ id id', variation.ids id id' →
      (resolve program).distances.find? id = (resolve program').distances.find? id') ∧
      List.Forall₂ (Diagnostic.Varies variation) (resolve program).problems
        (resolve program').problems := by
  have start : Walk.start.Varies variation .start := ⟨rfl, fun _ _ _ => rfl, .nil⟩
  have walked := vary.resolveAll unique ⟨.topLevel, .outside⟩ start
  exact ⟨walked.distances, walked.problems⟩

end Lox
