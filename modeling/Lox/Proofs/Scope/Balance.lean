import Lox.Proofs.Scope.Walk
/-! The scopes that a walk leaves behind, whether it reports something or not. An expression leaves
them as they are, and a statement too, but for the name that it declares where it stands. -/

namespace Lox

open Scope Walk

/-! ## Steps -/

namespace Scope

theorem scopesAfter_of_not_declaration {stmt : Stmt} {scopes : List Scope}
    (governed : stmt.isDeclaration = false) : stmt.scopesAfter scopes = scopes := by
  cases stmt with
  | var | function | classDecl => cases governed
  | _ => rfl

theorem tail_bindIn (scopes : List Scope) (name : String) (state : NameState) :
    (bindIn scopes name state).tail = scopes.tail := by
  cases scopes <;> rfl

theorem tail_scopesAfter (scopes : List Scope) (stmt : Stmt) :
    (stmt.scopesAfter scopes).tail = scopes.tail := by
  cases stmt with
  | var | function | classDecl => exact tail_bindIn _ _ _
  | _ => rfl

end Scope

namespace Walk

@[simp] theorem reportIf_scopes (walk : Walk) (condition : Bool) (fault : ScopeFault)
    (blamed : Token) : (walk.reportIf condition fault blamed).scopes = walk.scopes := by
  unfold reportIf
  split <;> rfl

@[simp] theorem locate_scopes (walk : Walk) (id : OccurrenceId) (name : Token) :
    (walk.locate id name).scopes = walk.scopes := by
  unfold locate
  split <;> rfl

@[simp] theorem bind_scopes (walk : Walk) (name : String) (state : NameState) :
    (walk.bind name state).scopes = bindIn walk.scopes name state := by
  unfold bind
  split
  · rename_i none
    rw [none]
    rfl
  · rename_i some
    rw [some]
    rfl

theorem leaveClass_scopes {walk : Walk} {superclass : Option Expr} {scopes : List Scope}
    (inside : walk.scopes = ofClass scopes superclass) :
    (walk.leaveClass superclass).scopes = scopes := by
  cases superclass with
  | none =>
      show walk.scopes.tail = scopes
      rw [inside]
      rfl
  | some _ =>
      show walk.scopes.tail.tail = scopes
      rw [inside]
      rfl

theorem checkInheritance_scopes (walk : Walk) (name : Token) (superclass : Option Expr) :
    (walk.checkInheritance name superclass).scopes = walk.scopes := by
  unfold checkInheritance
  split
  · exact reportIf_scopes walk _ _ _
  · rfl

theorem enterClass_scopes (walk : Walk) (superclass : Option Expr) :
    (walk.enterClass superclass).scopes = ofClass walk.scopes superclass := by
  cases superclass <;> rfl

/-- A name is ready once it is declared and defined, also if it was declared before. -/
theorem named_scopes (walk : Walk) (name : Token) :
    ((walk.declare name).define name).scopes = bindIn walk.scopes name.lexeme .ready := by
  rw [define, bind_scopes]
  unfold declare
  split
  · rfl
  · rw [bind_scopes, bindIn_bindIn]

theorem declareAll_scopes {names : List Token} {walk : Walk} {scope : Scope} {outer : List Scope}
    (scopes : walk.scopes = scope :: outer) :
    (names.foldl (fun walk name => (walk.declare name).define name) walk).scopes =
      names.foldl (fun scope name => scope.set name.lexeme .ready) scope :: outer := by
  induction names generalizing walk scope with
  | nil => exact scopes
  | cons name names induction =>
      refine induction ?_
      rw [named_scopes, scopes]
      rfl

end Walk

/-! ## Code -/

mutual
theorem Expr.resolve_scopes (kind : ClassKind) :
    ∀ (expr : Expr) (walk : Walk), (expr.resolve kind walk).scopes = walk.scopes
  | .literal _, _ => rfl
  | .group inner, walk => Expr.resolve_scopes kind inner walk
  | .unary _ right, walk => Expr.resolve_scopes kind right walk
  | .binary left _ right, walk | .logical left _ right, walk =>
      (Expr.resolve_scopes kind right _).trans (Expr.resolve_scopes kind left walk)
  | .read _ _, walk => by rw [Expr.resolve, locate_scopes, reportIf_scopes]
  | .assign _ _ value, walk => by
      rw [Expr.resolve, locate_scopes]
      exact Expr.resolve_scopes kind value walk
  | .call callee _ arguments, walk =>
      (Expr.resolveAll_scopes kind arguments _).trans (Expr.resolve_scopes kind callee walk)
  | .get object _, walk => Expr.resolve_scopes kind object walk
  | .set object _ value, walk =>
      (Expr.resolve_scopes kind object _).trans (Expr.resolve_scopes kind value walk)
  | .this _ _, walk => by
      rw [Expr.resolve]
      cases kind <;> simp [locateThis, report]
  | .super _ _ _, walk => by
      rw [Expr.resolve]
      cases kind <;> simp [locateSuper, report]

theorem Expr.resolveAll_scopes (kind : ClassKind) :
    ∀ (exprs : List Expr) (walk : Walk), (Expr.resolveAll kind exprs walk).scopes = walk.scopes
  | [], _ => rfl
  | expr :: rest, walk =>
      (Expr.resolveAll_scopes kind rest _).trans (Expr.resolve_scopes kind expr walk)
end

theorem Expr.resolve?_scopes (kind : ClassKind) (expr? : Option Expr) (walk : Walk) :
    (Expr.resolve? kind expr? walk).scopes = walk.scopes := by
  cases expr? with
  | none => rfl
  | some expr => exact Expr.resolve_scopes kind expr walk

mutual
theorem Stmt.resolve_scopes (around : Surroundings) : ∀ (stmt : Stmt) (walk : Walk), stmt.Proper →
    (stmt.resolve around walk).scopes = stmt.scopesAfter walk.scopes
  | .expression expr, walk, _ | .print expr, walk, _ =>
      Expr.resolve_scopes around.classKind expr walk
  | .var name initial, walk, _ => by
      rw [Stmt.resolve, define, bind_scopes, Expr.resolve?_scopes, ← bind_scopes]
      exact named_scopes walk name
  | .block body, walk, proper => Stmt.resolveAll_tail around body walk.enter proper
  | .conditional condition thenBranch none, walk, proper => by
      rw [Stmt.resolve, Stmt.resolve_scopes around thenBranch _ proper.2.1, Expr.resolve_scopes,
        scopesAfter_of_not_declaration proper.2.2]
      rfl
  | .conditional condition thenBranch (some elseBranch), walk, proper => by
      rw [Stmt.resolve, Stmt.resolve_scopes around elseBranch _ proper.2.2.1,
        Stmt.resolve_scopes around thenBranch _ proper.2.1.1, Expr.resolve_scopes,
        scopesAfter_of_not_declaration proper.2.1.2, scopesAfter_of_not_declaration proper.2.2.2]
      rfl
  | .loop condition body, walk, proper => by
      rw [Stmt.resolve, Stmt.resolve_scopes around body _ proper.2.1, Expr.resolve_scopes,
        scopesAfter_of_not_declaration proper.2.2]
      rfl
  | .function routine, walk, proper => by
      rw [Stmt.resolve, Routine.resolve_scopes _ routine _ proper, named_scopes]
      rfl
  | .returns keyword value, walk, _ => by
      rw [Stmt.resolve, Expr.resolve?_scopes, reportIf_scopes, reportIf_scopes]
      rfl
  | .classDecl name superclass methods, walk, proper => by
      rw [Stmt.resolve]
      refine leaveClass_scopes ?_
      rw [Routine.resolveMethods_scopes _ methods _ proper.2.2, enterClass_scopes,
        Expr.resolve?_scopes, checkInheritance_scopes, named_scopes]
      rfl

theorem Stmt.resolveAll_tail (around : Surroundings) : ∀ (stmts : List Stmt) (walk : Walk),
    Stmt.AllProper stmts → (Stmt.resolveAll around stmts walk).scopes.tail = walk.scopes.tail
  | [], _, _ => rfl
  | stmt :: rest, walk, proper => by
      rw [Stmt.resolveAll, Stmt.resolveAll_tail around rest _ proper.2,
        Stmt.resolve_scopes around stmt walk proper.1, tail_scopesAfter]

theorem Routine.resolve_scopes (around : Surroundings) : ∀ (routine : Routine) (walk : Walk),
    routine.Proper → (routine.resolve around walk).scopes = walk.scopes
  | .mk _ parameters body, walk, proper => by
      rw [Routine.resolve, leave, Stmt.resolveAll_tail around body _ proper.2.2,
        declareAll_scopes rfl]
      rfl

theorem Routine.resolveMethods_scopes (inside : ClassKind) :
    ∀ (methods : List Routine) (walk : Walk), Routine.AllProper methods →
      (Routine.resolveMethods inside methods walk).scopes = walk.scopes
  | [], _, _ => rfl
  | method :: rest, walk, proper =>
      (Routine.resolveMethods_scopes inside rest _ proper.2).trans
        (Routine.resolve_scopes _ method walk proper.1)
end

/-! ## How deep a walk is -/

namespace Walk

theorem bind_depth (walk : Walk) (name : String) (state : NameState) :
    (walk.bind name state).scopes.length = walk.scopes.length := by
  rw [bind_scopes]
  cases walk.scopes <;> rfl

theorem declare_depth (walk : Walk) (name : Token) :
    (walk.declare name).scopes.length = walk.scopes.length := by
  unfold declare
  split
  · rfl
  · exact bind_depth walk _ _

theorem named_depth (walk : Walk) (name : Token) :
    ((walk.declare name).define name).scopes.length = walk.scopes.length :=
  (bind_depth _ _ _).trans (declare_depth walk name)

theorem declareAll_depth (walk : Walk) (names : List Token) :
    (names.foldl (fun walk name => (walk.declare name).define name) walk).scopes.length =
      walk.scopes.length := by
  induction names generalizing walk with
  | nil => rfl
  | cons name names induction => exact (induction _).trans (named_depth walk name)

theorem leaveClass_depth {walk : Walk} (superclass : Option Expr) {depth : Nat}
    (inside : walk.scopes.length = depth + if superclass.isSome then 2 else 1) :
    (walk.leaveClass superclass).scopes.length = depth := by
  cases superclass with
  | none =>
      show walk.scopes.tail.length = depth
      rw [List.length_tail, inside]
      rfl
  | some _ =>
      show walk.scopes.tail.tail.length = depth
      rw [List.length_tail, List.length_tail, inside]
      rfl

end Walk

mutual
/-- All scopes that code enters it leaves again. -/
theorem Stmt.resolve_depth (around : Surroundings) : ∀ (stmt : Stmt) (walk : Walk),
    (stmt.resolve around walk).scopes.length = walk.scopes.length
  | .expression expr, walk | .print expr, walk =>
      congrArg List.length (Expr.resolve_scopes around.classKind expr walk)
  | .var name initial, walk => by
      rw [Stmt.resolve, define, bind_depth, Expr.resolve?_scopes, declare_depth]
  | .block body, walk => by
      rw [Stmt.resolve, leave, List.length_tail, Stmt.resolveAll_depth around body walk.enter]
      rfl
  | .conditional condition thenBranch none, walk => by
      rw [Stmt.resolve, Stmt.resolve_depth around thenBranch, Expr.resolve_scopes]
  | .conditional condition thenBranch (some elseBranch), walk => by
      rw [Stmt.resolve, Stmt.resolve_depth around elseBranch, Stmt.resolve_depth around thenBranch,
        Expr.resolve_scopes]
  | .loop condition body, walk => by
      rw [Stmt.resolve, Stmt.resolve_depth around body, Expr.resolve_scopes]
  | .function routine, walk => by
      rw [Stmt.resolve, Routine.resolve_depth _ routine, named_depth]
  | .returns keyword value, walk => by
      rw [Stmt.resolve, Expr.resolve?_scopes, reportIf_scopes, reportIf_scopes]
  | .classDecl name superclass methods, walk => by
      rw [Stmt.resolve]
      refine leaveClass_depth superclass ?_
      rw [Routine.resolveMethods_depth, enterClass_scopes, Expr.resolve?_scopes,
        checkInheritance_scopes]
      cases superclass with
      | none => exact congrArg (· + 1) (named_depth walk name)
      | some _ => exact congrArg (· + 2) (named_depth walk name)

theorem Stmt.resolveAll_depth (around : Surroundings) : ∀ (stmts : List Stmt) (walk : Walk),
    (Stmt.resolveAll around stmts walk).scopes.length = walk.scopes.length
  | [], _ => rfl
  | stmt :: rest, walk =>
      (Stmt.resolveAll_depth around rest _).trans (Stmt.resolve_depth around stmt walk)

theorem Routine.resolve_depth (around : Surroundings) : ∀ (routine : Routine) (walk : Walk),
    (routine.resolve around walk).scopes.length = walk.scopes.length
  | .mk _ parameters body, walk => by
      rw [Routine.resolve, leave, List.length_tail, Stmt.resolveAll_depth around body,
        declareAll_depth]
      rfl

theorem Routine.resolveMethods_depth (inside : ClassKind) :
    ∀ (methods : List Routine) (walk : Walk),
      (Routine.resolveMethods inside methods walk).scopes.length = walk.scopes.length
  | [], _ => rfl
  | method :: rest, walk =>
      (Routine.resolveMethods_depth inside rest _).trans (Routine.resolve_depth _ method walk)
end

end Lox
