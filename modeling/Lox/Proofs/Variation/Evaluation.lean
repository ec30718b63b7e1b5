import Lox.Proofs.Variation.Machine
/-! Running a program and a variant of it. On machines that vary each other they do the same:
they yield the same values, write the same, and end with the same faults at the same places. -/

namespace Lox

open Run

variable {variation : Variation}

/-! ## Operators and classes -/

section

variable {operator operator' : Token} (same : variation.tokens operator operator')

include same

theorem applyUnary_varies (operand : Value) :
    applyUnary operator' operand = applyUnary operator operand := by
  rw [applyUnary.eq_def, applyUnary.eq_def, variation.kind same]

theorem applyArithmetic_varies (left right : Float) :
    applyArithmetic operator' left right = applyArithmetic operator left right := by
  rw [applyArithmetic.eq_def, applyArithmetic.eq_def, variation.kind same, variation.lexeme same]

theorem applyBinary_varies (left right : Value) :
    applyBinary operator' left right = applyBinary operator left right := by
  have arithmetic := applyArithmetic_varies same
  rw [applyBinary.eq_def, applyBinary.eq_def operator, variation.kind same]
  simp only [arithmetic]

theorem decides_varies (left : Value) : decides operator' left = decides operator left := by
  rw [decides.eq_def, decides.eq_def operator, variation.kind same]

end

theorem superclassBlame_varies {name name' : Token} (same : variation.tokens name name')
    {superclass superclass' : Expr} (inherits : superclass.Varies variation superclass') :
    variation.tokens (superclassBlame name superclass) (superclassBlame name' superclass') := by
  cases inherits with
  | read _ spelled => exact spelled
  | _ => exact same

/-- The methods of a class body, in its place. -/
theorem Routine.AllVary.methodTable {methods methods' : List Routine}
    (vary : Routine.AllVary variation methods methods') (frame : FrameId) :
    TablesAlike (Closure.Varies variation) (methodTable frame methods)
      (methodTable frame methods') := by
  refine methodTable_alike frame frame ?_
  induction methods generalizing methods' with
  | nil =>
      cases vary
      exact .nil
  | cons method rest induction =>
      cases vary with
      | cons first others =>
          refine .cons ⟨first.name, first, rfl, ?_⟩ (induction others)
          rw [first.name]

namespace Run

/-- Bind the name, make the class, and write it to the name. -/
theorem varies_declareClass {name name' : Token} (same : variation.tokens name name')
    (superclass : Option ClassId) {methods methods' : List Routine}
    (vary : Routine.AllVary variation methods methods') :
    (declareClass name superclass methods).Varies variation Eq
      (declareClass name' superclass methods') := by
  have finish (frame : FrameId) :
      (do
        let value ← newClass ⟨name.lexeme, superclass, methodTable frame methods⟩
        storeByName name value : Run Unit).Varies variation Eq (do
          let value ← newClass ⟨name.lexeme, superclass, methodTable frame methods'⟩
          storeByName name' value) := by
    have made : ClassInfo.Varies variation ⟨name.lexeme, superclass, methodTable frame methods⟩
        ⟨name.lexeme, superclass, methodTable frame methods'⟩ :=
      ⟨rfl, rfl, vary.methodTable frame⟩
    exact (varies_newClass made).same fun value => varies_storeByName same value
  rw [declareClass, declareClass, variation.lexeme same]
  refine (varies_define name.lexeme .nil).same fun _ =>
    varies_get fun machine machine' varies => ?_
  dsimp only
  rw [varies.current]
  cases superclass with
  | none => exact finish machine.current
  | some id =>
      refine (varies_newFrame machine.current).same fun frame =>
        (varies_modify fun _ _ varies => ?_).same fun _ => finish frame
      exact varies.define frame superName (.classRef id)

theorem varies_readSuperMethod {id id' : OccurrenceId} (ids : variation.ids id id')
    {keyword keyword' method method' : Token} (same : variation.tokens keyword keyword')
    (named : variation.tokens method method') :
    (readSuperMethod id keyword method).Varies variation Eq
      (readSuperMethod id' keyword' method') := by
  refine varies_get fun machine machine' varies => ?_
  rw [← varies.distances id id' ids, varies.forest, varies.current, variation.lexeme same,
    variation.lexeme named]
  cases machine.distances.find? id with
  | none => exact varies_fault _ same
  | some distance =>
      refine (varies_ofExcept _ same).same fun parent => ?_
      cases parent with
      | classRef superclass =>
          refine (varies_ofExcept _ same).same fun receiver => ?_
          cases receiver with
          | object receiver =>
              have entry := varies.method? superclass method.lexeme
              dsimp only
              revert entry
              generalize machine.method? superclass method.lexeme = method?
              generalize machine'.method? superclass method.lexeme = method?'
              rintro (found | _)
              · exact varies_newMethod found receiver
              · exact varies_fault _ named
          | _ => exact varies_fault _ same
      | _ => exact varies_fault _ same

end Run

/-! ## With a given fuel -/

/-- With this fuel, code and variants of it do the same. -/
structure Imitates (variation : Variation) (fuel : Nat) : Prop where
  evaluate : ∀ {expr expr'}, expr.Varies variation expr' →
    (evaluate fuel expr).Varies variation Eq (evaluate fuel expr')
  evaluateAll : ∀ {exprs exprs'}, Expr.AllVary variation exprs exprs' →
    (evaluateAll fuel exprs).Varies variation Eq (evaluateAll fuel exprs')
  call : ∀ callee {paren paren'}, variation.tokens paren paren' → ∀ arguments,
    (call fuel callee paren arguments).Varies variation Eq (call fuel callee paren' arguments)
  invoke : ∀ {closure closure'}, Closure.Varies variation closure closure' → ∀ arguments,
    (invoke fuel closure arguments).Varies variation Eq (invoke fuel closure' arguments)
  instantiate : ∀ id arguments,
    (instantiate fuel id arguments).Varies variation Eq (instantiate fuel id arguments)
  execute : ∀ {stmt stmt'}, stmt.Varies variation stmt' →
    (execute fuel stmt).Varies variation Eq (execute fuel stmt')
  executeAll : ∀ {stmts stmts'}, Stmt.AllVary variation stmts stmts' →
    (executeAll fuel stmts).Varies variation Eq (executeAll fuel stmts')

namespace Imitates

variable {fuel : Nat}

theorem zero : Imitates variation 0 where
  evaluate _ := varies_exhausted
  evaluateAll _ := varies_exhausted
  call _ _ _ _ _ := varies_exhausted
  invoke _ _ := varies_exhausted
  instantiate _ _ := varies_exhausted
  execute _ := varies_exhausted
  executeAll _ := varies_exhausted

variable (imitates : Imitates variation fuel)

include imitates

theorem evaluate_succ {expr expr' : Expr} (varies : expr.Varies variation expr') :
    (Lox.evaluate (fuel + 1) expr).Varies variation Eq (Lox.evaluate (fuel + 1) expr') := by
  cases varies with
  | literal => exact varies_pure rfl
  | group inner => exact imitates.evaluate inner
  | unary same right =>
      refine (imitates.evaluate right).same fun operand => ?_
      rw [applyUnary_varies same]
      exact varies_ofExcept _ same
  | binary left same right =>
      refine (imitates.evaluate left).same fun first => (imitates.evaluate right).same fun second => ?_
      rw [applyBinary_varies same]
      exact varies_ofExcept _ same
  | logical left same right =>
      refine (imitates.evaluate left).same fun first => ?_
      rw [decides_varies same]
      split
      · exact varies_pure rfl
      · exact imitates.evaluate right
  | read ids same => exact varies_lookUp ids same
  | assign ids same value =>
      exact (imitates.evaluate value).same fun value =>
        (varies_store ids same value).same fun _ => varies_pure rfl
  | call callee same arguments =>
      exact (imitates.evaluate callee).same fun callee =>
        (imitates.evaluateAll arguments).same fun arguments => imitates.call callee same arguments
  | get object same =>
      refine (imitates.evaluate object).same fun object => ?_
      cases object with
      | object id => exact varies_property id same
      | _ => exact varies_fault _ same
  | set object same value =>
      refine (imitates.evaluate object).same fun object => ?_
      cases object with
      | object id =>
          refine (imitates.evaluate value).same fun value =>
            (varies_modify fun _ _ varies => ?_).same fun _ => varies_pure rfl
          rw [variation.lexeme same]
          exact varies.onObjects (·.modify id fun object =>
            { object with fields := object.fields.set _ value })
      | _ => exact varies_fault _ same
  | this ids same => exact varies_lookUp ids same
  | super ids same method => exact varies_readSuperMethod ids same method

theorem evaluateAll_succ {exprs exprs' : List Expr} (vary : Expr.AllVary variation exprs exprs') :
    (Lox.evaluateAll (fuel + 1) exprs).Varies variation Eq (Lox.evaluateAll (fuel + 1) exprs') := by
  cases vary with
  | nil => exact varies_pure rfl
  | cons first rest =>
      exact (imitates.evaluate first).same fun _ =>
        (imitates.evaluateAll rest).same fun _ => varies_pure rfl

theorem call_succ (callee : Value) {paren paren' : Token} (same : variation.tokens paren paren')
    (arguments : List Value) :
    (Lox.call (fuel + 1) callee paren arguments).Varies variation Eq
      (Lox.call (fuel + 1) callee paren' arguments) := by
  refine varies_get fun machine machine' varies => ?_
  rw [varies.arity?]
  cases machine.arity? callee with
  | none => exact varies_fault _ same
  | some arity =>
      dsimp only
      split
      · exact varies_fault _ same
      · cases callee with
        | native native =>
            cases native with
            | clock => exact varies_readClock
        | function id =>
            refine varies_get fun machine machine' varies => ?_
            have entry := varies.functions.entries id
            revert entry
            generalize machine.functions[id]? = closure?
            generalize machine'.functions[id]? = closure?'
            rintro (closure | _)
            · exact imitates.invoke closure arguments
            · exact varies_fault _ same
        | classRef id => exact imitates.instantiate id arguments
        | _ => exact varies_fault _ same

theorem invoke_succ {closure closure' : Closure FrameId} (same : closure.Varies variation closure')
    (arguments : List Value) :
    (Lox.invoke (fuel + 1) closure arguments).Varies variation Eq
      (Lox.invoke (fuel + 1) closure' arguments) := by
  rw [Lox.invoke, Lox.invoke, same.place, same.isInitializer, same.routine.parameters]
  refine (varies_newFrame closure.place).same fun frame =>
    (varies_modify fun _ _ varies => ?_).same fun _ =>
      ((imitates.executeAll same.routine.body).inside frame).same fun flow => ?_
  · exact varies.withForest (·.defineAll frame _)
  · split
    · refine varies_get fun machine machine' varies => ?_
      rw [varies.forest]
      exact varies_pure rfl
    · cases flow <;> exact varies_pure rfl

theorem instantiate_succ (id : ClassId) (arguments : List Value) :
    (Lox.instantiate (fuel + 1) id arguments).Varies variation Eq
      (Lox.instantiate (fuel + 1) id arguments) := by
  refine (varies_newObject id).same fun object => varies_get fun machine machine' varies => ?_
  have entry := varies.method? id initializerName
  revert entry
  generalize machine.method? id initializerName = method?
  generalize machine'.method? id initializerName = method?'
  rintro (initializer | _)
  · refine (varies_bind initializer object).bind fun bound bound' same => ?_
    exact (imitates.invoke same arguments).same fun _ => varies_pure rfl
  · exact varies_pure rfl

theorem execute_succ {stmt stmt' : Stmt} (varies : stmt.Varies variation stmt') :
    (Lox.execute (fuel + 1) stmt).Varies variation Eq (Lox.execute (fuel + 1) stmt') := by
  cases varies with
  | expression expr => exact (imitates.evaluate expr).same fun _ => varies_pure rfl
  | print expr =>
      exact (imitates.evaluate expr).same fun value =>
        (varies_print value).same fun _ => varies_pure rfl
  | var same initial =>
      cases initial with
      | none =>
          rw [Lox.execute, Lox.execute, variation.lexeme same]
          exact (varies_define _ .nil).same fun _ => varies_pure rfl
      | some initial =>
          rw [Lox.execute, Lox.execute, variation.lexeme same]
          exact (imitates.evaluate initial).same fun value =>
            (varies_define _ value).same fun _ => varies_pure rfl
  | block body =>
      refine varies_get fun machine machine' varies => ?_
      rw [varies.current]
      exact (varies_newFrame machine.current).same fun frame =>
        (imitates.executeAll body).inside frame
  | conditional condition thenBranch =>
      refine (imitates.evaluate condition).same fun value => ?_
      split
      · exact imitates.execute thenBranch
      · exact varies_pure rfl
  | conditionalElse condition thenBranch elseBranch =>
      refine (imitates.evaluate condition).same fun value => ?_
      split
      · exact imitates.execute thenBranch
      · exact imitates.execute elseBranch
  | loop condition body =>
      refine (imitates.evaluate condition).same fun value => ?_
      split
      · refine (imitates.execute body).same fun flow => ?_
        cases flow with
        | returned value => exact varies_pure rfl
        | normal => exact imitates.execute (.loop condition body)
      · exact varies_pure rfl
  | function routine =>
      rename_i declared declared'
      refine varies_get fun machine machine' varies => ?_
      have made : Closure.Varies variation ⟨declared, machine.current, false⟩
          ⟨declared', machine.current, false⟩ := ⟨routine, rfl, rfl⟩
      rw [varies.current, routine.name]
      exact (varies_newFunction made).same fun value =>
        (varies_define _ value).same fun _ => varies_pure rfl
  | returns _ value =>
      cases value with
      | none => exact varies_pure rfl
      | some value => exact (imitates.evaluate value).same fun _ => varies_pure rfl
  | classDecl same inherits methods =>
      cases inherits with
      | none => exact (varies_declareClass same none methods).same fun _ => varies_pure rfl
      | some inherits =>
          refine (imitates.evaluate inherits).same fun parent => ?_
          cases parent with
          | classRef id =>
              exact (varies_declareClass same (some id) methods).same fun _ => varies_pure rfl
          | _ => exact varies_fault _ (superclassBlame_varies same inherits)

theorem executeAll_succ {stmts stmts' : List Stmt} (vary : Stmt.AllVary variation stmts stmts') :
    (Lox.executeAll (fuel + 1) stmts).Varies variation Eq (Lox.executeAll (fuel + 1) stmts') := by
  cases vary with
  | nil => exact varies_pure rfl
  | cons first rest =>
      refine (imitates.execute first).same fun flow => ?_
      cases flow with
      | returned value => exact varies_pure rfl
      | normal => exact imitates.executeAll rest

end Imitates

/-! ## With any fuel -/

theorem imitates (variation : Variation) (fuel : Nat) : Imitates variation fuel := by
  induction fuel with
  | zero => exact .zero
  | succ fuel induction =>
      exact {
        evaluate := induction.evaluate_succ
        evaluateAll := induction.evaluateAll_succ
        call := fun callee _ _ => induction.call_succ callee
        invoke := induction.invoke_succ
        instantiate := induction.instantiate_succ
        execute := induction.execute_succ
        executeAll := induction.executeAll_succ }

/-- A program and a variant of it do the same. -/
theorem executeProgram_varies (fuel : Nat) {stmts stmts' : List Stmt}
    (vary : Stmt.AllVary variation stmts stmts') :
    (executeProgram fuel stmts).Varies variation Eq (executeProgram fuel stmts') := by
  induction stmts generalizing stmts' with
  | nil =>
      cases vary
      exact varies_flush
  | cons stmt rest induction =>
      cases vary with
      | cons first others =>
          exact ((imitates variation fuel).execute first).same fun _ => induction others

end Lox
