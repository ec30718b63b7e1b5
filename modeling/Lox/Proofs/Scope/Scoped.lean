import Lox.Proofs.Tree.Proper
import Lox.Proofs.Table
/-! What it means that code keeps the scope rules at a place. The scopes around the
place are given as the walk keeps them, the innermost first; what is recorded for
the occurrences is given as a relation, so that nothing has to be known of a table. -/

namespace Lox

/-! ## Chains of scopes -/

namespace Scope

/-- The nearest declaration of a name: its distance and its state. -/
def locate? : List Scope → String → Option (Nat × NameState)
  | [], _ => none
  | scope :: outer, name =>
      match scope.find? name with
      | some state => some (0, state)
      | none => (locate? outer name).map fun found => (found.1 + 1, found.2)

def distance? (scopes : List Scope) (name : String) : Option Nat :=
  (locate? scopes name).map Prod.fst

/-- The innermost scope binds a name; at the top level there is none. -/
def bindIn (scopes : List Scope) (name : String) (state : NameState) : List Scope :=
  match scopes with
  | [] => []
  | scope :: outer => scope.set name state :: outer

/-- The innermost scope does not declare the name yet. -/
def Free (scopes : List Scope) (name : String) : Prop :=
  ∀ scope ∈ scopes.head?, scope.find? name = none

/-- No variable is left without its value. -/
def Settled (scopes : List Scope) : Prop :=
  ∀ name distance, locate? scopes name ≠ some (distance, .declared)

/-- The scope of a method's receiver, and around it that of its superclass. -/
def receiver : Scope :=
  (∅ : Scope).set thisName .ready

def inherited : Scope :=
  (∅ : Scope).set superName .ready

def ofClass (scopes : List Scope) (superclass : Option Expr) : List Scope :=
  receiver :: if superclass.isSome then inherited :: scopes else scopes

def ofParameters (parameters : List Token) : Scope :=
  parameters.foldl (fun scope name => scope.set name.lexeme .ready) ∅

/-- The receiver is this far away. -/
def Receives (scopes : List Scope) (distance : Nat) : Prop :=
  locate? scopes thisName = some (distance, .ready)

/-- The receiver is this far away, and the superclass just outside of it. -/
def Inherits (scopes : List Scope) (distance : Nat) : Prop :=
  Receives scopes distance ∧ locate? scopes superName = some (distance + 1, .ready)

theorem locate?_enter (scopes : List Scope) (name : String) :
    locate? (∅ :: scopes) name = (locate? scopes name).map fun found => (found.1 + 1, found.2) :=
  rfl

theorem locate?_bindIn_same {scope : Scope} {outer : List Scope} (name : String)
    (state : NameState) : locate? (bindIn (scope :: outer) name state) name = some (0, state) := by
  simp [bindIn, locate?]

theorem locate?_bindIn_other (scopes : List Scope) {name other : String}
    (different : other ≠ name) (state : NameState) :
    locate? (bindIn scopes name state) other = locate? scopes other := by
  cases scopes with
  | nil => rfl
  | cons scope outer => simp [bindIn, locate?, Table.find?_set_other scope different]

/-- The walk looks for distances in the same way. -/
theorem findIdx?_contains (scopes : List Scope) (name : String) :
    scopes.findIdx? (·.contains name) = distance? scopes name := by
  induction scopes with
  | nil => rfl
  | cons scope outer induction =>
      rw [List.findIdx?_cons, induction, distance?, distance?, locate?, Table.contains_eq]
      cases scope.find? name with
      | some state => rfl
      | none => simp [Function.comp_def]

theorem bindIn_bindIn (scopes : List Scope) (name : String) (first second : NameState) :
    bindIn (bindIn scopes name first) name second = bindIn scopes name second := by
  cases scopes with
  | nil => rfl
  | cons scope outer => simp [bindIn, Table.set_set]

/-! ### Settled scopes -/

theorem settled_nil : Settled [] := nofun

theorem Settled.enter {scopes : List Scope} (settled : Settled scopes) : Settled (∅ :: scopes) := by
  intro name distance found
  rw [locate?_enter, Option.map_eq_some_iff] at found
  rcases found with ⟨⟨outer, state⟩, found, equal⟩
  cases equal
  exact settled name outer found

theorem Settled.bindIn {scopes : List Scope} (settled : Settled scopes) (name : String) :
    Settled (bindIn scopes name .ready) := by
  intro other distance found
  by_cases equal : other = name
  · subst equal
    cases scopes with
    | nil => cases found
    | cons scope outer =>
        rw [locate?_bindIn_same] at found
        cases found
  · rw [locate?_bindIn_other scopes equal] at found
    exact settled other distance found

theorem Settled.parameters {scope : Scope} {scopes : List Scope} (settled : Settled (scope :: scopes))
    (names : List Token) : Settled
      (names.foldl (fun scope name => scope.set name.lexeme .ready) scope :: scopes) := by
  induction names generalizing scope with
  | nil => exact settled
  | cons name names induction => exact induction (settled.bindIn name.lexeme)

/-! ### Receivers -/

variable {scopes : List Scope} {distance : Nat}

theorem locate?_receiver (outer : List Scope) :
    locate? (receiver :: outer) thisName = some (0, .ready) := by
  simp [receiver, locate?]

theorem Receives.enter (receives : Receives scopes distance) :
    Receives (∅ :: scopes) (distance + 1) := by
  rw [Receives, locate?_enter, receives]
  rfl

theorem Receives.bindIn (receives : Receives scopes distance) {name : Token}
    (ordinary : name.Ordinary) (state : NameState) :
    Receives (bindIn scopes name.lexeme state) distance := by
  rw [Receives, locate?_bindIn_other scopes ordinary.notThis.symm]
  exact receives

theorem Inherits.enter (inherits : Inherits scopes distance) :
    Inherits (∅ :: scopes) (distance + 1) := by
  refine ⟨inherits.1.enter, ?_⟩
  rw [locate?_enter, inherits.2]
  rfl

theorem Inherits.bindIn (inherits : Inherits scopes distance) {name : Token}
    (ordinary : name.Ordinary) (state : NameState) :
    Inherits (bindIn scopes name.lexeme state) distance := by
  refine ⟨inherits.1.bindIn ordinary state, ?_⟩
  rw [locate?_bindIn_other scopes ordinary.notSuper.symm]
  exact inherits.2

end Scope

/-! ## Code that keeps the rules -/

open Scope

/-- The name can be declared here. -/
structure Declarable (scopes : List Scope) (name : Token) : Prop where
  ordinary : name.Ordinary
  free : Free scopes name.lexeme

section

variable (recorded : OccurrenceId → Option Nat → Prop)

mutual
def Expr.Scoped (scopes : List Scope) : Expr → Prop
  | .literal _ => True
  | .group inner => inner.Scoped scopes
  | .unary _ right => right.Scoped scopes
  | .binary left _ right => left.Scoped scopes ∧ right.Scoped scopes
  | .logical left _ right => left.Scoped scopes ∧ right.Scoped scopes
  | .read id name =>
      recorded id (distance? scopes name.lexeme) ∧
        ∀ distance, locate? scopes name.lexeme ≠ some (distance, .declared)
  | .assign id name value =>
      name.Ordinary ∧ value.Scoped scopes ∧ recorded id (distance? scopes name.lexeme)
  | .call callee _ arguments => callee.Scoped scopes ∧ Expr.AllScoped scopes arguments
  | .get object _ => object.Scoped scopes
  | .set object _ value => object.Scoped scopes ∧ value.Scoped scopes
  | .this id keyword =>
      keyword.lexeme = thisName ∧ ∃ distance, Receives scopes distance ∧ recorded id (some distance)
  | .super id keyword _ =>
      keyword.lexeme = superName ∧
        ∃ distance, Inherits scopes distance ∧ recorded id (some (distance + 1))

def Expr.AllScoped (scopes : List Scope) : List Expr → Prop
  | [] => True
  | expr :: rest => expr.Scoped scopes ∧ Expr.AllScoped scopes rest
end

def Expr.Scoped? (scopes : List Scope) : Option Expr → Prop
  | none => True
  | some expr => expr.Scoped recorded scopes

/-- The scopes around what follows a statement. -/
def Stmt.scopesAfter (scopes : List Scope) : Stmt → List Scope
  | .var name _ => bindIn scopes name.lexeme .ready
  | .function routine => bindIn scopes routine.name.lexeme .ready
  | .classDecl name _ _ => bindIn scopes name.lexeme .ready
  | _ => scopes

mutual
def Stmt.Scoped (scopes : List Scope) : Stmt → Prop
  | .expression expr => expr.Scoped recorded scopes
  | .print expr => expr.Scoped recorded scopes
  | .var name initial =>
      Declarable scopes name ∧
        Expr.Scoped? recorded (bindIn scopes name.lexeme .declared) initial
  | .block body => Stmt.AllScoped (∅ :: scopes) body
  | .conditional condition thenBranch none =>
      condition.Scoped recorded scopes ∧ thenBranch.Scoped scopes ∧
        thenBranch.isDeclaration = false
  | .conditional condition thenBranch (some elseBranch) =>
      condition.Scoped recorded scopes ∧
        (thenBranch.Scoped scopes ∧ thenBranch.isDeclaration = false) ∧
        elseBranch.Scoped scopes ∧ elseBranch.isDeclaration = false
  | .loop condition body =>
      condition.Scoped recorded scopes ∧ body.Scoped scopes ∧ body.isDeclaration = false
  | .function routine =>
      Declarable scopes routine.name ∧
        routine.Scoped (bindIn scopes routine.name.lexeme .ready)
  | .returns _ value => Expr.Scoped? recorded scopes value
  | .classDecl name superclass methods =>
      Declarable scopes name ∧ Expr.Scoped? recorded scopes superclass ∧
        Routine.AllScoped (ofClass (bindIn scopes name.lexeme .ready) superclass) methods

def Stmt.AllScoped (scopes : List Scope) : List Stmt → Prop
  | [] => True
  | stmt :: rest => stmt.Scoped scopes ∧ Stmt.AllScoped (stmt.scopesAfter scopes) rest

def Routine.Scoped (scopes : List Scope) : Routine → Prop
  | .mk _ parameters body =>
      Settled scopes ∧ (∀ parameter ∈ parameters, parameter.Ordinary) ∧
        (parameters.map Token.lexeme).Nodup ∧ Stmt.AllScoped (ofParameters parameters :: scopes) body

def Routine.AllScoped (scopes : List Scope) : List Routine → Prop
  | [] => True
  | method :: rest => method.Scoped scopes ∧ Routine.AllScoped scopes rest
end

end

theorem Routine.allScoped_mem {recorded : OccurrenceId → Option Nat → Prop} {scopes : List Scope}
    {methods : List Routine} (holds : Routine.AllScoped recorded scopes methods) :
    ∀ method ∈ methods, method.Scoped recorded scopes := by
  induction methods with
  | nil => nofun
  | cons first rest induction =>
      intro method member
      cases member with
      | head => exact holds.1
      | tail _ member => exact induction holds.2 method member

/-! ## More is recorded

Code that keeps the rules keeps them when further occurrences are recorded. -/

section

variable {recorded later : OccurrenceId → Option Nat → Prop}

mutual
theorem Expr.scoped_mono {scopes : List Scope}
    (kept : ∀ id distance?, recorded id distance? → later id distance?) :
    ∀ expr : Expr, expr.Scoped recorded scopes → expr.Scoped later scopes
  | .literal _, _ => trivial
  | .group inner, holds => Expr.scoped_mono kept inner holds
  | .unary _ right, holds => Expr.scoped_mono kept right holds
  | .binary left _ right, ⟨first, second⟩ =>
      ⟨Expr.scoped_mono kept left first, Expr.scoped_mono kept right second⟩
  | .logical left _ right, ⟨first, second⟩ =>
      ⟨Expr.scoped_mono kept left first, Expr.scoped_mono kept right second⟩
  | .read _ _, ⟨known, ready⟩ => ⟨kept _ _ known, ready⟩
  | .assign _ _ value, ⟨ordinary, holds, known⟩ =>
      ⟨ordinary, Expr.scoped_mono kept value holds, kept _ _ known⟩
  | .call callee _ arguments, ⟨first, second⟩ =>
      ⟨Expr.scoped_mono kept callee first, Expr.allScoped_mono kept arguments second⟩
  | .get object _, holds => Expr.scoped_mono kept object holds
  | .set object _ value, ⟨first, second⟩ =>
      ⟨Expr.scoped_mono kept object first, Expr.scoped_mono kept value second⟩
  | .this _ _, ⟨spelled, distance, receives, known⟩ =>
      ⟨spelled, distance, receives, kept _ _ known⟩
  | .super _ _ _, ⟨spelled, distance, inherits, known⟩ =>
      ⟨spelled, distance, inherits, kept _ _ known⟩

theorem Expr.allScoped_mono {scopes : List Scope}
    (kept : ∀ id distance?, recorded id distance? → later id distance?) :
    ∀ exprs : List Expr, Expr.AllScoped recorded scopes exprs → Expr.AllScoped later scopes exprs
  | [], _ => trivial
  | expr :: rest, ⟨first, others⟩ =>
      ⟨Expr.scoped_mono kept expr first, Expr.allScoped_mono kept rest others⟩
end

theorem Expr.scoped?_mono {scopes : List Scope}
    (kept : ∀ id distance?, recorded id distance? → later id distance?) :
    ∀ expr? : Option Expr, Expr.Scoped? recorded scopes expr? → Expr.Scoped? later scopes expr?
  | none, _ => trivial
  | some expr, holds => Expr.scoped_mono kept expr holds

mutual
theorem Stmt.scoped_mono {scopes : List Scope}
    (kept : ∀ id distance?, recorded id distance? → later id distance?) :
    ∀ stmt : Stmt, stmt.Scoped recorded scopes → stmt.Scoped later scopes
  | .expression expr, holds => Expr.scoped_mono kept expr holds
  | .print expr, holds => Expr.scoped_mono kept expr holds
  | .var _ initial, ⟨declarable, holds⟩ => ⟨declarable, Expr.scoped?_mono kept initial holds⟩
  | .block body, holds => Stmt.allScoped_mono kept body holds
  | .conditional condition thenBranch none, ⟨tests, holds, governed⟩ =>
      ⟨Expr.scoped_mono kept condition tests, Stmt.scoped_mono kept thenBranch holds, governed⟩
  | .conditional condition thenBranch (some elseBranch), ⟨tests, first, second⟩ =>
      ⟨Expr.scoped_mono kept condition tests,
        ⟨Stmt.scoped_mono kept thenBranch first.1, first.2⟩,
        Stmt.scoped_mono kept elseBranch second.1, second.2⟩
  | .loop condition body, ⟨tests, holds, governed⟩ =>
      ⟨Expr.scoped_mono kept condition tests, Stmt.scoped_mono kept body holds, governed⟩
  | .function routine, ⟨declarable, holds⟩ => ⟨declarable, Routine.scoped_mono kept routine holds⟩
  | .returns _ value, holds => Expr.scoped?_mono kept value holds
  | .classDecl _ superclass methods, ⟨declarable, inherits, holds⟩ =>
      ⟨declarable, Expr.scoped?_mono kept superclass inherits,
        Routine.allScoped_mono kept methods holds⟩

theorem Stmt.allScoped_mono {scopes : List Scope}
    (kept : ∀ id distance?, recorded id distance? → later id distance?) :
    ∀ stmts : List Stmt, Stmt.AllScoped recorded scopes stmts → Stmt.AllScoped later scopes stmts
  | [], _ => trivial
  | stmt :: rest, ⟨first, others⟩ =>
      ⟨Stmt.scoped_mono kept stmt first, Stmt.allScoped_mono kept rest others⟩

theorem Routine.scoped_mono {scopes : List Scope}
    (kept : ∀ id distance?, recorded id distance? → later id distance?) :
    ∀ routine : Routine, routine.Scoped recorded scopes → routine.Scoped later scopes
  | .mk _ _ body, ⟨settled, ordinary, distinct, holds⟩ =>
      ⟨settled, ordinary, distinct, Stmt.allScoped_mono kept body holds⟩

theorem Routine.allScoped_mono {scopes : List Scope}
    (kept : ∀ id distance?, recorded id distance? → later id distance?) :
    ∀ methods : List Routine, Routine.AllScoped recorded scopes methods →
      Routine.AllScoped later scopes methods
  | [], _ => trivial
  | method :: rest, ⟨first, others⟩ =>
      ⟨Routine.scoped_mono kept method first, Routine.allScoped_mono kept rest others⟩
end

end

end Lox
