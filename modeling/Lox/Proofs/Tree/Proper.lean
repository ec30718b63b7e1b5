import Lox.Proofs.Grammar.Derivation
import Lox.Proofs.Source.Spelling
import Lox.Scope
/-! What the tree of a source looks like beyond its shape: no name is one of the two
that classes declare by themselves, a superclass is a name, and what a conditional or
a loop governs is no declaration. -/

namespace Lox

/-- A name that a program can declare. -/
structure Token.Ordinary (name : Token) : Prop where
  notThis : name.lexeme ≠ thisName
  notSuper : name.lexeme ≠ superName

/-- Does the statement bind a name? -/
def Stmt.isDeclaration : Stmt → Bool
  | .var _ _ | .function _ | .classDecl _ _ _ => true
  | _ => false

mutual
def Expr.Proper : Expr → Prop
  | .literal _ => True
  | .group inner => inner.Proper
  | .unary _ right => right.Proper
  | .binary left _ right => left.Proper ∧ right.Proper
  | .logical left _ right => left.Proper ∧ right.Proper
  | .read _ name => name.Ordinary
  | .assign _ name value => name.Ordinary ∧ value.Proper
  | .call callee _ arguments => callee.Proper ∧ Expr.AllProper arguments
  | .get object _ => object.Proper
  | .set object _ value => object.Proper ∧ value.Proper
  | .this _ keyword => keyword.lexeme = thisName
  | .super _ keyword _ => keyword.lexeme = superName

def Expr.AllProper : List Expr → Prop
  | [] => True
  | expr :: rest => expr.Proper ∧ Expr.AllProper rest
end

def Expr.Proper? : Option Expr → Prop
  | none => True
  | some expr => expr.Proper

/-- A superclass is given by its name. -/
def ProperSuperclass : Option Expr → Prop
  | none => True
  | some (.read _ name) => name.Ordinary
  | some _ => False

mutual
def Stmt.Proper : Stmt → Prop
  | .expression expr => expr.Proper
  | .print expr => expr.Proper
  | .var name initial => name.Ordinary ∧ Expr.Proper? initial
  | .block body => Stmt.AllProper body
  | .conditional condition thenBranch none =>
      condition.Proper ∧ thenBranch.Proper ∧ thenBranch.isDeclaration = false
  | .conditional condition thenBranch (some elseBranch) =>
      condition.Proper ∧ (thenBranch.Proper ∧ thenBranch.isDeclaration = false) ∧
        elseBranch.Proper ∧ elseBranch.isDeclaration = false
  | .loop condition body => condition.Proper ∧ body.Proper ∧ body.isDeclaration = false
  | .function routine => routine.Proper
  | .returns _ value => Expr.Proper? value
  | .classDecl name superclass methods =>
      name.Ordinary ∧ ProperSuperclass superclass ∧ Routine.AllProper methods

def Stmt.AllProper : List Stmt → Prop
  | [] => True
  | stmt :: rest => stmt.Proper ∧ Stmt.AllProper rest

def Routine.Proper : Routine → Prop
  | .mk name parameters body =>
      name.Ordinary ∧ (∀ parameter ∈ parameters, parameter.Ordinary) ∧ Stmt.AllProper body

def Routine.AllProper : List Routine → Prop
  | [] => True
  | method :: rest => method.Proper ∧ Routine.AllProper rest
end

/-! ## Trees of the grammar -/

theorem Token.Spelled.ordinary {name : Token} (spelled : name.Spelled)
    (kind : name.kind = .identifier) : name.Ordinary := by
  have free := spelled.name kind
  constructor
  · intro equal
    rw [equal] at free
    exact absurd free (by decide)
  · intro equal
    rw [equal] at free
    exact absurd free (by decide)

/-- The words of these tokens are spelled like their kinds. -/
def AllSpelled (tokens : List Token) : Prop :=
  ∀ token ∈ tokens, token.Spelled

namespace AllSpelled

variable {token : Token} {left right : List Token}

@[simp] theorem cons_iff : AllSpelled (token :: right) ↔ token.Spelled ∧ AllSpelled right :=
  List.forall_mem_cons

@[simp] theorem append_iff : AllSpelled (left ++ right) ↔ AllSpelled left ∧ AllSpelled right :=
  List.forall_mem_append

end AllSpelled

namespace Grammar

theorem node_proper (level : Precedence) (left right : Expr) (operator : Token) :
    ((tier level).node left operator right).Proper ↔ left.Proper ∧ right.Proper := by
  cases level <;> simp [tier, Expr.Proper]

theorem Derives.proper {form tokens first tree next}
    (derived : Derives form tokens first tree next) : AllSpelled tokens → tree.Proper := by
  induction derived using Derives.rec (motive_2 := fun tokens _ arguments _ _ =>
    AllSpelled tokens → Expr.AllProper arguments) with
  | operation _ induction | operand _ induction | unsigned _ induction
  | unapplied _ induction => exact induction
  | unary _ _ induction =>
      intro spelled
      exact induction (AllSpelled.cons_iff.mp spelled).2
  | assign kind _ _ induction =>
      intro spelled
      simp only [AllSpelled.cons_iff] at spelled
      exact ⟨spelled.1.ordinary kind, induction spelled.2.2⟩
  | set _ _ _ _ _ objectInduction induction =>
      intro spelled
      simp only [AllSpelled.append_iff, AllSpelled.cons_iff] at spelled
      exact ⟨objectInduction spelled.1, induction spelled.2.2.2.2⟩
  | combine _ _ _ leftInduction rightInduction =>
      intro spelled
      simp only [AllSpelled.append_iff, AllSpelled.cons_iff] at spelled
      exact (node_proper _ _ _ _).mpr ⟨leftInduction spelled.1, rightInduction spelled.2.2⟩
  | callEmpty _ _ _ induction =>
      intro spelled
      exact ⟨induction (AllSpelled.append_iff.mp spelled).1, trivial⟩
  | call _ _ _ _ _ calleeInduction induction =>
      intro spelled
      simp only [AllSpelled.append_iff, AllSpelled.cons_iff] at spelled
      exact ⟨calleeInduction spelled.1, induction spelled.2.2.1⟩
  | get _ _ _ induction =>
      intro spelled
      exact induction (AllSpelled.append_iff.mp spelled).1
  | literal _ => exact fun _ => trivial
  | this kind =>
      intro spelled
      exact (AllSpelled.cons_iff.mp spelled).1.word _ kind
  | read kind =>
      intro spelled
      exact (AllSpelled.cons_iff.mp spelled).1.ordinary kind
  | group _ _ _ induction =>
      intro spelled
      simp only [AllSpelled.append_iff, AllSpelled.cons_iff] at spelled
      exact induction spelled.2.1
  | super kind _ _ =>
      intro spelled
      exact (AllSpelled.cons_iff.mp spelled).1.word _ kind
  | one _ induction =>
      rename_i spelled
      exact ⟨induction spelled, trivial⟩
  | more _ _ _ firstInduction induction =>
      rename_i spelled
      simp only [AllSpelled.append_iff, AllSpelled.cons_iff] at spelled
      exact ⟨firstInduction spelled.1, induction spelled.2.2⟩

theorem OptionalExpr.proper {tokens first tree? next}
    (found : OptionalExpr tokens first tree? next) (spelled : AllSpelled tokens) :
    Expr.Proper? tree? := by
  cases found with
  | none => trivial
  | some derived => exact derived.proper spelled

theorem ExpressionStatement.proper {tokens first stmt next}
    (found : ExpressionStatement tokens first stmt next) (spelled : AllSpelled tokens) :
    stmt.Proper := by
  cases found with
  | mk derived _ => exact derived.proper (AllSpelled.append_iff.mp spelled).1

theorem VariableStatement.proper {tokens first stmt next}
    (found : VariableStatement tokens first stmt next) (spelled : AllSpelled tokens) :
    stmt.Proper := by
  cases found with
  | mk _ named initialized _ =>
      simp only [AllSpelled.append_iff, AllSpelled.cons_iff] at spelled
      refine ⟨spelled.2.1.ordinary named, ?_⟩
      cases initialized with
      | none => trivial
      | some _ derived => exact derived.proper (AllSpelled.cons_iff.mp spelled.2.2.1).2

theorem Superclass.proper {tokens first superclass next}
    (found : Superclass tokens first superclass next) (spelled : AllSpelled tokens) :
    ProperSuperclass superclass := by
  cases found with
  | none => trivial
  | some _ named =>
      simp only [AllSpelled.cons_iff] at spelled
      exact spelled.2.1.ordinary named

def ProperInitializer : Option Stmt → Prop
  | none => True
  | some initializer => initializer.Proper

theorem LoopInitializer.proper {tokens first initializer next}
    (found : LoopInitializer tokens first initializer next) (spelled : AllSpelled tokens) :
    ProperInitializer initializer := by
  cases found with
  | none _ => trivial
  | var declared => exact declared.proper spelled
  | expression stated => exact stated.proper spelled

theorem loopTree_proper {initializer : Option Stmt} {condition increment : Option Expr}
    {body : Stmt} (initialized : ProperInitializer initializer) (tests : Expr.Proper? condition)
    (steps : Expr.Proper? increment) (proper : body.Proper)
    (governed : body.isDeclaration = false) :
    (loopTree initializer condition increment body).Proper := by
  cases initializer <;> cases condition <;> cases increment <;>
    simp_all [loopTree, Stmt.Proper, Stmt.AllProper, ProperInitializer, Expr.Proper?,
      Expr.Proper, Stmt.isDeclaration]

theorem ParameterNames.ordinary {tokens names} (several : ParameterNames tokens names) :
    AllSpelled tokens → ∀ name ∈ names, name.Ordinary := by
  induction several with
  | one named =>
      intro spelled name member
      cases List.mem_singleton.mp member
      exact (AllSpelled.cons_iff.mp spelled).1.ordinary named
  | more named _ _ induction =>
      intro spelled name member
      simp only [AllSpelled.cons_iff] at spelled
      cases member with
      | head => exact spelled.1.ordinary named
      | tail _ member => exact induction spelled.2.2 name member

theorem Parameters.ordinary {tokens names} (found : Parameters tokens names)
    (spelled : AllSpelled tokens) : ∀ name ∈ names, name.Ordinary := by
  cases found with
  | none => nofun
  | some several _ => exact several.ordinary spelled

theorem ExpressionStatement.isDeclaration {tokens first stmt next}
    (found : ExpressionStatement tokens first stmt next) : stmt.isDeclaration = false := by
  cases found
  rfl

theorem Statement.isDeclaration {nearest takesElse tokens first stmt next}
    (found : Statement nearest takesElse tokens first stmt next) :
    stmt.isDeclaration = false := by
  cases found with
  | expression stated => exact stated.isDeclaration
  | @forLoop _ _ _ _ _ _ initializer _ _ _ _ _ increment =>
      cases initializer <;> cases increment <;> rfl
  | print | returns | block | loop | conditional | conditionalElse => rfl

variable {nearest : Bool}

mutual
theorem Declaration.proper {tokens first stmt next} :
    Declaration nearest tokens first stmt next → AllSpelled tokens → stmt.Proper
  | .classDecl _ named inherits _ methods _, spelled => by
      simp only [AllSpelled.append_iff, AllSpelled.cons_iff] at spelled
      exact ⟨spelled.2.1.ordinary named, inherits.proper spelled.2.2.1,
        methods.proper spelled.2.2.2.2.1⟩
  | .function _ routine, spelled => routine.proper (AllSpelled.cons_iff.mp spelled).2
  | .var declared, spelled => declared.proper spelled
  | .statement derived, spelled => derived.proper spelled

theorem Declarations.proper {tokens first stmts next} :
    Declarations nearest tokens first stmts next → AllSpelled tokens → Stmt.AllProper stmts
  | .nil, _ => trivial
  | .cons declared several, spelled =>
      ⟨declared.proper (AllSpelled.append_iff.mp spelled).1,
        several.proper (AllSpelled.append_iff.mp spelled).2⟩

theorem Methods.proper {tokens first methods next} :
    Methods nearest tokens first methods next → AllSpelled tokens → Routine.AllProper methods
  | .nil, _ => trivial
  | .cons method several, spelled =>
      ⟨method.proper (AllSpelled.append_iff.mp spelled).1,
        several.proper (AllSpelled.append_iff.mp spelled).2⟩

theorem Function.proper {tokens first routine next} :
    Function nearest tokens first routine next → AllSpelled tokens → routine.Proper
  | .mk named _ listed _ _ body _, spelled => by
      simp only [AllSpelled.append_iff, AllSpelled.cons_iff] at spelled
      exact ⟨spelled.1.ordinary named, listed.ordinary spelled.2.2.1,
        body.proper spelled.2.2.2.2.2.1⟩

theorem Statement.proper {takesElse tokens first stmt next} :
    Statement nearest takesElse tokens first stmt next → AllSpelled tokens → stmt.Proper
  | .expression stated, spelled => stated.proper spelled
  | .print _ derived _, spelled => by
      simp only [AllSpelled.append_iff, AllSpelled.cons_iff] at spelled
      exact derived.proper spelled.2.1
  | .returns _ found _, spelled => by
      simp only [AllSpelled.append_iff, AllSpelled.cons_iff] at spelled
      exact found.proper spelled.2.1
  | .block _ body _, spelled => by
      simp only [AllSpelled.append_iff, AllSpelled.cons_iff] at spelled
      exact body.proper spelled.2.1
  | .loop _ _ derived _ body, spelled => by
      simp only [AllSpelled.append_iff, AllSpelled.cons_iff] at spelled
      exact ⟨derived.proper spelled.2.2.1, body.proper spelled.2.2.2.2, body.isDeclaration⟩
  | .forLoop _ _ initialized tests _ steps _ body, spelled => by
      simp only [AllSpelled.append_iff, AllSpelled.cons_iff] at spelled
      exact loopTree_proper (initialized.proper spelled.2.2.1) (tests.proper spelled.2.2.2.1)
        (steps.proper spelled.2.2.2.2.2.1) (body.proper spelled.2.2.2.2.2.2.2) body.isDeclaration
  | .conditional _ _ derived _ thenBranch, spelled => by
      simp only [AllSpelled.append_iff, AllSpelled.cons_iff] at spelled
      exact ⟨derived.proper spelled.2.2.1, thenBranch.proper spelled.2.2.2.2,
        thenBranch.isDeclaration⟩
  | .conditionalElse _ _ derived _ thenBranch _ _ elseBranch, spelled => by
      simp only [AllSpelled.append_iff, AllSpelled.cons_iff] at spelled
      exact ⟨derived.proper spelled.2.2.1,
        ⟨thenBranch.proper spelled.2.2.2.2.1, thenBranch.isDeclaration⟩,
        elseBranch.proper spelled.2.2.2.2.2.2, elseBranch.isDeclaration⟩
end

end Grammar

end Lox
