import Lox.Proofs.Grammar.Derivation
/-! Occurrence numbers. A tree that is read from a number on has its own numbers
from there on, each of them once; a tree of the grammar has all the numbers that were
taken while it was read. -/

namespace Lox

/-! ## The numbers of a tree -/

mutual
/-- The numbers of the occurrences in an expression. -/
def Expr.occurrences : Expr → List OccurrenceId
  | .literal _ => []
  | .group inner => inner.occurrences
  | .unary _ right => right.occurrences
  | .binary left _ right => left.occurrences ++ right.occurrences
  | .logical left _ right => left.occurrences ++ right.occurrences
  | .read id _ => [id]
  | .assign id _ value => id :: value.occurrences
  | .call callee _ arguments => callee.occurrences ++ Expr.allOccurrences arguments
  | .get object _ => object.occurrences
  | .set object _ value => object.occurrences ++ value.occurrences
  | .this id _ => [id]
  | .super id _ _ => [id]

def Expr.allOccurrences : List Expr → List OccurrenceId
  | [] => []
  | expr :: rest => expr.occurrences ++ Expr.allOccurrences rest
end

def Expr.occurrences? : Option Expr → List OccurrenceId
  | none => []
  | some expr => expr.occurrences

mutual
def Stmt.occurrences : Stmt → List OccurrenceId
  | .expression expr => expr.occurrences
  | .print expr => expr.occurrences
  | .var _ initial => Expr.occurrences? initial
  | .block body => Stmt.allOccurrences body
  | .conditional condition thenBranch none => condition.occurrences ++ thenBranch.occurrences
  | .conditional condition thenBranch (some elseBranch) =>
      condition.occurrences ++ (thenBranch.occurrences ++ elseBranch.occurrences)
  | .loop condition body => condition.occurrences ++ body.occurrences
  | .function routine => routine.occurrences
  | .returns _ value => Expr.occurrences? value
  | .classDecl _ superclass methods =>
      Expr.occurrences? superclass ++ Routine.allOccurrences methods

def Stmt.allOccurrences : List Stmt → List OccurrenceId
  | [] => []
  | stmt :: rest => stmt.occurrences ++ Stmt.allOccurrences rest

def Routine.occurrences : Routine → List OccurrenceId
  | .mk _ _ body => Stmt.allOccurrences body

def Routine.allOccurrences : List Routine → List OccurrenceId
  | [] => []
  | method :: rest => method.occurrences ++ Routine.allOccurrences rest
end

/-! ## Numbering -/

/-- The numbers lie between the two bounds, the upper one excluded, and none of them
comes twice. -/
structure Numbered (first next : Nat) (occurrences : List Nat) : Prop where
  ordered : first ≤ next
  within : ∀ id ∈ occurrences, first ≤ id ∧ id < next
  nodup : occurrences.Nodup

namespace Numbered

variable {first middle next : Nat} {left right : List Nat}

theorem nil : Numbered first first [] :=
  ⟨Nat.le_refl _, nofun, List.nodup_nil⟩

theorem one : Numbered first (first + 1) [first] := by
  refine ⟨Nat.le_succ _, ?_, by simp⟩
  intro id member
  cases List.mem_singleton.mp member
  omega

theorem append (before : Numbered first middle left) (after : Numbered middle next right) :
    Numbered first next (left ++ right) := by
  refine ⟨Nat.le_trans before.ordered after.ordered, ?_, ?_⟩
  · intro id member
    have := before.ordered
    have := after.ordered
    rcases List.mem_append.mp member with member | member
    · have := before.within id member
      omega
    · have := after.within id member
      omega
  · rw [List.nodup_append]
    refine ⟨before.nodup, after.nodup, ?_⟩
    rintro id inLeft _ inRight rfl
    have := before.within id inLeft
    have := after.within id inRight
    omega

/-- Numbers that are taken and left out. -/
theorem extend (numbered : Numbered first middle left) (later : middle ≤ next) :
    Numbered first next left := by
  refine ⟨Nat.le_trans numbered.ordered later, fun id member => ?_, numbered.nodup⟩
  have := numbered.within id member
  omega

theorem perm (numbered : Numbered first next left) (same : left.Perm right) :
    Numbered first next right :=
  ⟨numbered.ordered, fun id member => numbered.within id (same.mem_iff.mpr member),
    same.nodup_iff.mp numbered.nodup⟩

end Numbered

/-- All the numbers between the two bounds, the upper one excluded, each of them once. -/
structure Filled (first next : Nat) (occurrences : List Nat) : Prop where
  ordered : first ≤ next
  perm : occurrences.Perm (List.range' first (next - first))

namespace Filled

variable {first middle next : Nat} {left right : List Nat}

theorem nil : Filled first first [] :=
  ⟨Nat.le_refl _, by rw [Nat.sub_self, List.range'_zero]⟩

theorem one : Filled first (first + 1) [first] :=
  ⟨Nat.le_succ _, by rw [Nat.add_sub_cancel_left, List.range'_one]⟩

theorem append (before : Filled first middle left) (after : Filled middle next right) :
    Filled first next (left ++ right) := by
  refine ⟨Nat.le_trans before.ordered after.ordered, ?_⟩
  have size : middle - first + (next - middle) = next - first := by
    have := before.ordered
    have := after.ordered
    omega
  have parts := @List.range'_append_1 first (middle - first) (next - middle)
  rw [Nat.add_sub_cancel' before.ordered, size] at parts
  rw [← parts]
  exact before.perm.append after.perm

theorem reorder (filled : Filled first next left) (same : left.Perm right) :
    Filled first next right :=
  ⟨filled.ordered, same.symm.trans filled.perm⟩

theorem numbered (filled : Filled first next left) : Numbered first next left := by
  have range : Numbered first next (List.range' first (next - first)) := by
    refine ⟨filled.ordered, fun id member => ?_, List.nodup_range'⟩
    rw [List.mem_range'_1] at member
    have := filled.ordered
    omega
  exact range.perm filled.perm.symm

end Filled

/-! ## Trees of the grammar -/

namespace Grammar

@[simp] theorem combine_occurrences (level : Precedence) (left right : Expr) (operator : Token) :
    (level.combine left operator right).occurrences = left.occurrences ++ right.occurrences := by
  cases level <;> simp [Precedence.combine, Expr.occurrences]

theorem Derives.filled {form tokens first tree next}
    (derived : Derives form tokens first tree next) : Filled first next tree.occurrences := by
  induction derived using Derives.rec (motive_2 := fun _ first arguments next _ =>
    Filled first next (Expr.allOccurrences arguments)) with
  | operation _ induction | operand _ induction | unary _ _ induction | unsigned _ induction
  | unapplied _ induction | get _ _ _ induction | group _ _ _ induction => exact induction
  | assign _ _ _ induction => exact Filled.one.append induction
  | set _ _ _ _ _ objectInduction induction => exact objectInduction.append induction
  | combine _ _ _ leftInduction rightInduction =>
      rw [tier_node, combine_occurrences]
      exact leftInduction.append rightInduction
  | callEmpty _ _ _ induction =>
      rw [Expr.occurrences, Expr.allOccurrences, List.append_nil]
      exact induction
  | call _ _ _ _ _ calleeInduction induction => exact calleeInduction.append induction
  | literal _ => exact .nil
  | this _ | read _ | super _ _ _ => exact .one
  | one _ induction =>
      rw [Expr.allOccurrences, Expr.allOccurrences, List.append_nil]
      exact induction
  | more _ _ _ firstInduction induction => exact firstInduction.append induction

theorem OptionalExpr.filled {tokens first tree? next}
    (found : OptionalExpr tokens first tree? next) :
    Filled first next (Expr.occurrences? tree?) := by
  cases found with
  | none => exact .nil
  | some derived => exact derived.filled

theorem ExpressionStatement.filled {tokens first stmt next}
    (found : ExpressionStatement tokens first stmt next) :
    Filled first next stmt.occurrences := by
  cases found with
  | mk derived _ => exact derived.filled

theorem VariableStatement.filled {tokens first stmt next}
    (found : VariableStatement tokens first stmt next) :
    Filled first next stmt.occurrences := by
  cases found with
  | mk _ _ initialized _ =>
      cases initialized with
      | none => exact .nil
      | some _ derived => exact derived.filled

theorem Superclass.filled {tokens first superclass next}
    (found : Superclass tokens first superclass next) :
    Filled first next (Expr.occurrences? superclass) := by
  cases found with
  | none => exact .nil
  | some _ _ => exact .one

/-- The numbers of the initializer, if there is one. -/
def initialOccurrences : Option Stmt → List OccurrenceId
  | none => []
  | some initializer => initializer.occurrences

theorem LoopInitializer.filled {tokens first initializer next}
    (found : LoopInitializer tokens first initializer next) :
    Filled first next (initialOccurrences initializer) := by
  cases found with
  | none _ => exact .nil
  | var declared => exact declared.filled
  | expression stated => exact stated.filled

/-- The increment of a loop is read before its body but stands behind it in the tree. -/
theorem forLoop_occurrences (initializer : Option Stmt) (condition increment : Option Expr)
    (body : Stmt) :
    (initialOccurrences initializer ++ (Expr.occurrences? condition ++
      (Expr.occurrences? increment ++ body.occurrences))).Perm
        (Stmt.forLoop initializer condition increment body).occurrences := by
  have swapped (step : Expr) : (step.occurrences ++ body.occurrences).Perm
      (body.occurrences ++ step.occurrences) := List.perm_append_comm
  cases initializer <;> cases condition <;> cases increment <;>
    simp [Stmt.forLoop, Stmt.occurrences, Stmt.allOccurrences, initialOccurrences,
      Expr.occurrences?, Expr.occurrences, swapped, List.perm_append_left_iff]

variable {nearest : Bool}

mutual
theorem Declaration.filled {tokens first stmt next} :
    Declaration nearest tokens first stmt next → Filled first next stmt.occurrences
  | .classDecl _ _ inherits _ methods _ => inherits.filled.append methods.filled
  | .function _ routine => routine.filled
  | .var declared => declared.filled
  | .statement derived => derived.filled

theorem Declarations.filled {tokens first stmts next} :
    Declarations nearest tokens first stmts next →
      Filled first next (Stmt.allOccurrences stmts)
  | .nil => .nil
  | .cons declared several => declared.filled.append several.filled

theorem Methods.filled {tokens first methods next} :
    Methods nearest tokens first methods next →
      Filled first next (Routine.allOccurrences methods)
  | .nil => .nil
  | .cons method several => method.filled.append several.filled

theorem Function.filled {tokens first routine next} :
    Function nearest tokens first routine next → Filled first next routine.occurrences
  | .mk _ _ _ _ _ body _ => body.filled

theorem Statement.filled {takesElse tokens first stmt next} :
    Statement nearest takesElse tokens first stmt next → Filled first next stmt.occurrences
  | .expression stated => stated.filled
  | .print _ derived _ => derived.filled
  | .returns _ found _ => found.filled
  | .block _ body _ => body.filled
  | .loop _ _ derived _ body => derived.filled.append body.filled
  | .forLoop _ _ initialized tests _ steps _ body => by
      rw [loopTree_eq]
      exact (initialized.filled.append (tests.filled.append
        (steps.filled.append body.filled))).reorder (forLoop_occurrences _ _ _ _)
  | .conditional _ _ derived _ thenBranch => derived.filled.append thenBranch.filled
  | .conditionalElse _ _ derived _ thenBranch _ _ elseBranch =>
      derived.filled.append (thenBranch.filled.append elseBranch.filled)
end

/-- No two occurrences have the same number. -/
theorem Declarations.numbered {tokens first stmts next}
    (declared : Declarations nearest tokens first stmts next) :
    Numbered first next (Stmt.allOccurrences stmts) :=
  declared.filled.numbered

end Grammar

end Lox
