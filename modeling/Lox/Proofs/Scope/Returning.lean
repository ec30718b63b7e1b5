import Lox.Proofs.Scope.Acceptance
import Lox.Proofs.Scope.Violations
/-! Where returns stand. A return belongs to the innermost body around it, so those that belong to
a statement stand in it but in no function and no method that it declares. A program that keeps the
scope rules has none that belongs to one of its own statements. -/

namespace Lox

/-! ## Returns of a statement -/

mutual
/-- The returns inside a statement that end the body in which the statement stands. -/
def Stmt.ownReturns : Stmt → List (Token × Option Expr)
  | .returns keyword value => [(keyword, value)]
  | .block body => Stmt.allOwnReturns body
  | .conditional _ thenBranch none => thenBranch.ownReturns
  | .conditional _ thenBranch (some elseBranch) => thenBranch.ownReturns ++ elseBranch.ownReturns
  | .loop _ body => body.ownReturns
  | .expression _ | .print _ | .var _ _ | .function _ | .classDecl _ _ _ => []

def Stmt.allOwnReturns : List Stmt → List (Token × Option Expr)
  | [] => []
  | stmt :: rest => stmt.ownReturns ++ Stmt.allOwnReturns rest
end

/-! ## The top level -/

theorem Place.body?_after (place : Place) (stmt : Stmt) (topLevel : place.body? = none) :
    (place.after stmt).body? = none := by
  cases place with
  | nil => rfl
  | cons surround outer =>
      cases surround with
      | body role name parameters earlier => cases topLevel
      | _ => exact topLevel

/-- Nothing is wrong at the spots. -/
def Clean (spots : List Spot) : Prop :=
  ∀ spot ∈ spots, spot.violations = []

namespace Clean

variable {spot : Spot} {first second : List Spot}

@[simp] theorem append_iff : Clean (first ++ second) ↔ Clean first ∧ Clean second :=
  List.forall_mem_append

@[simp] theorem cons_iff : Clean (spot :: second) ↔ spot.violations = [] ∧ Clean second :=
  List.forall_mem_cons

end Clean

/-- A return outside of all bodies is reported. -/
theorem violations_returns_topLevel {place : Place} (topLevel : place.body? = none)
    (keyword : Token) (value : Option Expr) :
    Spot.violations ⟨place, .returns keyword value⟩ ≠ [] := by
  rw [violations_returns, if_pos topLevel]
  exact List.cons_ne_nil _ _

mutual
theorem Stmt.ownReturns_of_clean (place : Place) (topLevel : place.body? = none) :
    ∀ stmt : Stmt, Clean (stmt.spots place) → stmt.ownReturns = []
  | .expression _, _ | .print _, _ | .var _ _, _ | .function _, _ | .classDecl _ _ _, _ => rfl
  | .returns keyword value, clean =>
      absurd (Clean.cons_iff.mp clean).1 (violations_returns_topLevel topLevel keyword value)
  | .block body, clean =>
      Stmt.allOwnReturns_of_clean (.block [] :: place) topLevel body clean
  | .conditional condition thenBranch none, clean =>
      Stmt.ownReturns_of_clean place topLevel thenBranch (Clean.append_iff.mp clean).2
  | .conditional condition thenBranch (some elseBranch), clean => by
      have branches := Clean.append_iff.mp (Clean.append_iff.mp clean).2
      rw [ownReturns, Stmt.ownReturns_of_clean place topLevel thenBranch branches.1,
        Stmt.ownReturns_of_clean place topLevel elseBranch branches.2]
      rfl
  | .loop condition body, clean =>
      Stmt.ownReturns_of_clean place topLevel body (Clean.append_iff.mp clean).2

theorem Stmt.allOwnReturns_of_clean (place : Place) (topLevel : place.body? = none) :
    ∀ stmts : List Stmt, Clean (Stmt.allSpots place stmts) → Stmt.allOwnReturns stmts = []
  | [], _ => rfl
  | stmt :: rest, clean => by
      have both := Clean.append_iff.mp clean
      rw [allOwnReturns, Stmt.ownReturns_of_clean place topLevel stmt both.1,
        Stmt.allOwnReturns_of_clean (place.after stmt) (place.body?_after stmt topLevel) rest
          both.2]
      rfl
end

theorem Stmt.mem_allOwnReturns {stmt : Stmt} {stmts : List Stmt} (member : stmt ∈ stmts)
    {entry : Token × Option Expr} (inside : entry ∈ stmt.ownReturns) :
    entry ∈ Stmt.allOwnReturns stmts := by
  induction stmts with
  | nil => cases member
  | cons first rest induction =>
      rcases List.mem_cons.mp member with rfl | member
      · exact List.mem_append_left _ inside
      · exact List.mem_append_right _ (induction member)

/-- No statement of an accepted program has a return of its own. -/
theorem Session.Accepts.ownReturns {session : Session} {source : String}
    (accepted : session.Accepts source) :
    Stmt.allOwnReturns (readSource source session.nextId).statements = [] := by
  have exact := resolve_problems_exact source session.nextId accepted.1
  rw [accepted.2] at exact
  refine Stmt.allOwnReturns_of_clean [] rfl _ fun spot member => ?_
  exact List.flatMap_eq_nil_iff.mp exact.symm spot member

end Lox
