import Lox.Proofs.Tree.Occurrences
import Lox.Proofs.Variation.Tree
/-! Variations that allow more. What counts of the numbers is only what happens to those
that occur. -/

namespace Lox

variable {variation weaker : Variation}

/-- Any two numbers that stand for each other still do so, if the first is one of these. -/
def Variation.Keeps (variation weaker : Variation) (occurrences : List OccurrenceId) : Prop :=
  ∀ id ∈ occurrences, ∀ id', variation.ids id id' → weaker.ids id id'

section

variable {first second : List OccurrenceId}

theorem Variation.Keeps.left (keeps : variation.Keeps weaker (first ++ second)) :
    variation.Keeps weaker first :=
  fun id member => keeps id (List.mem_append_left _ member)

theorem Variation.Keeps.right (keeps : variation.Keeps weaker (first ++ second)) :
    variation.Keeps weaker second :=
  fun id member => keeps id (List.mem_append_right _ member)

end

theorem Variation.Texts.weaken
    (tokens : ∀ {token other}, variation.tokens token other → weaker.tokens token other)
    {texts others : List Token} (vary : variation.Texts texts others) :
    weaker.Texts texts others :=
  vary.imp fun _ _ => tokens

mutual
theorem Expr.Varies.weaken
    (tokens : ∀ {token other}, variation.tokens token other → weaker.tokens token other)
    {expr expr' : Expr} : expr.Varies variation expr' →
    variation.Keeps weaker expr.occurrences → expr.Varies weaker expr'
  | .literal, _ => .literal
  | .group inner, keeps => .group (inner.weaken tokens keeps)
  | .unary same right, keeps => .unary (tokens same) (right.weaken tokens keeps)
  | .binary left same right, keeps =>
      .binary (left.weaken tokens keeps.left) (tokens same) (right.weaken tokens keeps.right)
  | .logical left same right, keeps =>
      .logical (left.weaken tokens keeps.left) (tokens same) (right.weaken tokens keeps.right)
  | .read ids same, keeps => .read (keeps _ List.mem_cons_self _ ids) (tokens same)
  | .assign ids same value, keeps =>
      .assign (keeps _ List.mem_cons_self _ ids) (tokens same)
        (value.weaken tokens fun id member => keeps id (List.mem_cons_of_mem _ member))
  | .call callee same arguments, keeps =>
      .call (callee.weaken tokens keeps.left) (tokens same) (arguments.weaken tokens keeps.right)
  | .get object same, keeps => .get (object.weaken tokens keeps) (tokens same)
  | .set object same value, keeps =>
      .set (object.weaken tokens keeps.left) (tokens same) (value.weaken tokens keeps.right)
  | .this ids same, keeps => .this (keeps _ List.mem_cons_self _ ids) (tokens same)
  | .super ids same method, keeps =>
      .super (keeps _ List.mem_cons_self _ ids) (tokens same) (tokens method)

theorem Expr.AllVary.weaken
    (tokens : ∀ {token other}, variation.tokens token other → weaker.tokens token other)
    {exprs exprs' : List Expr} : Expr.AllVary variation exprs exprs' →
    variation.Keeps weaker (Expr.allOccurrences exprs) → Expr.AllVary weaker exprs exprs'
  | .nil, _ => .nil
  | .cons first rest, keeps =>
      .cons (first.weaken tokens keeps.left) (rest.weaken tokens keeps.right)
end

theorem Expr.Varies?.weaken
    (tokens : ∀ {token other}, variation.tokens token other → weaker.tokens token other)
    {expr? expr?' : Option Expr} (vary : Expr.Varies? variation expr? expr?')
    (keeps : variation.Keeps weaker (Expr.occurrences? expr?)) :
    Expr.Varies? weaker expr? expr?' := by
  cases vary with
  | none => exact .none
  | some same => exact .some (same.weaken tokens keeps)

mutual
theorem Stmt.Varies.weaken
    (tokens : ∀ {token other}, variation.tokens token other → weaker.tokens token other)
    {stmt stmt' : Stmt} : stmt.Varies variation stmt' →
    variation.Keeps weaker stmt.occurrences → stmt.Varies weaker stmt'
  | .expression expr, keeps => .expression (expr.weaken tokens keeps)
  | .print expr, keeps => .print (expr.weaken tokens keeps)
  | .var same initial, keeps => .var (tokens same) (Expr.Varies?.weaken tokens initial keeps)
  | .block body, keeps => .block (body.weaken tokens keeps)
  | .conditional condition thenBranch, keeps =>
      .conditional (condition.weaken tokens keeps.left) (thenBranch.weaken tokens keeps.right)
  | .conditionalElse condition thenBranch elseBranch, keeps =>
      .conditionalElse (condition.weaken tokens keeps.left)
        (thenBranch.weaken tokens keeps.right.left) (elseBranch.weaken tokens keeps.right.right)
  | .loop condition body, keeps =>
      .loop (condition.weaken tokens keeps.left) (body.weaken tokens keeps.right)
  | .function routine, keeps => .function (routine.weaken tokens keeps)
  | .returns same value, keeps => .returns (tokens same) (Expr.Varies?.weaken tokens value keeps)
  | .classDecl same superclass methods, keeps =>
      .classDecl (tokens same) (Expr.Varies?.weaken tokens superclass keeps.left)
        (methods.weaken tokens keeps.right)

theorem Stmt.AllVary.weaken
    (tokens : ∀ {token other}, variation.tokens token other → weaker.tokens token other)
    {stmts stmts' : List Stmt} : Stmt.AllVary variation stmts stmts' →
    variation.Keeps weaker (Stmt.allOccurrences stmts) → Stmt.AllVary weaker stmts stmts'
  | .nil, _ => .nil
  | .cons first rest, keeps =>
      .cons (first.weaken tokens keeps.left) (rest.weaken tokens keeps.right)

theorem Routine.Varies.weaken
    (tokens : ∀ {token other}, variation.tokens token other → weaker.tokens token other)
    {routine routine' : Routine} : routine.Varies variation routine' →
    variation.Keeps weaker routine.occurrences → routine.Varies weaker routine'
  | .mk same parameters body, keeps =>
      .mk (tokens same) (Variation.Texts.weaken tokens parameters) (body.weaken tokens keeps)

theorem Routine.AllVary.weaken
    (tokens : ∀ {token other}, variation.tokens token other → weaker.tokens token other)
    {methods methods' : List Routine} :
    Routine.AllVary variation methods methods' →
      variation.Keeps weaker (Routine.allOccurrences methods) →
        Routine.AllVary weaker methods methods'
  | .nil, _ => .nil
  | .cons first rest, keeps =>
      .cons (first.weaken tokens keeps.left) (rest.weaken tokens keeps.right)
end

end Lox
