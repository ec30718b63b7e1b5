import Mathlib.Data.List.Forall2
import Lox.Diagnostic
import Lox.Tree
/-! Variants of a program. A variant has the same shape, the same names and the same
literals; it may number its occurrences in another way, and its tokens may stand on
other lines. -/

namespace Lox

/-- Which numbers may stand for each other, and which tokens. -/
structure Variation where
  ids : OccurrenceId → OccurrenceId → Prop
  tokens : Token → Token → Prop
  kind : ∀ {token other}, tokens token other → other.kind = token.kind
  lexeme : ∀ {token other}, tokens token other → other.lexeme = token.lexeme

namespace Variation

variable (variation : Variation)

/-- Tokens one after another. -/
abbrev Texts : List Token → List Token → Prop :=
  List.Forall₂ variation.tokens

/-- A number stands for one number only, on either side. -/
def Exact : Prop :=
  ∀ ⦃id other id' other'⦄, variation.ids id other → variation.ids id' other' →
    (id = id' ↔ other = other')

/-- Other numbers, and the same tokens, as far as these are allowed. -/
def ofIds (ids : OccurrenceId → OccurrenceId → Prop) (allowed : Token → Prop) : Variation where
  ids := ids
  tokens := fun token other => other = token ∧ allowed token
  kind := fun same => same.1 ▸ rfl
  lexeme := fun same => same.1 ▸ rfl

variable {ids : OccurrenceId → OccurrenceId → Prop} {allowed : Token → Prop}
  {tokens others : List Token}

theorem ofIds_tokens {later : OccurrenceId → OccurrenceId → Prop} {more : Token → Prop}
    (contained : ∀ token, allowed token → more token) {token other : Token}
    (same : (ofIds ids allowed).tokens token other) : (ofIds later more).tokens token other :=
  ⟨same.1, contained token same.2⟩

theorem ofIds_texts (all : ∀ token ∈ tokens, allowed token) :
    (ofIds ids allowed).Texts tokens tokens :=
  List.forall₂_same.mpr fun token member => ⟨rfl, all token member⟩

theorem eq_of_texts (texts : (ofIds ids allowed).Texts tokens others) : others = tokens := by
  induction texts with
  | nil => rfl
  | cons same _ induction => rw [same.1, induction]

end Variation

/-! ## Tokens -/

section

variable {variation : Variation} {token other : Token} (varies : variation.tokens token other)

include varies

theorem Variation.hasMark (mark : Mark) : other.hasMark mark = token.hasMark mark := by
  rw [Token.hasMark, Token.hasMark, variation.kind varies]

theorem Variation.isEnd : other.isEnd = token.isEnd := by
  rw [Token.isEnd, Token.isEnd, variation.kind varies]

theorem Variation.alike (kind : TokenKind) : other.kind.alike kind = token.kind.alike kind := by
  rw [variation.kind varies]

end

/-! ## Trees -/

section

variable (variation : Variation)

mutual
inductive Expr.Varies : Expr → Expr → Prop
  | literal {value} : Varies (.literal value) (.literal value)
  | group {inner inner'} : Varies inner inner' → Varies (.group inner) (.group inner')
  | unary {operator operator' right right'} :
      variation.tokens operator operator' → Varies right right' →
      Varies (.unary operator right) (.unary operator' right')
  | binary {left left' operator operator' right right'} :
      Varies left left' → variation.tokens operator operator' → Varies right right' →
      Varies (.binary left operator right) (.binary left' operator' right')
  | logical {left left' operator operator' right right'} :
      Varies left left' → variation.tokens operator operator' → Varies right right' →
      Varies (.logical left operator right) (.logical left' operator' right')
  | read {id id' name name'} :
      variation.ids id id' → variation.tokens name name' → Varies (.read id name) (.read id' name')
  | assign {id id' name name' value value'} :
      variation.ids id id' → variation.tokens name name' → Varies value value' →
      Varies (.assign id name value) (.assign id' name' value')
  | call {callee callee' paren paren' arguments arguments'} :
      Varies callee callee' → variation.tokens paren paren' →
      Expr.AllVary arguments arguments' →
      Varies (.call callee paren arguments) (.call callee' paren' arguments')
  | get {object object' name name'} :
      Varies object object' → variation.tokens name name' →
      Varies (.get object name) (.get object' name')
  | set {object object' name name' value value'} :
      Varies object object' → variation.tokens name name' → Varies value value' →
      Varies (.set object name value) (.set object' name' value')
  | this {id id' keyword keyword'} :
      variation.ids id id' → variation.tokens keyword keyword' →
      Varies (.this id keyword) (.this id' keyword')
  | super {id id' keyword keyword' method method'} :
      variation.ids id id' → variation.tokens keyword keyword' →
      variation.tokens method method' →
      Varies (.super id keyword method) (.super id' keyword' method')

inductive Expr.AllVary : List Expr → List Expr → Prop
  | nil : Expr.AllVary [] []
  | cons {expr expr' rest rest'} :
      Expr.Varies expr expr' → Expr.AllVary rest rest' →
      Expr.AllVary (expr :: rest) (expr' :: rest')
end

/-- Both are there, or neither. -/
abbrev Expr.Varies? : Option Expr → Option Expr → Prop :=
  Option.Rel (Expr.Varies variation)

mutual
inductive Stmt.Varies : Stmt → Stmt → Prop
  | expression {expr expr'} :
      expr.Varies variation expr' → Stmt.Varies (.expression expr) (.expression expr')
  | print {expr expr'} : expr.Varies variation expr' → Stmt.Varies (.print expr) (.print expr')
  | var {name name' initial initial'} :
      variation.tokens name name' → Expr.Varies? variation initial initial' →
      Stmt.Varies (.var name initial) (.var name' initial')
  | block {body body'} : Stmt.AllVary body body' → Stmt.Varies (.block body) (.block body')
  | conditional {condition condition' thenBranch thenBranch'} :
      condition.Varies variation condition' → Stmt.Varies thenBranch thenBranch' →
      Stmt.Varies (.conditional condition thenBranch none) (.conditional condition' thenBranch' none)
  | conditionalElse {condition condition' thenBranch thenBranch' elseBranch elseBranch'} :
      condition.Varies variation condition' → Stmt.Varies thenBranch thenBranch' →
      Stmt.Varies elseBranch elseBranch' →
      Stmt.Varies (.conditional condition thenBranch (some elseBranch))
        (.conditional condition' thenBranch' (some elseBranch'))
  | loop {condition condition' body body'} :
      condition.Varies variation condition' → Stmt.Varies body body' →
      Stmt.Varies (.loop condition body) (.loop condition' body')
  | function {routine routine'} :
      Routine.Varies routine routine' → Stmt.Varies (.function routine) (.function routine')
  | returns {keyword keyword' value value'} :
      variation.tokens keyword keyword' → Expr.Varies? variation value value' →
      Stmt.Varies (.returns keyword value) (.returns keyword' value')
  | classDecl {name name' superclass superclass' methods methods'} :
      variation.tokens name name' → Expr.Varies? variation superclass superclass' →
      Routine.AllVary methods methods' →
      Stmt.Varies (.classDecl name superclass methods) (.classDecl name' superclass' methods')

inductive Stmt.AllVary : List Stmt → List Stmt → Prop
  | nil : Stmt.AllVary [] []
  | cons {stmt stmt' rest rest'} :
      Stmt.Varies stmt stmt' → Stmt.AllVary rest rest' →
      Stmt.AllVary (stmt :: rest) (stmt' :: rest')

inductive Routine.Varies : Routine → Routine → Prop
  | mk {name name' parameters parameters' body body'} :
      variation.tokens name name' → variation.Texts parameters parameters' →
      Stmt.AllVary body body' →
      Routine.Varies (.mk name parameters body) (.mk name' parameters' body')

inductive Routine.AllVary : List Routine → List Routine → Prop
  | nil : Routine.AllVary [] []
  | cons {method method' rest rest'} :
      Routine.Varies method method' → Routine.AllVary rest rest' →
      Routine.AllVary (method :: rest) (method' :: rest')
end

end

variable {variation : Variation}

theorem Expr.AllVary.append {left left' right right' : List Expr}
    (first : Expr.AllVary variation left left') (second : Expr.AllVary variation right right') :
    Expr.AllVary variation (left ++ right) (left' ++ right') := by
  induction left generalizing left' with
  | nil =>
      cases first
      exact second
  | cons expr rest induction =>
      cases first with
      | cons varies others => exact .cons varies (induction others)

theorem Expr.AllVary.length {left right : List Expr} (vary : Expr.AllVary variation left right) :
    right.length = left.length := by
  induction left generalizing right with
  | nil =>
      cases vary
      rfl
  | cons expr rest induction =>
      cases vary with
      | cons _ others => rw [List.length_cons, List.length_cons, induction others]

theorem Stmt.AllVary.append {left left' right right' : List Stmt}
    (first : Stmt.AllVary variation left left') (second : Stmt.AllVary variation right right') :
    Stmt.AllVary variation (left ++ right) (left' ++ right') := by
  induction left generalizing left' with
  | nil =>
      cases first
      exact second
  | cons stmt rest induction =>
      cases first with
      | cons varies others => exact .cons varies (induction others)

end Lox
