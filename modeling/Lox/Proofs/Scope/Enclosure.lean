import Lox.Tree
/-! Where an occurrence stands. The scopes around it, and what each of them declares before it, are
told from the tree alone: by the constructs that hold it and the statements that begin before it. -/

namespace Lox

/-- What an occurrence is for: a variable that is read or assigned, the receiver of a method, or
the superclass. -/
inductive Mention where
  | named (name : Token)
  | this
  | super

/-- The name that a declaration declares. -/
def Stmt.declared? : Stmt → Option Token
  | .var name _ => some name
  | .function routine => some routine.name
  | .classDecl name _ _ => some name
  | _ => none

/-- The statement is a declaration of the name. -/
def Stmt.Declares (stmt : Stmt) (name : Token) : Prop :=
  ∃ declared, stmt.declared? = some declared ∧ declared.lexeme = name.lexeme

/-- A scope around an occurrence. Of its statements only those count that begin before the
occurrence; the last of them is the one that holds it. The top level is no scope. -/
inductive Enclosure where
  | block (begun : List Stmt)
  | body (parameters : List Token) (begun : List Stmt)
  | classBody
  | superclass

namespace Enclosure

/-- The scope declares, before the occurrence, what the occurrence is for. -/
def Binds : Enclosure → Mention → Prop
  | block begun, .named name => ∃ stmt ∈ begun, stmt.Declares name
  | body parameters begun, .named name =>
      (∃ parameter ∈ parameters, parameter.lexeme = name.lexeme) ∨
        ∃ stmt ∈ begun, stmt.Declares name
  | classBody, .this => True
  | superclass, .super => True
  | _, _ => False

/-- The scopes around the methods of a class. -/
def ofClass (superclass? : Option Expr) (around : List Enclosure) : List Enclosure :=
  classBody :: if superclass?.isSome then superclass :: around else around

end Enclosure

/-- What holds a list of statements, and the scopes around it. -/
inductive Interior where
  | topLevel
  | block (around : List Enclosure)
  | body (parameters : List Token) (around : List Enclosure)

/-- The scopes around what stands inside the last of the statements that have begun. -/
def Interior.enclosures : Interior → List Stmt → List Enclosure
  | topLevel, _ => []
  | block around, begun => .block begun :: around
  | body parameters around, begun => .body parameters begun :: around

/-! ## The occurrences of a program -/

/-- An expression holds an occurrence. No expression opens a scope. -/
inductive Expr.Holds (id : OccurrenceId) : Mention → Expr → Prop
  | read {name} : Expr.Holds id (.named name) (.read id name)
  | assign {name value} : Expr.Holds id (.named name) (.assign id name value)
  | this {keyword} : Expr.Holds id .this (.this id keyword)
  | super {keyword method} : Expr.Holds id .super (.super id keyword method)
  | group {mention inner} : Expr.Holds id mention inner → Expr.Holds id mention (.group inner)
  | unary {mention operator right} :
      Expr.Holds id mention right → Expr.Holds id mention (.unary operator right)
  | binaryLeft {mention left operator right} :
      Expr.Holds id mention left → Expr.Holds id mention (.binary left operator right)
  | binaryRight {mention left operator right} :
      Expr.Holds id mention right → Expr.Holds id mention (.binary left operator right)
  | logicalLeft {mention left operator right} :
      Expr.Holds id mention left → Expr.Holds id mention (.logical left operator right)
  | logicalRight {mention left operator right} :
      Expr.Holds id mention right → Expr.Holds id mention (.logical left operator right)
  | assigned {mention other name value} :
      Expr.Holds id mention value → Expr.Holds id mention (.assign other name value)
  | callee {mention callee paren arguments} :
      Expr.Holds id mention callee → Expr.Holds id mention (.call callee paren arguments)
  | argument {mention callee paren arguments argument} : argument ∈ arguments →
      Expr.Holds id mention argument → Expr.Holds id mention (.call callee paren arguments)
  | get {mention object name} :
      Expr.Holds id mention object → Expr.Holds id mention (.get object name)
  | setObject {mention object name value} :
      Expr.Holds id mention object → Expr.Holds id mention (.set object name value)
  | setValue {mention object name value} :
      Expr.Holds id mention value → Expr.Holds id mention (.set object name value)

mutual
/-- A statement with the scopes `around` it holds an occurrence with the scopes `place` around it.
What a statement declares counts as declared in all of it: a variable in its initializer, a
function in its body, a class in the name of its superclass and in its methods. -/
inductive Stmt.Holds (id : OccurrenceId) (mention : Mention) :
    List Enclosure → Stmt → List Enclosure → Prop
  | expression {around expr} :
      Expr.Holds id mention expr → Stmt.Holds id mention around (.expression expr) around
  | print {around expr} :
      Expr.Holds id mention expr → Stmt.Holds id mention around (.print expr) around
  | initial {around name expr} :
      Expr.Holds id mention expr → Stmt.Holds id mention around (.var name (some expr)) around
  | block {around body place} : Stmt.AnyHolds id mention (.block around) body place →
      Stmt.Holds id mention around (.block body) place
  | condition {around condition thenBranch elseBranch} : Expr.Holds id mention condition →
      Stmt.Holds id mention around (.conditional condition thenBranch elseBranch) around
  | thenBranch {around condition thenBranch elseBranch place} :
      Stmt.Holds id mention around thenBranch place →
      Stmt.Holds id mention around (.conditional condition thenBranch elseBranch) place
  | elseBranch {around condition thenBranch elseBranch place} :
      Stmt.Holds id mention around elseBranch place →
      Stmt.Holds id mention around (.conditional condition thenBranch (some elseBranch)) place
  | loopCondition {around condition body} : Expr.Holds id mention condition →
      Stmt.Holds id mention around (.loop condition body) around
  | loopBody {around condition body place} : Stmt.Holds id mention around body place →
      Stmt.Holds id mention around (.loop condition body) place
  | function {around routine place} : Routine.Holds id mention around routine place →
      Stmt.Holds id mention around (.function routine) place
  | returns {around keyword expr} : Expr.Holds id mention expr →
      Stmt.Holds id mention around (.returns keyword (some expr)) around
  | superclass {around name superclass methods} : Expr.Holds id mention superclass →
      Stmt.Holds id mention around (.classDecl name (some superclass) methods) around
  | method {around name superclass? methods method place} : method ∈ methods →
      Routine.Holds id mention (Enclosure.ofClass superclass? around) method place →
      Stmt.Holds id mention around (.classDecl name superclass? methods) place

/-- One of the statements of a list holds an occurrence. -/
inductive Stmt.AnyHolds (id : OccurrenceId) (mention : Mention) :
    Interior → List Stmt → List Enclosure → Prop
  | mk {interior earlier stmt later place} :
      Stmt.Holds id mention (interior.enclosures (earlier ++ [stmt])) stmt place →
      Stmt.AnyHolds id mention interior (earlier ++ stmt :: later) place

/-- Parameters and body of a function or method are one scope. -/
inductive Routine.Holds (id : OccurrenceId) (mention : Mention) :
    List Enclosure → Routine → List Enclosure → Prop
  | mk {around name parameters body place} :
      Stmt.AnyHolds id mention (.body parameters around) body place →
      Routine.Holds id mention around (.mk name parameters body) place
end

/-! ## Distances -/

/-- The innermost scope that binds what an occurrence is for, and the number of scopes between. -/
def BoundAt (place : List Enclosure) (mention : Mention) (distance : Nat) : Prop :=
  ∃ inner enclosure outer, place = inner ++ enclosure :: outer ∧ inner.length = distance ∧
    enclosure.Binds mention ∧ ∀ other ∈ inner, ¬ other.Binds mention

section

variable {place : List Enclosure} {enclosure : Enclosure} {mention : Mention} {distance : Nat}

theorem not_boundAt_nil : ¬ BoundAt [] mention distance := by
  rintro ⟨inner, enclosure, outer, split, -⟩
  exact List.append_ne_nil_of_right_ne_nil inner (List.cons_ne_nil _ _) split.symm

theorem boundAt_cons_of_binds (binds : enclosure.Binds mention) :
    BoundAt (enclosure :: place) mention distance ↔ distance = 0 := by
  constructor
  · rintro ⟨inner, other, outer, split, rfl, -, free⟩
    cases inner with
    | nil => rfl
    | cons first rest =>
        cases split
        exact absurd binds (free enclosure List.mem_cons_self)
  · rintro rfl
    exact ⟨[], enclosure, place, rfl, rfl, binds, nofun⟩

theorem boundAt_cons_of_not_binds (free : ¬ enclosure.Binds mention) :
    BoundAt (enclosure :: place) mention distance ↔
      ∃ between, distance = between + 1 ∧ BoundAt place mention between := by
  constructor
  · rintro ⟨inner, other, outer, split, rfl, binds, others⟩
    cases inner with
    | nil =>
        cases split
        exact absurd binds free
    | cons first rest =>
        cases split
        exact ⟨rest.length, rfl, rest, other, outer, rfl, rfl, binds,
          fun inside member => others inside (List.mem_cons_of_mem _ member)⟩
  · rintro ⟨_, rfl, inner, other, outer, rfl, rfl, binds, others⟩
    exact ⟨enclosure :: inner, other, outer, rfl, rfl, binds, List.forall_mem_cons.mpr
      ⟨free, others⟩⟩

/-- There is a distance if some scope binds what the occurrence is for. -/
theorem exists_boundAt : (∃ distance, BoundAt place mention distance) ↔
    ∃ enclosure ∈ place, enclosure.Binds mention := by
  induction place with
  | nil => simp [not_boundAt_nil]
  | cons enclosure place induction =>
      by_cases binds : enclosure.Binds mention
      · simp [boundAt_cons_of_binds binds, binds]
      · simp only [boundAt_cons_of_not_binds binds, List.mem_cons, exists_eq_or_imp, binds,
          false_or, ← induction]
        exact ⟨fun ⟨_, between, _, bound⟩ => ⟨between, bound⟩,
          fun ⟨between, bound⟩ => ⟨between + 1, between, rfl, bound⟩⟩

end

end Lox
