import Lox.Diagnostic
import Lox.Table
import Lox.Tree
/-! Scope distances. One walk over a program, in the order of its text, finds for
every occurrence of a local name how many scopes lie between the occurrence and
the scope that declares the name, and reports every violation of the scope rules.
Names that no scope declares are global and get no distance. Blocks, bodies with
their parameters and classes are scopes; the top level is none. -/

namespace Lox

/-- The recorded distance of every occurrence that has one. -/
abbrev Distances := Table OccurrenceId Nat

/-- While its initializer is evaluated a variable is declared, but not yet ready. -/
inductive NameState where
  | declared
  | ready
  deriving Repr, DecidableEq

abbrev Scope := Table String NameState

/-- The innermost body around a place. -/
inductive BodyKind where
  | topLevel
  | function
  | method
  | initializer
  deriving Repr, DecidableEq

/-- The innermost class around a place, which may have a superclass. -/
inductive ClassKind where
  | outside
  | plain
  | derived
  deriving Repr, DecidableEq

structure Surroundings where
  body : BodyKind
  classKind : ClassKind
  deriving Repr, DecidableEq

/-- The name of the method that makes a new instance ready. -/
def initializerName : String := "init"

/-- The name under which a superclass is bound around the methods of a class. -/
def superName : String := "super"

/-- The name under which the receiver is bound around the body of a method. -/
def thisName : String := "this"

/-- The state of the walk. The innermost scope stands first. -/
structure Walk where
  scopes : List Scope
  distances : Distances
  problems : List Diagnostic
  deriving Repr, DecidableEq

namespace Walk

def start : Walk := ⟨[], ∅, []⟩

def report (walk : Walk) (fault : ScopeFault) (blamed : Token) : Walk :=
  { walk with problems := walk.problems ++ [.scope fault blamed] }

def enter (walk : Walk) : Walk :=
  { walk with scopes := ∅ :: walk.scopes }

def leave (walk : Walk) : Walk :=
  { walk with scopes := walk.scopes.tail }

/-- Bind a name in the innermost scope; at the top level there is none. -/
def bind (walk : Walk) (name : String) (state : NameState) : Walk :=
  match walk.scopes with
  | [] => walk
  | scope :: outer => { walk with scopes := scope.set name state :: outer }

def innermost? (walk : Walk) (name : String) : Option NameState :=
  walk.scopes.head?.bind (·.find? name)

/-- A scope declares a name only once. -/
def declare (walk : Walk) (name : Token) : Walk :=
  match walk.innermost? name.lexeme with
  | some _ => walk.report .redeclared name
  | none => walk.bind name.lexeme .declared

def define (walk : Walk) (name : Token) : Walk :=
  walk.bind name.lexeme .ready

/-- The number of scopes between here and the innermost one that declares the name. -/
def distance? (walk : Walk) (name : String) : Option Nat :=
  walk.scopes.findIdx? (·.contains name)

/-- Record the distance of an occurrence, if its name is local. -/
def locate (walk : Walk) (id : OccurrenceId) (name : Token) : Walk :=
  match walk.distance? name.lexeme with
  | some distance => { walk with distances := walk.distances.set id distance }
  | none => walk

/-- Report a fault where a condition holds. -/
def reportIf (walk : Walk) (condition : Bool) (fault : ScopeFault) (blamed : Token) : Walk :=
  if condition then walk.report fault blamed else walk

/-- `this` has no distance outside a class, `super` may have one all the same. -/
def locateThis (walk : Walk) (surrounding : ClassKind) (id : OccurrenceId) (keyword : Token) :
    Walk :=
  match surrounding with
  | .outside => walk.report .thisOutsideClass keyword
  | .plain | .derived => walk.locate id keyword

def locateSuper (walk : Walk) (surrounding : ClassKind) (id : OccurrenceId) (keyword : Token) :
    Walk :=
  match surrounding with
  | .outside => (walk.report .superOutsideClass keyword).locate id keyword
  | .plain => (walk.report .superWithoutSuperclass keyword).locate id keyword
  | .derived => walk.locate id keyword

end Walk

mutual
def Expr.resolve (surrounding : ClassKind) : Expr → Walk → Walk
  | .literal _, walk => walk
  | .group inner, walk => inner.resolve surrounding walk
  | .unary _ right, walk => right.resolve surrounding walk
  | .binary left _ right, walk =>
      right.resolve surrounding (left.resolve surrounding walk)
  | .logical left _ right, walk =>
      right.resolve surrounding (left.resolve surrounding walk)
  | .read id name, walk =>
      (walk.reportIf (walk.innermost? name.lexeme == some .declared)
        .readInOwnInitializer name).locate id name
  | .assign id name value, walk => (value.resolve surrounding walk).locate id name
  | .call callee _ arguments, walk =>
      Expr.resolveAll surrounding arguments (callee.resolve surrounding walk)
  | .get object _, walk => object.resolve surrounding walk
  | .set object _ value, walk =>
      object.resolve surrounding (value.resolve surrounding walk)
  | .this id keyword, walk => walk.locateThis surrounding id keyword
  | .super id keyword _, walk => walk.locateSuper surrounding id keyword

def Expr.resolveAll (surrounding : ClassKind) : List Expr → Walk → Walk
  | [], walk => walk
  | expr :: rest, walk =>
      Expr.resolveAll surrounding rest (expr.resolve surrounding walk)
end

def Expr.resolve? (surrounding : ClassKind) (expr : Option Expr) (walk : Walk) : Walk :=
  match expr with
  | some expr => expr.resolve surrounding walk
  | none => walk

/-- A class that names itself as its superclass. -/
def Walk.checkInheritance (walk : Walk) (name : Token) : Option Expr → Walk
  | some (.read _ superclass) =>
      walk.reportIf (superclass.lexeme == name.lexeme) .selfInheritance superclass
  | _ => walk

def ClassKind.ofSuperclass (superclass : Option Expr) : ClassKind :=
  if superclass.isSome then .derived else .plain

def BodyKind.ofMethod (name : Token) : BodyKind :=
  if name.lexeme = initializerName then .initializer else .method

/-- The scopes of a class body: one for the superclass, if there is one, and
inside it one for the receiver. -/
def Walk.enterClass (walk : Walk) (superclass : Option Expr) : Walk :=
  let outer := if superclass.isSome then walk.enter.bind superName .ready else walk
  outer.enter.bind thisName .ready

def Walk.leaveClass (walk : Walk) (superclass : Option Expr) : Walk :=
  if superclass.isSome then walk.leave.leave else walk.leave

mutual
def Stmt.resolve (around : Surroundings) : Stmt → Walk → Walk
  | .expression expr, walk => expr.resolve around.classKind walk
  | .print expr, walk => expr.resolve around.classKind walk
  | .var name initial, walk =>
      (Expr.resolve? around.classKind initial (walk.declare name)).define name
  | .block body, walk => (Stmt.resolveAll around body walk.enter).leave
  | .conditional condition thenBranch none, walk =>
      thenBranch.resolve around (condition.resolve around.classKind walk)
  | .conditional condition thenBranch (some elseBranch), walk =>
      elseBranch.resolve around
        (thenBranch.resolve around (condition.resolve around.classKind walk))
  | .loop condition body, walk =>
      body.resolve around (condition.resolve around.classKind walk)
  | .function routine, walk =>
      routine.resolve { around with body := .function }
        ((walk.declare routine.name).define routine.name)
  | .returns keyword value, walk =>
      Expr.resolve? around.classKind value
        ((walk.reportIf (around.body == .topLevel) .topLevelReturn keyword).reportIf
          (value.isSome && around.body == .initializer) .returnFromInitializer keyword)
  | .classDecl name superclass methods, walk =>
      let inside := ClassKind.ofSuperclass superclass
      let named := ((walk.declare name).define name).checkInheritance name superclass
      let entered := (Expr.resolve? inside superclass named).enterClass superclass
      (Routine.resolveMethods inside methods entered).leaveClass superclass

def Stmt.resolveAll (around : Surroundings) : List Stmt → Walk → Walk
  | [], walk => walk
  | stmt :: rest, walk => Stmt.resolveAll around rest (stmt.resolve around walk)

/-- Parameters and body share one scope. -/
def Routine.resolve (around : Surroundings) : Routine → Walk → Walk
  | .mk _ parameters body, walk =>
      let entered := parameters.foldl (fun walk name => (walk.declare name).define name) walk.enter
      (Stmt.resolveAll around body entered).leave

def Routine.resolveMethods (inside : ClassKind) : List Routine → Walk → Walk
  | [], walk => walk
  | method :: rest, walk =>
      Routine.resolveMethods inside rest
        (method.resolve ⟨.ofMethod method.name, inside⟩ walk)
end

/-- What the walk over a whole program yields. -/
structure Resolution where
  distances : Distances
  problems : List Diagnostic
  deriving Repr, DecidableEq

def resolve (program : List Stmt) : Resolution :=
  let walk := Stmt.resolveAll ⟨.topLevel, .outside⟩ program .start
  ⟨walk.distances, walk.problems⟩

end Lox
