import Lox.Scope
import Lox.Proofs.Scope.Enclosure
/-! The scope rules. What breaks a rule is told from where it stands, and where it stands from
the tree alone: from the constructs around it, and from what is declared in them before it. -/

namespace Lox

/-! ## Places -/

/-- A construct around a place. Of the parameters of a body, and of the statements of a body or a
block, only those count that end before the place. -/
inductive Surround where
  | block (earlier : List Stmt)
  | body (role : BodyRole) (name : Token) (parameters : List Token) (earlier : List Stmt)
  | initializer (name : Token)
  | classBody (superclass : Option Expr)

/-- The constructs around a place, the innermost first. At the top level there are none. -/
abbrev Place := List Surround

namespace Place

/-- The innermost body around a place, and its name. -/
def body? : Place → Option (BodyRole × Token)
  | [] => none
  | .body role name _ _ :: _ => some (role, name)
  | _ :: outer => body? outer

/-- What the innermost class around a place has as its superclass. -/
def class? : Place → Option (Option Expr)
  | [] => none
  | .classBody superclass :: _ => some superclass
  | _ :: outer => class? outer

/-- What the innermost scope around a place declares before it. The top level is no scope. -/
def declared? : Place → Option (List Token)
  | [] => none
  | .block earlier :: _ => some (earlier.filterMap Stmt.declared?)
  | .body _ _ parameters earlier :: _ => some (parameters ++ earlier.filterMap Stmt.declared?)
  | .initializer _ :: outer => declared? outer
  | .classBody _ :: _ => some []

/-- The innermost scope around a place declares the name before it. -/
def Declares (place : Place) (name : String) : Prop :=
  ∃ names ∈ place.declared?, ∃ earlier ∈ names, earlier.lexeme = name

/-- The place is in the initializer of a local variable, which its scope declares for the first
time. -/
def Initializes : Place → String → Prop
  | .initializer initialized :: outer, name =>
      initialized.lexeme = name ∧ (declared? outer).isSome = true ∧ ¬ Declares outer name
  | _, _ => False

instance (place : Place) (name : String) : Decidable (place.Declares name) :=
  inferInstanceAs (Decidable (∃ names ∈ place.declared?, ∃ earlier ∈ names, earlier.lexeme = name))

instance (place : Place) (name : String) : Decidable (place.Initializes name) :=
  match place with
  | [] => inferInstanceAs (Decidable False)
  | .block _ :: _ => inferInstanceAs (Decidable False)
  | .body _ _ _ _ :: _ => inferInstanceAs (Decidable False)
  | .classBody _ :: _ => inferInstanceAs (Decidable False)
  | .initializer initialized :: outer =>
      inferInstanceAs (Decidable (initialized.lexeme = name ∧ (declared? outer).isSome = true ∧
        ¬ Declares outer name))

/-- The place behind a statement. -/
def after (place : Place) (stmt : Stmt) : Place :=
  match place with
  | .block earlier :: outer => .block (earlier ++ [stmt]) :: outer
  | .body role name parameters earlier :: outer =>
      .body role name parameters (earlier ++ [stmt]) :: outer
  | other => other

end Place

/-! ## Rules -/

/-- What a rule can be about. -/
inductive Site where
  | returns (keyword : Token) (value : Option Expr)
  | inherits (name superclass : Token)
  | reads (name : Token)
  | this (keyword : Token)
  | super (keyword : Token)
  | declares (name : Token)

/-- The token that is blamed. -/
def Site.blamed : Site → Token
  | returns keyword _ => keyword
  | inherits _ superclass => superclass
  | reads name => name
  | this keyword => keyword
  | super keyword => keyword
  | declares name => name

/-- The rules, each with what breaks it at a place. -/
def ScopeFault.Breaks (place : Place) : ScopeFault → Site → Prop
  | .topLevelReturn, .returns _ _ => place.body? = none
  | .returnFromInitializer, .returns _ value =>
      value.isSome = true ∧
        ∃ found ∈ place.body?, found.1 = .method ∧ found.2.lexeme = initializerName
  | .selfInheritance, .inherits name superclass => superclass.lexeme = name.lexeme
  | .readInOwnInitializer, .reads name => place.Initializes name.lexeme
  | .thisOutsideClass, .this _ => place.class?.isNone = true
  | .superOutsideClass, .super _ => place.class?.isNone = true
  | .superWithoutSuperclass, .super _ => ∃ superclass ∈ place.class?, superclass.isNone = true
  | .redeclared, .declares name => place.Declares name.lexeme
  | _, _ => False

instance (place : Place) (fault : ScopeFault) (site : Site) :
    Decidable (fault.Breaks place site) := by
  cases fault <;> cases site <;> unfold ScopeFault.Breaks <;> infer_instance

/-- Something that a rule can be about, and where it stands. -/
structure Spot where
  place : Place
  site : Site

def ScopeFault.all : List ScopeFault :=
  [.topLevelReturn, .returnFromInitializer, .selfInheritance, .readInOwnInitializer,
    .thisOutsideClass, .superOutsideClass, .superWithoutSuperclass, .redeclared]

theorem ScopeFault.all_exact : ScopeFault.all.Nodup ∧ ∀ fault, fault ∈ ScopeFault.all := by
  refine ⟨by decide, fun fault => ?_⟩
  cases fault <;> decide

/-- One diagnostic for each rule that is broken at a spot. -/
def Spot.violations (spot : Spot) : List Diagnostic :=
  ScopeFault.all.flatMap fun fault =>
    if fault.Breaks spot.place spot.site then [.scope fault spot.site.blamed] else []

/-! Which rules are about which spots. -/

section

variable {place : Place} {name keyword : Token}

theorem violations_returns {value : Option Expr} :
    Spot.violations ⟨place, .returns keyword value⟩ =
      (if place.body? = none then [.scope .topLevelReturn keyword] else []) ++
        if value.isSome = true ∧
            ∃ found ∈ place.body?, found.1 = .method ∧ found.2.lexeme = initializerName then
          [.scope .returnFromInitializer keyword]
        else [] := by
  simp [Spot.violations, ScopeFault.all, ScopeFault.Breaks, Site.blamed]

theorem violations_inherits {superclass : Token} :
    Spot.violations ⟨place, .inherits name superclass⟩ =
      if superclass.lexeme = name.lexeme then [.scope .selfInheritance superclass] else [] := by
  simp [Spot.violations, ScopeFault.all, ScopeFault.Breaks, Site.blamed]

theorem violations_reads : Spot.violations ⟨place, .reads name⟩ =
    if place.Initializes name.lexeme then [.scope .readInOwnInitializer name] else [] := by
  simp [Spot.violations, ScopeFault.all, ScopeFault.Breaks, Site.blamed]

theorem violations_this : Spot.violations ⟨place, .this keyword⟩ =
    if place.class?.isNone then [.scope .thisOutsideClass keyword] else [] := by
  simp [Spot.violations, ScopeFault.all, ScopeFault.Breaks, Site.blamed]

theorem violations_super : Spot.violations ⟨place, .super keyword⟩ =
    (if place.class?.isNone then [.scope .superOutsideClass keyword] else []) ++
      if ∃ superclass ∈ place.class?, superclass.isNone = true then
        [.scope .superWithoutSuperclass keyword]
      else [] := by
  simp [Spot.violations, ScopeFault.all, ScopeFault.Breaks, Site.blamed]

theorem violations_declares : Spot.violations ⟨place, .declares name⟩ =
    if place.Declares name.lexeme then [.scope .redeclared name] else [] := by
  simp [Spot.violations, ScopeFault.all, ScopeFault.Breaks, Site.blamed]

end

/-! ## The spots of a program

They stand in the order in which the walk comes across them: the value that is assigned to a
property before the object that has it, and all else as it is written. -/

mutual
def Expr.spots (place : Place) : Expr → List Spot
  | .literal _ => []
  | .group inner => inner.spots place
  | .unary _ right => right.spots place
  | .binary left _ right => left.spots place ++ right.spots place
  | .logical left _ right => left.spots place ++ right.spots place
  | .read _ name => [⟨place, .reads name⟩]
  | .assign _ _ value => value.spots place
  | .call callee _ arguments => callee.spots place ++ Expr.allSpots place arguments
  | .get object _ => object.spots place
  | .set object _ value => value.spots place ++ object.spots place
  | .this _ keyword => [⟨place, .this keyword⟩]
  | .super _ keyword _ => [⟨place, .super keyword⟩]

def Expr.allSpots (place : Place) : List Expr → List Spot
  | [] => []
  | expr :: rest => expr.spots place ++ Expr.allSpots place rest
end

def Expr.spots? (place : Place) : Option Expr → List Spot
  | none => []
  | some expr => expr.spots place

/-- The superclass is named in front of the class body, and read there. -/
def Place.superclassSpots (place : Place) (name : Token) : Option Expr → List Spot
  | some (.read id superclass) =>
      ⟨place, .inherits name superclass⟩ :: (Expr.read id superclass).spots place
  | _ => []

def Place.parameterSpots (outer : Place) (role : BodyRole) (name : Token) (earlier : List Token) :
    List Token → List Spot
  | [] => []
  | parameter :: rest =>
      ⟨.body role name earlier [] :: outer, .declares parameter⟩ ::
        parameterSpots outer role name (earlier ++ [parameter]) rest

mutual
def Stmt.spots (place : Place) : Stmt → List Spot
  | .expression expr => expr.spots place
  | .print expr => expr.spots place
  | .var name initial =>
      ⟨place, .declares name⟩ :: Expr.spots? (.initializer name :: place) initial
  | .block body => Stmt.allSpots (.block [] :: place) body
  | .conditional condition thenBranch none => condition.spots place ++ thenBranch.spots place
  | .conditional condition thenBranch (some elseBranch) =>
      condition.spots place ++ (thenBranch.spots place ++ elseBranch.spots place)
  | .loop condition body => condition.spots place ++ body.spots place
  | .function routine => ⟨place, .declares routine.name⟩ :: routine.spots .function place
  | .returns keyword value => ⟨place, .returns keyword value⟩ :: Expr.spots? place value
  | .classDecl name superclass methods =>
      ⟨place, .declares name⟩ ::
        (place.superclassSpots name superclass ++
          Routine.allSpots (.classBody superclass :: place) methods)

def Stmt.allSpots (place : Place) : List Stmt → List Spot
  | [] => []
  | stmt :: rest => stmt.spots place ++ Stmt.allSpots (place.after stmt) rest

def Routine.spots (role : BodyRole) (place : Place) : Routine → List Spot
  | .mk name parameters body =>
      place.parameterSpots role name [] parameters ++
        Stmt.allSpots (.body role name parameters [] :: place) body

def Routine.allSpots (place : Place) : List Routine → List Spot
  | [] => []
  | method :: rest => method.spots .method place ++ Routine.allSpots place rest
end

/-- All spots of a program. -/
def spots (program : List Stmt) : List Spot :=
  Stmt.allSpots [] program

end Lox
