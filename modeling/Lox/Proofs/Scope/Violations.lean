import Lox.Proofs.Scope.Rules
import Lox.Proofs.Scope.Distances
/-! The walk reports what breaks the scope rules, and nothing else: at every place it knows the
innermost body, the innermost class and what the innermost scope declares, whatever it has
reported before. -/

namespace Lox

open Scope Walk

/-! ## What the walk knows at a place -/

namespace Place

def bodyKind (place : Place) : BodyKind :=
  match place.body? with
  | none => .topLevel
  | some (.function, _) => .function
  | some (.method, name) => .ofMethod name

def classKind (place : Place) : ClassKind :=
  match place.class? with
  | none => .outside
  | some superclass => .ofSuperclass superclass

def surroundings (place : Place) : Surroundings :=
  ⟨place.bodyKind, place.classKind⟩

variable {place : Place}

theorem declares_iff {names : List Token} (known : place.declared? = some names) {name : String} :
    place.Declares name ↔ ∃ earlier ∈ names, earlier.lexeme = name := by
  simp [Declares, known]

theorem surroundings_after (place : Place) (stmt : Stmt) :
    (place.after stmt).surroundings = place.surroundings := by
  rcases place with _ | ⟨surround, outer⟩
  · rfl
  · cases surround <;> rfl

theorem bodyKind_eq_topLevel : place.bodyKind = .topLevel ↔ place.body? = none := by
  unfold bodyKind
  rcases place.body? with _ | ⟨role, name⟩
  · simp
  · cases role
    · simp
    · simp only [BodyKind.ofMethod]
      split <;> simp

theorem bodyKind_eq_initializer : place.bodyKind = .initializer ↔
    ∃ found ∈ place.body?, found.1 = .method ∧ found.2.lexeme = initializerName := by
  unfold bodyKind
  rcases place.body? with _ | ⟨role, name⟩
  · simp
  · cases role
    · simp
    · simp only [BodyKind.ofMethod]
      split <;> simp [*]

end Place

/-- The names that are declared in a scope, which are ready. -/
def Readies (scope : Scope) (names : List Token) : Prop :=
  ∀ name, scope.find? name = if ∃ earlier ∈ names, earlier.lexeme = name then some .ready else none

theorem readies_empty : Readies ∅ [] := by
  intro name
  rw [if_neg (by simp)]
  rfl

theorem Readies.add {scope : Scope} {names : List Token} (readies : Readies scope names)
    (name : Token) : Readies (scope.set name.lexeme .ready) (names ++ [name]) := by
  intro other
  rw [Table.find?_set, readies other]
  by_cases same : other = name.lexeme
  · subst same
    simp
  · simp [same, Ne.symm same]

theorem Readies.statement {scope : Scope} {names : List Token} {earlier : List Stmt}
    (readies : Readies scope (names ++ earlier.filterMap Stmt.declared?)) (stmt : Stmt)
    (outer : List Scope) : ∃ grown, stmt.scopesAfter (scope :: outer) = grown :: outer ∧
      Readies grown (names ++ (earlier ++ [stmt]).filterMap Stmt.declared?) := by
  rw [Stmt.scopesAfter_eq, List.filterMap_append, List.filterMap_cons, List.filterMap_nil]
  cases stmt.declared? with
  | none => exact ⟨scope, rfl, by simpa using readies⟩
  | some name =>
      refine ⟨scope.set name.lexeme .ready, rfl, ?_⟩
      rw [← List.append_assoc]
      exact readies.add name

/-- The walk stands between statements, or between parameters, at this place. -/
inductive StandsAt : Place → List Scope → Prop
  | topLevel : StandsAt [] []
  | block {earlier outer scope scopes} :
      Readies scope (earlier.filterMap Stmt.declared?) →
      StandsAt (.block earlier :: outer) (scope :: scopes)
  | body {role name parameters earlier outer scope scopes} :
      Readies scope (parameters ++ earlier.filterMap Stmt.declared?) →
      StandsAt (.body role name parameters earlier :: outer) (scope :: scopes)

/-- The walk stands in an expression at this place: a variable that is not ready in the innermost
scope is one that is initialized there. -/
def Awaits (place : Place) (scopes : List Scope) : Prop :=
  ∀ name, scopes.head?.bind (·.find? name) = some .declared ↔ place.Initializes name

namespace StandsAt

variable {place : Place} {scopes : List Scope}

theorem after (stands : StandsAt place scopes) (stmt : Stmt) :
    StandsAt (place.after stmt) (stmt.scopesAfter scopes) := by
  cases stands with
  | topLevel =>
      rw [Stmt.scopesAfter_eq]
      cases stmt.declared? <;> exact .topLevel
  | @block earlier _ _ outer readies =>
      rcases @Readies.statement _ [] _ readies stmt outer with ⟨_, same, readies⟩
      rw [same]
      exact .block readies
  | @body _ _ _ _ _ _ outer readies =>
      rcases readies.statement stmt outer with ⟨_, same, readies⟩
      rw [same]
      exact .body readies

/-- What the innermost scope declares is known. -/
theorem innermost (stands : StandsAt place scopes) (name : String) :
    scopes.head?.bind (·.find? name) = if place.Declares name then some .ready else none := by
  cases stands with
  | topLevel => simp [Place.Declares, Place.declared?]
  | block readies | body readies =>
      refine (readies name).trans (if_congr ?_ rfl rfl)
      exact (Place.declares_iff rfl).symm

theorem nil_iff (stands : StandsAt place scopes) : scopes = [] ↔ place.declared? = none := by
  cases stands <;> simp [Place.declared?]

end StandsAt

/-! ## One spot -/

namespace Walk

/-- From `walk` to `after` these are the reports that are added. -/
def Adds (walk after : Walk) (reports : List Diagnostic) : Prop :=
  after.problems = walk.problems ++ reports

variable {walk middle after : Walk} {first second : List Diagnostic}

theorem Adds.trans (left : Adds walk middle first) (right : Adds middle after second) :
    Adds walk after (first ++ second) := by
  rw [Adds, right, left, List.append_assoc]

theorem adds_nil (same : after.problems = walk.problems) : Adds walk after [] := by
  rw [Adds, same, List.append_nil]

theorem report_adds (walk : Walk) (fault : ScopeFault) (blamed : Token) :
    Adds walk (walk.report fault blamed) [.scope fault blamed] :=
  rfl

theorem reportIf_adds (walk : Walk) {condition : Bool} {broken : Prop} [Decidable broken]
    (same : condition = true ↔ broken) (fault : ScopeFault) (blamed : Token) :
    Adds walk (walk.reportIf condition fault blamed)
      (if broken then [.scope fault blamed] else []) := by
  unfold reportIf
  by_cases holds : condition = true
  · rw [if_pos holds, if_pos (same.mp holds)]
    exact report_adds walk fault blamed
  · rw [if_neg holds, if_neg (mt same.mpr holds)]
    exact adds_nil rfl

theorem locate_adds (walk : Walk) (id : OccurrenceId) (name : Token) :
    Adds walk (walk.locate id name) [] := by
  refine adds_nil ?_
  unfold locate
  split <;> rfl

theorem bind_adds (walk : Walk) (name : String) (state : NameState) :
    Adds walk (walk.bind name state) [] := by
  refine adds_nil ?_
  unfold bind
  split <;> rfl

theorem returns_adds {place : Place} (walk : Walk) (keyword : Token) (value : Option Expr) :
    Adds walk
      ((walk.reportIf (place.bodyKind == .topLevel) .topLevelReturn keyword).reportIf
        (value.isSome && place.bodyKind == .initializer) .returnFromInitializer keyword)
      (Spot.violations ⟨place, .returns keyword value⟩) := by
  have outside : (place.bodyKind == .topLevel) = true ↔ place.body? = none :=
    beq_iff_eq.trans Place.bodyKind_eq_topLevel
  have inside : (value.isSome && place.bodyKind == .initializer) = true ↔ value.isSome = true ∧
      ∃ found ∈ place.body?, found.1 = .method ∧ found.2.lexeme = initializerName := by
    rw [Bool.and_eq_true, beq_iff_eq, Place.bodyKind_eq_initializer]
  rw [violations_returns]
  exact (reportIf_adds walk outside _ keyword).trans (reportIf_adds _ inside _ keyword)

theorem locateThis_adds {place : Place} (walk : Walk) (id : OccurrenceId) (keyword : Token) :
    Adds walk (walk.locateThis place.classKind id keyword)
      (Spot.violations ⟨place, .this keyword⟩) := by
  rw [violations_this, Place.classKind]
  cases place.class? with
  | none => exact report_adds walk _ keyword
  | some superclass => cases superclass <;> exact locate_adds walk id keyword

theorem locateSuper_adds {place : Place} (walk : Walk) (id : OccurrenceId) (keyword : Token) :
    Adds walk (walk.locateSuper place.classKind id keyword)
      (Spot.violations ⟨place, .super keyword⟩) := by
  rw [violations_super, Place.classKind]
  cases place.class? with
  | none =>
      have broken := (report_adds walk .superOutsideClass keyword).trans (locate_adds _ id keyword)
      simpa [locateSuper] using broken
  | some superclass =>
      cases superclass with
      | none =>
          have broken := (report_adds walk .superWithoutSuperclass keyword).trans
            (locate_adds _ id keyword)
          simpa [locateSuper, ClassKind.ofSuperclass] using broken
      | some _ => simpa [locateSuper, ClassKind.ofSuperclass] using locate_adds walk id keyword

theorem reads_adds {place : Place} {walk : Walk} (awaits : Awaits place walk.scopes)
    (id : OccurrenceId) (name : Token) :
    Adds walk ((walk.reportIf (walk.innermost? name.lexeme == some .declared)
        .readInOwnInitializer name).locate id name)
      (Spot.violations ⟨place, .reads name⟩) := by
  have waiting := beq_iff_eq.trans (awaits name.lexeme)
  have both := (reportIf_adds walk waiting .readInOwnInitializer name).trans
    (locate_adds _ id name)
  rwa [List.append_nil, ← violations_reads] at both

theorem inherits_adds {place : Place} (walk : Walk) (id : OccurrenceId) (name superclass : Token) :
    Adds walk (walk.checkInheritance name (some (.read id superclass)))
      (Spot.violations ⟨place, .inherits name superclass⟩) := by
  rw [violations_inherits]
  exact reportIf_adds walk beq_iff_eq _ superclass

theorem declare_adds {place : Place} {walk : Walk} (stands : StandsAt place walk.scopes)
    (name : Token) : Adds walk (walk.declare name) (Spot.violations ⟨place, .declares name⟩) := by
  rw [violations_declares]
  unfold declare innermost?
  rw [stands.innermost name.lexeme]
  by_cases known : place.Declares name.lexeme
  · rw [if_pos known, if_pos known]
    exact report_adds walk _ name
  · rw [if_neg known, if_neg known]
    exact bind_adds walk _ _

theorem named_adds {place : Place} {walk : Walk} (stands : StandsAt place walk.scopes)
    (name : Token) :
    Adds walk ((walk.declare name).define name) (Spot.violations ⟨place, .declares name⟩) := by
  have both := (declare_adds stands name).trans (bind_adds _ name.lexeme .ready)
  rwa [List.append_nil] at both

end Walk

section

variable {place : Place} {walk : Walk}

/-- Between statements every name is ready. -/
theorem StandsAt.ready {scopes : List Scope} (stands : StandsAt place scopes) (name : String) :
    scopes.head?.bind (·.find? name) ≠ some .declared := by
  rw [stands.innermost]
  split <;> simp

theorem StandsAt.not_initializes {scopes : List Scope} (stands : StandsAt place scopes)
    (name : String) : ¬ place.Initializes name := by
  cases stands <;> exact id

theorem StandsAt.awaits {scopes : List Scope} (stands : StandsAt place scopes) :
    Awaits place scopes :=
  fun name => iff_of_false (stands.ready name) (stands.not_initializes name)

/-- In an initializer the variable waits for its value, unless its scope had it before. -/
theorem StandsAt.initializer (stands : StandsAt place walk.scopes) (name : Token) :
    Awaits (.initializer name :: place) (walk.declare name).scopes := by
  intro other
  have innermost := stands.innermost name.lexeme
  unfold declare innermost?
  rw [innermost]
  by_cases known : place.Declares name.lexeme
  · rw [if_pos known]
    refine iff_of_false (stands.ready other) ?_
    rintro ⟨rfl, _, fresh⟩
    exact fresh known
  · rw [if_neg known, bind_scopes]
    cases scopes : walk.scopes with
    | nil =>
        rw [scopes] at stands
        have top := stands.nil_iff.mp rfl
        simp [bindIn, Place.Initializes, top]
    | cons scope outer =>
        rw [scopes] at stands
        have below : place.declared?.isSome = true :=
          Option.isSome_iff_ne_none.mpr (mt stands.nil_iff.mpr (List.cons_ne_nil _ _))
        by_cases same : other = name.lexeme
        · subst same
          simp [bindIn, Place.Initializes, below, known]
        · have ready := stands.ready other
          simp only [List.head?_cons, Option.bind_some] at ready
          simp [bindIn, Place.Initializes, Table.find?_set_other scope same, ready, Ne.symm same]

end

/-! ## Code -/

mutual
theorem Expr.resolve_adds (place : Place) : ∀ (expr : Expr) (walk : Walk),
    Awaits place walk.scopes →
      Adds walk (expr.resolve place.classKind walk) ((expr.spots place).flatMap Spot.violations)
  | .literal _, _, _ => adds_nil rfl
  | .group inner, walk, awaits => Expr.resolve_adds place inner walk awaits
  | .unary _ right, walk, awaits => Expr.resolve_adds place right walk awaits
  | .binary left _ right, walk, awaits | .logical left _ right, walk, awaits => by
      rw [Expr.spots, List.flatMap_append]
      refine (Expr.resolve_adds place left walk awaits).trans (Expr.resolve_adds place right _ ?_)
      rwa [Expr.resolve_scopes]
  | .read id name, walk, awaits => by
      rw [Expr.spots, List.flatMap_singleton]
      exact reads_adds awaits id name
  | .assign id name value, walk, awaits => by
      have both := (Expr.resolve_adds place value walk awaits).trans (locate_adds _ id name)
      rwa [List.append_nil] at both
  | .call callee _ arguments, walk, awaits => by
      rw [Expr.spots, List.flatMap_append]
      refine (Expr.resolve_adds place callee walk awaits).trans
        (Expr.resolveAll_adds place arguments _ ?_)
      rwa [Expr.resolve_scopes]
  | .get object _, walk, awaits => Expr.resolve_adds place object walk awaits
  | .set object _ value, walk, awaits => by
      rw [Expr.spots, List.flatMap_append]
      refine (Expr.resolve_adds place value walk awaits).trans (Expr.resolve_adds place object _ ?_)
      rwa [Expr.resolve_scopes]
  | .this id keyword, walk, _ => by
      rw [Expr.spots, List.flatMap_singleton]
      exact locateThis_adds walk id keyword
  | .super id keyword _, walk, _ => by
      rw [Expr.spots, List.flatMap_singleton]
      exact locateSuper_adds walk id keyword

theorem Expr.resolveAll_adds (place : Place) : ∀ (exprs : List Expr) (walk : Walk),
    Awaits place walk.scopes →
      Adds walk (Expr.resolveAll place.classKind exprs walk)
        ((Expr.allSpots place exprs).flatMap Spot.violations)
  | [], _, _ => adds_nil rfl
  | expr :: rest, walk, awaits => by
      rw [Expr.allSpots, List.flatMap_append]
      refine (Expr.resolve_adds place expr walk awaits).trans (Expr.resolveAll_adds place rest _ ?_)
      rwa [Expr.resolve_scopes]
end

theorem Expr.resolve?_adds (place : Place) (expr? : Option Expr) (walk : Walk)
    (awaits : Awaits place walk.scopes) :
    Adds walk (Expr.resolve? place.classKind expr? walk)
      ((Expr.spots? place expr?).flatMap Spot.violations) := by
  cases expr? with
  | none => exact adds_nil rfl
  | some expr => exact Expr.resolve_adds place expr walk awaits

theorem StandsAt.parameter {role : BodyRole} {name parameter : Token} {earlier : List Token}
    {outer : Place} {scopes : List Scope}
    (stands : StandsAt (.body role name earlier [] :: outer) scopes) :
    StandsAt (.body role name (earlier ++ [parameter]) [] :: outer)
      (bindIn scopes parameter.lexeme .ready) := by
  cases stands with
  | @body _ _ _ _ _ scope _ readies =>
      have grown : Readies (scope.set parameter.lexeme .ready)
          (earlier ++ [parameter] ++ List.filterMap Stmt.declared? []) := by
        rw [List.filterMap_nil, List.append_nil] at readies ⊢
        exact readies.add parameter
      exact .body grown

theorem parameters_adds {role : BodyRole} {name : Token} {outer : Place} {parameters : List Token} :
    ∀ {earlier : List Token} {walk : Walk},
      StandsAt (.body role name earlier [] :: outer) walk.scopes →
        let entered := parameters.foldl (fun walk name => (walk.declare name).define name) walk
        Adds walk entered ((outer.parameterSpots role name earlier parameters).flatMap
          Spot.violations) ∧
        StandsAt (.body role name (earlier ++ parameters) [] :: outer) entered.scopes := by
  induction parameters with
  | nil =>
      intro earlier walk stands
      rw [List.append_nil]
      exact ⟨adds_nil rfl, stands⟩
  | cons parameter rest induction =>
      intro earlier walk stands
      have next := @stands.parameter _ _ parameter _ _ _
      rw [← named_scopes] at next
      rcases induction next with ⟨adds, behind⟩
      rw [List.append_assoc, List.singleton_append] at behind
      exact ⟨(named_adds stands parameter).trans adds, behind⟩

theorem ProperSuperclass.cases {superclass : Option Expr} (proper : ProperSuperclass superclass) :
    superclass = none ∨ ∃ id name, superclass = some (.read id name) := by
  unfold ProperSuperclass at proper
  split at proper
  · exact .inl rfl
  · exact .inr ⟨_, _, rfl⟩
  · exact proper.elim

theorem superclass_adds {place : Place} {walk : Walk} (name : Token) {superclass : Option Expr}
    (proper : ProperSuperclass superclass) (awaits : Awaits place walk.scopes) :
    Adds walk
      (Expr.resolve? (.ofSuperclass superclass) superclass (walk.checkInheritance name superclass))
      ((place.superclassSpots name superclass).flatMap Spot.violations) := by
  rcases proper.cases with rfl | ⟨id, superclass, rfl⟩
  · exact adds_nil rfl
  · rw [Place.superclassSpots, List.flatMap_cons, Expr.spots, List.flatMap_singleton]
    refine (inherits_adds walk id name superclass).trans (reads_adds ?_ id superclass)
    rwa [checkInheritance_scopes]

mutual
theorem Stmt.resolve_adds (place : Place) : ∀ (stmt : Stmt) (walk : Walk), stmt.Proper →
    StandsAt place walk.scopes →
      Adds walk (stmt.resolve place.surroundings walk) ((stmt.spots place).flatMap Spot.violations)
  | .expression expr, walk, _, stands | .print expr, walk, _, stands =>
      Expr.resolve_adds place expr walk stands.awaits
  | .var name initial, walk, _, stands => by
      rw [Stmt.spots, List.flatMap_cons]
      have initialized := (Expr.resolve?_adds (.initializer name :: place) initial _
        (stands.initializer name)).trans (bind_adds _ name.lexeme .ready)
      rw [List.append_nil] at initialized
      exact (declare_adds stands name).trans initialized
  | .block body, walk, proper, _ =>
      Stmt.resolveAll_adds (.block [] :: place) body walk.enter proper (.block readies_empty)
  | .conditional condition thenBranch none, walk, proper, stands => by
      rw [Stmt.spots, List.flatMap_append]
      refine (Expr.resolve_adds place condition walk stands.awaits).trans
        (Stmt.resolve_adds place thenBranch _ proper.2.1 ?_)
      rwa [Expr.resolve_scopes]
  | .conditional condition thenBranch (some elseBranch), walk, proper, stands => by
      have tested : StandsAt place (condition.resolve place.classKind walk).scopes := by
        rwa [Expr.resolve_scopes]
      rw [Stmt.spots, List.flatMap_append, List.flatMap_append]
      refine (Expr.resolve_adds place condition walk stands.awaits).trans
        ((Stmt.resolve_adds place thenBranch _ proper.2.1.1 tested).trans
          (Stmt.resolve_adds place elseBranch _ proper.2.2.1 ?_))
      rwa [Stmt.resolve_scopes _ thenBranch _ proper.2.1.1,
        scopesAfter_of_not_declaration proper.2.1.2]
  | .loop condition body, walk, proper, stands => by
      rw [Stmt.spots, List.flatMap_append]
      refine (Expr.resolve_adds place condition walk stands.awaits).trans
        (Stmt.resolve_adds place body _ proper.2.1 ?_)
      rwa [Expr.resolve_scopes]
  | .function routine, walk, proper, stands => by
      rw [Stmt.spots, List.flatMap_cons]
      exact (named_adds stands routine.name).trans
        (Routine.resolve_adds .function place routine _ proper)
  | .returns keyword value, walk, _, stands => by
      rw [Stmt.spots, List.flatMap_cons]
      refine (returns_adds walk keyword value).trans (Expr.resolve?_adds place value _ ?_)
      rw [reportIf_scopes, reportIf_scopes]
      exact stands.awaits
  | .classDecl name superclass methods, walk, proper, stands => by
      rw [Stmt.spots, List.flatMap_cons, List.flatMap_append]
      refine (named_adds stands name).trans ?_
      -- The class is declared where its superclass is named.
      have awaits : Awaits place ((walk.declare name).define name).scopes := by
        rw [named_scopes]
        exact fun other => iff_of_false ((stands.after (.classDecl name superclass methods)).ready
          other) (stands.not_initializes other)
      refine (superclass_adds name proper.2.1 awaits).trans ?_
      have inside := Routine.resolveMethods_adds (.classBody superclass :: place) methods
        ((Expr.resolve? (.ofSuperclass superclass) superclass
          (((walk.declare name).define name).checkInheritance name superclass)).enterClass
            superclass) proper.2.2
      cases superclass <;> exact inside

theorem Stmt.resolveAll_adds (place : Place) : ∀ (stmts : List Stmt) (walk : Walk),
    Stmt.AllProper stmts → StandsAt place walk.scopes →
      Adds walk (Stmt.resolveAll place.surroundings stmts walk)
        ((Stmt.allSpots place stmts).flatMap Spot.violations)
  | [], _, _, _ => adds_nil rfl
  | stmt :: rest, walk, proper, stands => by
      have behind := Stmt.resolveAll_adds (place.after stmt) rest
        (stmt.resolve place.surroundings walk) proper.2
        (by
          rw [Stmt.resolve_scopes _ stmt walk proper.1]
          exact stands.after stmt)
      rw [Place.surroundings_after] at behind
      rw [Stmt.allSpots, List.flatMap_append]
      exact (Stmt.resolve_adds place stmt walk proper.1 stands).trans behind

theorem Routine.resolve_adds (role : BodyRole) (place : Place) :
    ∀ (routine : Routine) (walk : Walk), routine.Proper →
      Adds walk
        (routine.resolve (Place.surroundings (.body role routine.name [] [] :: place)) walk)
        ((routine.spots role place).flatMap Spot.violations)
  | .mk name parameters body, walk, proper => by
      rcases @parameters_adds role name place parameters [] walk.enter (.body readies_empty) with
        ⟨adds, stands⟩
      rw [Routine.spots, List.flatMap_append]
      exact adds.trans (Stmt.resolveAll_adds (.body role name parameters [] :: place) body _
        proper.2.2 stands)

theorem Routine.resolveMethods_adds (place : Place) : ∀ (methods : List Routine) (walk : Walk),
    Routine.AllProper methods →
      Adds walk (Routine.resolveMethods place.classKind methods walk)
        ((Routine.allSpots place methods).flatMap Spot.violations)
  | [], _, _ => adds_nil rfl
  | method :: rest, walk, proper => by
      rw [Routine.allSpots, List.flatMap_append]
      exact (Routine.resolve_adds .method place method walk proper.1).trans
        (Routine.resolveMethods_adds place rest _ proper.2)
end

/-! ## Programs -/

/-- For every source that can be read the walk reports, at each spot of the program, the rules that
are broken there and nothing else, in the order in which it comes across the spots. Whether a rule
is broken at a spot is told from the tree alone, so that no report suppresses or adds another. -/
theorem resolve_problems_exact (source : String) (firstId : OccurrenceId)
    (clean : (readSource source firstId).problems = []) :
    (resolve (readSource source firstId).statements).problems =
      (spots (readSource source firstId).statements).flatMap Spot.violations := by
  have proper := (readSource_declarations clean).proper (sentence_spelled source)
  exact Stmt.resolveAll_adds [] _ .start proper .topLevel

/-- The variable is reported in its own initializer, and the return for itself and for its value. -/
theorem resolve_problems_exact_ownInitializer :
    (readSource "{ var a = a; return this; }" 0).problems = [] ∧
      (resolve (readSource "{ var a = a; return this; }" 0).statements).problems =
        [.scope .readInOwnInitializer ⟨.identifier, "a", 1⟩,
          .scope .topLevelReturn ⟨.keyword .returnWord, "return", 1⟩,
          .scope .thisOutsideClass ⟨.keyword .thisWord, "this", 1⟩] := by
  have clean : (readSource "{ var a = a; return this; }" 0).problems = [] := by decide +kernel
  have statements : (readSource "{ var a = a; return this; }" 0).statements =
      [.block [.var ⟨.identifier, "a", 1⟩ (some (.read 0 ⟨.identifier, "a", 1⟩)),
        .returns ⟨.keyword .returnWord, "return", 1⟩
          (some (.this 1 ⟨.keyword .thisWord, "this", 1⟩))]] := by
    with_unfolding_all rfl
  refine ⟨clean, ?_⟩
  rw [resolve_problems_exact _ 0 clean, statements]
  decide

end Lox
