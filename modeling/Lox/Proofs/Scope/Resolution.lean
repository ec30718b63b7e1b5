import Lox.Proofs.Scope.Balance
/-! What the walk over a program finds out. A walk that reports nothing shows that the
code keeps the scope rules, with the distances that the walk has recorded. -/

namespace Lox

open Scope Walk

section

variable {recorded : OccurrenceId → Option Nat → Prop}

/-! ## Expressions -/

namespace Scope

/-- Only in the innermost scope a variable may be without its value. -/
def Started (scopes : List Scope) : Prop :=
  ∀ name distance, locate? scopes name = some (distance, .declared) → distance = 0

/-- The scopes of the innermost class are among these. -/
def Surrounded (kind : ClassKind) (scopes : List Scope) : Prop :=
  match kind with
  | .outside => True
  | .plain => ∃ distance, Receives scopes distance
  | .derived => ∃ distance, Inherits scopes distance

theorem locate?_zero {scopes : List Scope} {name : String} {state : NameState}
    (found : locate? scopes name = some (0, state)) :
    scopes.head?.bind (·.find? name) = some state := by
  cases scopes with
  | nil => cases found
  | cons scope outer =>
      rw [locate?] at found
      split at found
      · rename_i own equal
        cases found
        exact equal
      · rcases Option.map_eq_some_iff.mp found with ⟨_, _, equal⟩
        cases equal

theorem Settled.started {scopes : List Scope} (settled : Settled scopes) : Started scopes :=
  fun name distance found => absurd found (settled name distance)

theorem Surrounded.receives {kind : ClassKind} {scopes : List Scope}
    (surrounded : Surrounded kind scopes) (inside : kind ≠ .outside) :
    ∃ distance, Receives scopes distance := by
  cases kind with
  | outside => exact absurd rfl inside
  | plain => exact surrounded
  | derived =>
      rcases surrounded with ⟨distance, inherits⟩
      exact ⟨distance, inherits.1⟩

end Scope

namespace Walk

theorem distance?_eq (walk : Walk) (name : String) :
    walk.distance? name = Scope.distance? walk.scopes name :=
  Scope.findIdx?_contains walk.scopes name

theorem reportIf_false {walk : Walk} {condition : Bool} {fault : ScopeFault} {blamed : Token}
    (clean : (walk.reportIf condition fault blamed).problems = []) : condition = false := by
  cases condition with
  | false => rfl
  | true => exact absurd clean (report_problems walk fault blamed)

/-- What is recorded for an occurrence that comes for the first time. -/
theorem locate_records {walk : Walk} {id : OccurrenceId} {name : Token}
    (keeps : Keeps recorded [id] walk (walk.locate id name)) :
    recorded id (Scope.distance? walk.scopes name.lexeme) := by
  have known := keeps.agrees id List.mem_cons_self
  have fresh := keeps.fresh id List.mem_cons_self
  unfold locate at known
  rw [distance?_eq] at known
  cases found : Scope.distance? walk.scopes name.lexeme with
  | none =>
      rw [found] at known
      rw [← fresh]
      exact known
  | some distance =>
      rw [found] at known
      simpa using known

end Walk

theorem Expr.scoped_of_read (kind : ClassKind) {id : OccurrenceId} {name : Token} {walk : Walk}
    (clean : ((Expr.read id name).resolve kind walk).problems = []) (started : Started walk.scopes)
    (keeps : Keeps recorded [id] walk ((Expr.read id name).resolve kind walk)) :
    (Expr.read id name).Scoped recorded walk.scopes := by
  rw [Expr.resolve] at clean keeps
  have reported := reportIf_onward walk (walk.innermost? name.lexeme == some .declared)
    .readInOwnInitializer name
  have kept := keeps.between reported (.refl _)
  have known := locate_records kept
  rw [reportIf_scopes] at known
  refine ⟨known, ?_⟩
  intro distance found
  have innermost := started _ _ found
  subst innermost
  have ready := reportIf_false ((locate_onward _ id name).clean clean)
  rw [innermost?, locate?_zero found] at ready
  cases ready

mutual
/-- An expression in which the walk finds no fault keeps the rules. -/
theorem Expr.scoped_of_resolve (kind : ClassKind) :
    ∀ (expr : Expr) (walk : Walk), (expr.resolve kind walk).problems = [] → expr.Proper →
      Surrounded kind walk.scopes → Started walk.scopes →
      Keeps recorded expr.occurrences walk (expr.resolve kind walk) →
      expr.Scoped recorded walk.scopes
  | .literal _, _, _, _, _, _, _ => trivial
  | .group inner, walk, clean, proper, surrounded, started, keeps =>
      Expr.scoped_of_resolve kind inner walk clean proper surrounded started keeps
  | .unary _ right, walk, clean, proper, surrounded, started, keeps =>
      Expr.scoped_of_resolve kind right walk clean proper surrounded started keeps
  | .binary left _ right, walk, clean, proper, surrounded, started, keeps
  | .logical left _ right, walk, clean, proper, surrounded, started, keeps => by
      have first := Expr.resolve_onward kind left walk
      have second := Expr.resolve_onward kind right (left.resolve kind walk)
      have same := Expr.resolve_scopes kind left walk
      have rightScoped := Expr.scoped_of_resolve kind right _ clean proper.2
        (by rw [same]; exact surrounded) (by rw [same]; exact started) (keeps.second first)
      rw [same] at rightScoped
      exact ⟨Expr.scoped_of_resolve kind left walk (second.clean clean) proper.1 surrounded started
        (keeps.first second), rightScoped⟩
  | .read _ _, _, clean, _, _, started, keeps => Expr.scoped_of_read kind clean started keeps
  | .assign id name value, walk, clean, proper, surrounded, started, keeps => by
      have first := Expr.resolve_onward kind value walk
      have second := locate_onward (value.resolve kind walk) id name
      have swapped : Keeps recorded (value.occurrences ++ [id]) walk _ :=
        keeps.perm (List.perm_append_singleton id _).symm
      have known := locate_records (swapped.second first)
      rw [Expr.resolve_scopes] at known
      exact ⟨proper.1, Expr.scoped_of_resolve kind value walk (second.clean clean) proper.2
        surrounded started (swapped.first second), known⟩
  | .call callee _ arguments, walk, clean, proper, surrounded, started, keeps => by
      have first := Expr.resolve_onward kind callee walk
      have second := Expr.resolveAll_onward kind arguments (callee.resolve kind walk)
      have same := Expr.resolve_scopes kind callee walk
      have argumentsScoped := Expr.allScoped_of_resolve kind arguments _ clean proper.2
        (by rw [same]; exact surrounded) (by rw [same]; exact started) (keeps.second first)
      rw [same] at argumentsScoped
      exact ⟨Expr.scoped_of_resolve kind callee walk (second.clean clean) proper.1 surrounded
        started (keeps.first second), argumentsScoped⟩
  | .get object _, walk, clean, proper, surrounded, started, keeps =>
      Expr.scoped_of_resolve kind object walk clean proper surrounded started keeps
  | .set object _ value, walk, clean, proper, surrounded, started, keeps => by
      have first := Expr.resolve_onward kind value walk
      have second := Expr.resolve_onward kind object (value.resolve kind walk)
      have same := Expr.resolve_scopes kind value walk
      have swapped : Keeps recorded (value.occurrences ++ object.occurrences) walk _ :=
        keeps.perm List.perm_append_comm
      have objectScoped := Expr.scoped_of_resolve kind object _ clean proper.1
        (by rw [same]; exact surrounded) (by rw [same]; exact started) (swapped.second first)
      rw [same] at objectScoped
      exact ⟨objectScoped, Expr.scoped_of_resolve kind value walk (second.clean clean) proper.2
        surrounded started (swapped.first second)⟩
  | .this id keyword, walk, clean, proper, surrounded, _, keeps => by
      rw [Expr.resolve] at clean keeps
      have inside : kind ≠ .outside := by
        rintro rfl
        exact report_problems walk _ _ clean
      have located : walk.locateThis kind id keyword = walk.locate id keyword := by
        cases kind with
        | outside => exact absurd rfl inside
        | plain | derived => rfl
      rw [located] at keeps
      rcases surrounded.receives inside with ⟨distance, receives⟩
      have known := locate_records keeps
      have spelled : keyword.lexeme = thisName := proper
      rw [spelled, Scope.distance?, receives] at known
      exact ⟨spelled, distance, receives, known⟩
  | .super id keyword method, walk, clean, proper, surrounded, _, keeps => by
      rw [Expr.resolve] at clean keeps
      cases kind with
      | outside | plain =>
          exact absurd ((locate_onward _ id keyword).clean clean) (report_problems walk _ _)
      | derived =>
          rcases surrounded with ⟨distance, inherits⟩
          have known := locate_records keeps
          have spelled : keyword.lexeme = superName := proper
          rw [spelled, Scope.distance?, inherits.2] at known
          exact ⟨spelled, distance, inherits, known⟩

theorem Expr.allScoped_of_resolve (kind : ClassKind) :
    ∀ (exprs : List Expr) (walk : Walk), (Expr.resolveAll kind exprs walk).problems = [] →
      Expr.AllProper exprs → Surrounded kind walk.scopes → Started walk.scopes →
      Keeps recorded (Expr.allOccurrences exprs) walk (Expr.resolveAll kind exprs walk) →
      Expr.AllScoped recorded walk.scopes exprs
  | [], _, _, _, _, _, _ => trivial
  | expr :: rest, walk, clean, proper, surrounded, started, keeps => by
      have first := Expr.resolve_onward kind expr walk
      have second := Expr.resolveAll_onward kind rest (expr.resolve kind walk)
      have same := Expr.resolve_scopes kind expr walk
      have restScoped := Expr.allScoped_of_resolve kind rest _ clean proper.2
        (by rw [same]; exact surrounded) (by rw [same]; exact started) (keeps.second first)
      rw [same] at restScoped
      exact ⟨Expr.scoped_of_resolve kind expr walk (second.clean clean) proper.1 surrounded started
        (keeps.first second), restScoped⟩
end

/-! ## Statements -/

namespace Scope

/-- The scopes around a place where a statement can stand. -/
structure Ready (kind : ClassKind) (scopes : List Scope) : Prop where
  surrounded : Surrounded kind scopes
  settled : Settled scopes

namespace Ready

variable {kind : ClassKind} {scopes : List Scope}

theorem enter (ready : Ready kind scopes) : Ready kind (∅ :: scopes) := by
  refine ⟨?_, ready.settled.enter⟩
  have surrounded := ready.surrounded
  cases kind with
  | outside => trivial
  | plain =>
      rcases surrounded with ⟨distance, receives⟩
      exact ⟨distance + 1, receives.enter⟩
  | derived =>
      rcases surrounded with ⟨distance, inherits⟩
      exact ⟨distance + 1, inherits.enter⟩

theorem surrounded_bindIn (ready : Ready kind scopes) {name : Token} (ordinary : name.Ordinary)
    (state : NameState) : Surrounded kind (bindIn scopes name.lexeme state) := by
  have surrounded := ready.surrounded
  cases kind with
  | outside => trivial
  | plain =>
      rcases surrounded with ⟨distance, receives⟩
      exact ⟨distance, receives.bindIn ordinary state⟩
  | derived =>
      rcases surrounded with ⟨distance, inherits⟩
      exact ⟨distance, inherits.bindIn ordinary state⟩

theorem bindIn (ready : Ready kind scopes) {name : Token} (ordinary : name.Ordinary) :
    Ready kind (bindIn scopes name.lexeme .ready) :=
  ⟨ready.surrounded_bindIn ordinary .ready, ready.settled.bindIn name.lexeme⟩

/-- A variable is declared while its initializer is gone through. -/
theorem started (ready : Ready kind scopes) (name : String) :
    Started (Scope.bindIn scopes name .declared) := by
  intro other distance found
  by_cases equal : other = name
  · subst equal
    cases scopes with
    | nil => cases found
    | cons scope outer =>
        rw [locate?_bindIn_same] at found
        cases found
        rfl
  · rw [locate?_bindIn_other scopes equal] at found
    exact absurd found (ready.settled other distance)

theorem parameters {scope : Scope} (names : List Token)
    (ready : Ready kind (scope :: scopes)) (ordinary : ∀ name ∈ names, name.Ordinary) :
    Ready kind (names.foldl (fun scope name => scope.set name.lexeme .ready) scope :: scopes) := by
  induction names generalizing scope with
  | nil => exact ready
  | cons name names induction =>
      exact induction (ready.bindIn (ordinary name List.mem_cons_self))
        fun other member => ordinary other (List.mem_cons_of_mem _ member)

theorem next (ready : Ready kind scopes) {stmt : Stmt} (proper : stmt.Proper) :
    Ready kind (stmt.scopesAfter scopes) := by
  cases stmt with
  | var => exact ready.bindIn proper.1
  | function routine =>
      cases routine
      exact ready.bindIn proper.1
  | classDecl => exact ready.bindIn proper.1
  | _ => exact ready

/-- Around the methods of a class. -/
theorem ofClass (ready : Ready kind scopes) (superclass : Option Expr) :
    Ready (.ofSuperclass superclass) (ofClass scopes superclass) := by
  cases superclass with
  | none =>
      refine ⟨⟨0, locate?_bindIn_same thisName .ready⟩, ?_⟩
      exact ready.settled.enter.bindIn thisName
  | some _ =>
      refine ⟨⟨0, locate?_bindIn_same thisName .ready, ?_⟩, ?_⟩
      · have different : superName ≠ thisName := by decide
        show locate? (Scope.bindIn (∅ :: Scope.bindIn (∅ :: scopes) superName .ready) thisName
          .ready) superName = some (0 + 1, .ready)
        rw [locate?_bindIn_other _ different .ready, locate?_enter]
        exact congrArg (Option.map _) (locate?_bindIn_same superName .ready)
      · exact (ready.settled.enter.bindIn superName).enter.bindIn thisName

end Ready

end Scope

namespace Walk

theorem declare_free {walk : Walk} {name : Token} (clean : (walk.declare name).problems = []) :
    Free walk.scopes name.lexeme := by
  unfold declare at clean
  split at clean
  · exact absurd clean (report_problems walk _ _)
  · rename_i free
    intro scope member
    rw [innermost?, member] at free
    exact free

theorem declare_scopes {walk : Walk} {name : Token} (clean : (walk.declare name).problems = []) :
    (walk.declare name).scopes = bindIn walk.scopes name.lexeme .declared := by
  unfold declare at clean ⊢
  split at clean
  · exact absurd clean (report_problems walk _ _)
  · exact bind_scopes walk _ _

/-- Declared parameters are distinct. -/
theorem declareAll_distinct {names : List Token} {walk : Walk} {scope : Scope}
    {outer : List Scope} (scopes : walk.scopes = scope :: outer)
    (clean : (names.foldl (fun walk name => (walk.declare name).define name) walk).problems = []) :
    (names.map Token.lexeme).Nodup ∧ ∀ name ∈ names, scope.find? name.lexeme = none := by
  induction names generalizing walk scope with
  | nil => exact ⟨List.nodup_nil, nofun⟩
  | cons name names induction =>
      have declared := (bind_onward _ _ _).clean
        ((declareAll_onward ((walk.declare name).define name) names).clean clean)
      have free := declare_free declared
      rw [scopes] at free
      have absent := free scope rfl
      have named := named_scopes walk name
      rw [scopes] at named
      rcases induction named clean with ⟨distinct, others⟩
      refine ⟨?_, ?_⟩
      · rw [List.map_cons, List.nodup_cons]
        refine ⟨?_, distinct⟩
        intro member
        rcases List.mem_map.mp member with ⟨other, inside, equal⟩
        have unseen := others other inside
        rw [equal, Table.find?_set_same] at unseen
        cases unseen
      · intro other member
        cases member with
        | head => exact absent
        | tail _ member =>
            have unseen := others other member
            rw [Table.find?_set] at unseen
            split at unseen
            · cases unseen
            · exact unseen

end Walk

theorem Expr.scoped?_of_resolve (kind : ClassKind) (expr? : Option Expr) (walk : Walk)
    (clean : (Expr.resolve? kind expr? walk).problems = []) (proper : Expr.Proper? expr?)
    (surrounded : Surrounded kind walk.scopes) (started : Started walk.scopes)
    (keeps : Keeps recorded (Expr.occurrences? expr?) walk (Expr.resolve? kind expr? walk)) :
    Expr.Scoped? recorded walk.scopes expr? := by
  cases expr? with
  | none => trivial
  | some expr => exact Expr.scoped_of_resolve kind expr walk clean proper surrounded started keeps

/-- A superclass is looked up where the class is named already, but it has another name. -/
theorem Expr.scoped_of_superclass {kind : ClassKind} {walk named : Walk} {name : Token}
    {superclass : Option Expr} (clean : (Expr.resolve? kind superclass
      (named.checkInheritance name superclass)).problems = []) (proper : ProperSuperclass superclass)
    (settled : Settled walk.scopes) (scopes : named.scopes = bindIn walk.scopes name.lexeme .ready)
    (keeps : Keeps recorded (Expr.occurrences? superclass) (named.checkInheritance name superclass)
      (Expr.resolve? kind superclass (named.checkInheritance name superclass))) :
    Expr.Scoped? recorded walk.scopes superclass := by
  cases superclass with
  | none => trivial
  | some expr =>
      cases expr with
      | read id parent =>
          have same : named.checkInheritance name (some (.read id parent)) =
              named.reportIf (parent.lexeme == name.lexeme) .selfInheritance parent := rfl
          have checked := (Expr.resolve?_onward kind (some (.read id parent)) _).clean clean
          rw [same] at checked
          have different := beq_eq_false_iff_ne.mp (reportIf_false checked)
          have started : Started (named.checkInheritance name (some (.read id parent))).scopes := by
            rw [checkInheritance_scopes, scopes]
            exact (settled.bindIn name.lexeme).started
          have found := Expr.scoped_of_read kind clean started keeps
          rw [checkInheritance_scopes, scopes, Expr.Scoped, Scope.distance?,
            locate?_bindIn_other _ different] at found
          exact found
      | _ => exact proper.elim

/-- A class declaration keeps the rules if its methods do. -/
theorem Stmt.scoped_of_classDecl (around : Surroundings) {name : Token} {superclass : Option Expr}
    {methods : List Routine} {walk : Walk}
    (clean : ((Stmt.classDecl name superclass methods).resolve around walk).problems = [])
    (proper : (Stmt.classDecl name superclass methods).Proper)
    (ready : Ready around.classKind walk.scopes)
    (keeps : Keeps recorded (Stmt.classDecl name superclass methods).occurrences walk
      ((Stmt.classDecl name superclass methods).resolve around walk))
    (methodsHold : ∀ walk : Walk,
      (Routine.resolveMethods (.ofSuperclass superclass) methods walk).problems = [] →
      Ready (.ofSuperclass superclass) walk.scopes →
      Keeps recorded (Routine.allOccurrences methods) walk
        (Routine.resolveMethods (.ofSuperclass superclass) methods walk) →
      Routine.AllScoped recorded walk.scopes methods) :
    (Stmt.classDecl name superclass methods).Scoped recorded walk.scopes := by
  rcases keeps.ofClass with ⟨superclassKept, methodsKept⟩
  have named := named_scopes walk name
  have checked := checkInheritance_scopes ((walk.declare name).define name) name superclass
  have entered := Expr.resolve?_scopes (.ofSuperclass superclass) superclass
    (((walk.declare name).define name).checkInheritance name superclass)
  rw [checked, named] at entered
  have methodsReady := (ready.bindIn proper.1).ofClass superclass
  rw [← entered, ← enterClass_scopes] at methodsReady
  -- backwards through the steps of the walk, none of which has reported anything
  have methodsClean := (leaveClass_onward _ superclass).clean clean
  have superclassClean := (enterClass_onward _ superclass).clean
    ((Routine.resolveMethods_onward _ methods _).clean methodsClean)
  have declaredClean := (bind_onward _ _ _).clean ((checkInheritance_onward _ name superclass).clean
    ((Expr.resolve?_onward _ superclass _).clean superclassClean))
  have methodsScoped := methodsHold _ methodsClean methodsReady methodsKept
  rw [enterClass_scopes, entered] at methodsScoped
  exact ⟨⟨proper.1, declare_free declaredClean⟩, Expr.scoped_of_superclass superclassClean
    proper.2.1 ready.settled named superclassKept, methodsScoped⟩

mutual
/-- A statement in which the walk finds no fault keeps the rules. -/
theorem Stmt.scoped_of_resolve (around : Surroundings) :
    ∀ (stmt : Stmt) (walk : Walk), (stmt.resolve around walk).problems = [] → stmt.Proper →
      Ready around.classKind walk.scopes →
      Keeps recorded stmt.occurrences walk (stmt.resolve around walk) →
      stmt.Scoped recorded walk.scopes
  | .expression expr, walk, clean, proper, ready, keeps
  | .print expr, walk, clean, proper, ready, keeps =>
      Expr.scoped_of_resolve around.classKind expr walk clean proper ready.surrounded
        ready.settled.started keeps
  | .var name initial, walk, clean, proper, ready, keeps => by
      have onward := Expr.resolve?_onward around.classKind initial (walk.declare name)
      have finished := bind_onward (Expr.resolve? around.classKind initial (walk.declare name))
        name.lexeme .ready
      have resolved := finished.clean clean
      have unreported := onward.clean resolved
      have declared := declare_scopes unreported
      have kept := keeps.between (declare_onward walk name) finished
      have started := ready.started name.lexeme
      have surrounded := ready.surrounded_bindIn proper.1 .declared
      have holds := Expr.scoped?_of_resolve around.classKind initial (walk.declare name) resolved
        proper.2 (by rw [declared]; exact surrounded) (by rw [declared]; exact started) kept
      rw [declared] at holds
      exact ⟨⟨proper.1, declare_free unreported⟩, holds⟩
  | .block body, walk, clean, proper, ready, keeps =>
      Stmt.allScoped_of_resolve around body walk.enter clean proper ready.enter
        (keeps.between (enter_onward walk) (leave_onward _))
  | .conditional condition thenBranch none, walk, clean, proper, ready, keeps => by
      have first := Expr.resolve_onward around.classKind condition walk
      have second := Stmt.resolve_onward around thenBranch (condition.resolve around.classKind walk)
      have same := Expr.resolve_scopes around.classKind condition walk
      have tests := Expr.scoped_of_resolve around.classKind condition walk (second.clean clean)
        proper.1 ready.surrounded ready.settled.started (keeps.first second)
      have holds := Stmt.scoped_of_resolve around thenBranch _ clean proper.2.1
        (by rw [same]; exact ready) (keeps.second first)
      rw [same] at holds
      exact ⟨tests, holds, proper.2.2⟩
  | .conditional condition thenBranch (some elseBranch), walk, clean, proper, ready, keeps => by
      have first := Expr.resolve_onward around.classKind condition walk
      have second := Stmt.resolve_onward around thenBranch (condition.resolve around.classKind walk)
      have third := Stmt.resolve_onward around elseBranch
        (thenBranch.resolve around (condition.resolve around.classKind walk))
      have same := Expr.resolve_scopes around.classKind condition walk
      have after := Stmt.resolve_scopes around thenBranch
        (condition.resolve around.classKind walk) proper.2.1.1
      rw [scopesAfter_of_not_declaration proper.2.1.2, same] at after
      have branches := keeps.second first
      have thenClean := third.clean clean
      have tests := Expr.scoped_of_resolve around.classKind condition walk
        (second.clean thenClean) proper.1 ready.surrounded ready.settled.started
        (keeps.first (second.trans third))
      have thenHolds := Stmt.scoped_of_resolve around thenBranch _ thenClean proper.2.1.1
        (by rw [same]; exact ready) (branches.first third)
      rw [same] at thenHolds
      have elseHolds := Stmt.scoped_of_resolve around elseBranch _ clean proper.2.2.1
        (by rw [after]; exact ready) (branches.second second)
      rw [after] at elseHolds
      exact ⟨tests, ⟨thenHolds, proper.2.1.2⟩, elseHolds, proper.2.2.2⟩
  | .loop condition body, walk, clean, proper, ready, keeps => by
      have first := Expr.resolve_onward around.classKind condition walk
      have second := Stmt.resolve_onward around body (condition.resolve around.classKind walk)
      have same := Expr.resolve_scopes around.classKind condition walk
      have tests := Expr.scoped_of_resolve around.classKind condition walk (second.clean clean)
        proper.1 ready.surrounded ready.settled.started (keeps.first second)
      have holds := Stmt.scoped_of_resolve around body _ clean proper.2.1
        (by rw [same]; exact ready) (keeps.second first)
      rw [same] at holds
      exact ⟨tests, holds, proper.2.2⟩
  | .function routine, walk, clean, proper, ready, keeps => by
      have onward := Routine.resolve_onward { around with body := .function } routine
        ((walk.declare routine.name).define routine.name)
      have declared := (bind_onward _ _ _).clean (onward.clean clean)
      have named := named_scopes walk routine.name
      have ordinary : routine.name.Ordinary := by
        cases routine
        exact proper.1
      have kept := keeps.between (named_onward walk routine.name) (.refl _)
      have holds := Routine.scoped_of_resolve { around with body := .function } routine _ clean
        proper (by rw [named]; exact ready.bindIn ordinary) kept
      rw [named] at holds
      exact ⟨⟨ordinary, declare_free declared⟩, holds⟩
  | .returns keyword value, walk, clean, proper, ready, keeps => by
      have reported := ((reportIf_onward walk (around.body == .topLevel) .topLevelReturn
        keyword).andThen (reportIf_onward _ (value.isSome && around.body == .initializer)
          .returnFromInitializer keyword))
      have kept := keeps.between reported (.refl _)
      have holds := Expr.scoped?_of_resolve around.classKind value _ clean proper
        (by rw [reportIf_scopes, reportIf_scopes]; exact ready.surrounded)
        (by rw [reportIf_scopes, reportIf_scopes]; exact ready.settled.started) kept
      rw [reportIf_scopes, reportIf_scopes] at holds
      exact holds
  | .classDecl name superclass methods, walk, clean, proper, ready, keeps =>
      Stmt.scoped_of_classDecl around clean proper ready keeps fun walk clean ready keeps =>
        Routine.allScoped_of_resolve _ methods walk clean proper.2.2 ready keeps

theorem Stmt.allScoped_of_resolve (around : Surroundings) :
    ∀ (stmts : List Stmt) (walk : Walk), (Stmt.resolveAll around stmts walk).problems = [] →
      Stmt.AllProper stmts → Ready around.classKind walk.scopes →
      Keeps recorded (Stmt.allOccurrences stmts) walk (Stmt.resolveAll around stmts walk) →
      Stmt.AllScoped recorded walk.scopes stmts
  | [], _, _, _, _, _ => trivial
  | stmt :: rest, walk, clean, proper, ready, keeps => by
      have first := Stmt.resolve_onward around stmt walk
      have second := Stmt.resolveAll_onward around rest (stmt.resolve around walk)
      have after := Stmt.resolve_scopes around stmt walk proper.1
      have holds := Stmt.scoped_of_resolve around stmt walk (second.clean clean) proper.1 ready
        (keeps.first second)
      have others := Stmt.allScoped_of_resolve around rest _ clean proper.2
        (by rw [after]; exact ready.next proper.1) (keeps.second first)
      rw [after] at others
      exact ⟨holds, others⟩

theorem Routine.scoped_of_resolve (around : Surroundings) :
    ∀ (routine : Routine) (walk : Walk), (routine.resolve around walk).problems = [] →
      routine.Proper → Ready around.classKind walk.scopes →
      Keeps recorded routine.occurrences walk (routine.resolve around walk) →
      routine.Scoped recorded walk.scopes
  | .mk _ parameters body, walk, clean, proper, ready, keeps => by
      have entered := (enter_onward walk).andThen (declareAll_onward walk.enter parameters)
      have kept := keeps.between entered (leave_onward _)
      have declared := (Stmt.resolveAll_onward around body _).clean clean
      have scopes := @declareAll_scopes parameters walk.enter ∅ walk.scopes rfl
      have bodyReady := ready.enter.parameters parameters proper.2.1
      have holds := Stmt.allScoped_of_resolve around body _ clean proper.2.2
        (by rw [scopes]; exact bodyReady) kept
      rw [scopes] at holds
      exact ⟨ready.settled, proper.2.1, (declareAll_distinct rfl declared).1, holds⟩

theorem Routine.allScoped_of_resolve (inside : ClassKind) :
    ∀ (methods : List Routine) (walk : Walk),
      (Routine.resolveMethods inside methods walk).problems = [] → Routine.AllProper methods →
      Ready inside walk.scopes →
      Keeps recorded (Routine.allOccurrences methods) walk
        (Routine.resolveMethods inside methods walk) →
      Routine.AllScoped recorded walk.scopes methods
  | [], _, _, _, _, _ => trivial
  | method :: rest, walk, clean, proper, ready, keeps => by
      have first := Routine.resolve_onward ⟨.ofMethod method.name, inside⟩ method walk
      have second := Routine.resolveMethods_onward inside rest
        (method.resolve ⟨.ofMethod method.name, inside⟩ walk)
      have same := Routine.resolve_scopes ⟨.ofMethod method.name, inside⟩ method walk proper.1
      have holds := Routine.scoped_of_resolve ⟨.ofMethod method.name, inside⟩ method walk
        (second.clean clean) proper.1 ready (keeps.first second)
      have others := Routine.allScoped_of_resolve inside rest _ clean proper.2
        (by rw [same]; exact ready) (keeps.second first)
      rw [same] at others
      exact ⟨holds, others⟩
end

end

/-! ## Programs -/

/-- A program without a fault keeps the rules, with the distances of its resolution. -/
theorem resolve_scoped {program : List Stmt} (clean : (resolve program).problems = [])
    (proper : Stmt.AllProper program) (nodup : (Stmt.allOccurrences program).Nodup) :
    Stmt.AllScoped (fun id distance? => id ∈ Stmt.allOccurrences program ∧
      (resolve program).distances.find? id = distance?) [] program := by
  have keeps : Keeps (fun id distance? => id ∈ Stmt.allOccurrences program ∧
      (resolve program).distances.find? id = distance?) (Stmt.allOccurrences program) .start
      (Stmt.resolveAll ⟨.topLevel, .outside⟩ program .start) :=
    ⟨nodup, fun _ _ => rfl, fun _ member => ⟨member, rfl⟩⟩
  exact Stmt.allScoped_of_resolve ⟨.topLevel, .outside⟩ program .start clean proper
    ⟨trivial, settled_nil⟩ keeps

/-- Distances are recorded for the occurrences of the program only. -/
theorem resolve_distances_others {program : List Stmt} {id : OccurrenceId}
    (absent : id ∉ Stmt.allOccurrences program) : (resolve program).distances.find? id = none :=
  (Stmt.resolveAll_onward ⟨.topLevel, .outside⟩ program .start).others id absent

theorem resolve_distances_unique (program : List Stmt) :
    (resolve program).distances.keys.Nodup :=
  (Stmt.resolveAll_onward ⟨.topLevel, .outside⟩ program .start).unique List.nodup_nil

end Lox
