import Lox.Proofs.Scope.Acceptance
import Lox.Proofs.Scope.Enclosure
/-! The distances that the walk records are those of the tree, whether it reports something or not:
at every place the walk's scopes have the names that the scopes around the place bind there. -/

namespace Lox

open Scope Walk

/-! ## The names around a place -/

namespace Walk

/-- Between the two steps of a declaration the scope has the names that it has behind them. -/
theorem declare_names (walk : Walk) (name : Token) :
    (walk.declare name).scopes.map Table.contains =
      (bindIn walk.scopes name.lexeme .ready).map Table.contains := by
  unfold declare
  cases scopes : walk.scopes with
  | nil => simp [innermost?, scopes, bindIn]
  | cons scope outer =>
      cases known : scope.find? name.lexeme with
      | none =>
          have same : (scope.set name.lexeme .declared).contains =
              (scope.set name.lexeme .ready).contains := by
            funext other
            rw [Table.contains_set, Table.contains_set]
          simp [innermost?, scopes, known, bindIn, same]
      | some state =>
          have same : scope.contains = (scope.set name.lexeme .ready).contains := by
            funext other
            rw [Table.contains_set]
            by_cases equal : other = name.lexeme
            · simp [equal, Table.contains_eq, known]
            · simp [equal]
          simp [innermost?, scopes, known, bindIn, report, same]

end Walk

namespace Mention

/-- The name under which the walk looks for what an occurrence is for. -/
def word : Mention → String
  | named name => name.lexeme
  | this => thisName
  | super => superName

/-- A variable has neither of the names that classes declare by themselves. -/
def Ordinary : Mention → Prop
  | named name => name.Ordinary
  | this | super => True

/-- The occurrence is for a variable of this name. -/
def Names : Mention → Token → Prop
  | named other, name => name.lexeme = other.lexeme
  | this, _ | super, _ => False

end Mention

/-- These are the names that a scope around a place binds there. -/
def Mirrors (names : String → Bool) (enclosure : Enclosure) : Prop :=
  ∀ mention : Mention, mention.Ordinary →
    (names mention.word = true ↔ enclosure.Binds mention)

/-- The scopes of the walk have the names that the scopes around a place bind there. -/
def Reflects (scopes : List Scope) (place : List Enclosure) : Prop :=
  List.Forall₂ Mirrors (scopes.map Table.contains) place

theorem Reflects.distance?_eq_some_iff {scopes : List Scope} {place : List Enclosure}
    {mention : Mention} (reflects : Reflects scopes place) (ordinary : mention.Ordinary)
    {distance : Nat} :
    Scope.distance? scopes mention.word = some distance ↔ BoundAt place mention distance := by
  rw [← findIdx?_contains]
  induction scopes generalizing place distance with
  | nil =>
      cases reflects
      simp [not_boundAt_nil]
  | cons scope outer induction =>
      rcases List.forall₂_cons_left_iff.mp reflects with ⟨enclosure, rest, mirrors, others, rfl⟩
      have same := mirrors mention ordinary
      rw [List.findIdx?_cons]
      split
      · rename_i known
        rw [boundAt_cons_of_binds (same.mp known)]
        simp [eq_comm]
      · rename_i unknown
        rw [boundAt_cons_of_not_binds (mt same.mpr unknown)]
        simp only [Option.map_eq_some_iff, induction others]
        exact ⟨fun ⟨between, bound, equal⟩ => ⟨between, equal.symm, bound⟩,
          fun ⟨between, equal, bound⟩ => ⟨between, bound, equal.symm⟩⟩

namespace Mirrors

theorem block : Mirrors (∅ : Scope).contains (.block []) := by
  intro mention _
  cases mention <;> simp [Enclosure.Binds]

theorem classBody : Mirrors receiver.contains .classBody := by
  intro mention ordinary
  rw [receiver, Table.contains_set]
  cases mention with
  | named name => simp [Enclosure.Binds, Mention.word, ordinary.notThis]
  | this => simp [Enclosure.Binds, Mention.word]
  | super =>
      have different : superName ≠ thisName := by decide
      simp [Enclosure.Binds, Mention.word, different]

theorem superclass : Mirrors inherited.contains .superclass := by
  intro mention ordinary
  rw [inherited, Table.contains_set]
  cases mention with
  | named name => simp [Enclosure.Binds, Mention.word, ordinary.notSuper]
  | super => simp [Enclosure.Binds, Mention.word]
  | this =>
      have different : thisName ≠ superName := by decide
      simp [Enclosure.Binds, Mention.word, different]

/-- One more name is declared. -/
theorem bind {scope : Scope} {enclosure after : Enclosure} {name : Token}
    (mirrors : Mirrors scope.contains enclosure) (ordinary : name.Ordinary) (state : NameState)
    (grows : ∀ mention, after.Binds mention ↔ mention.Names name ∨ enclosure.Binds mention) :
    Mirrors (scope.set name.lexeme state).contains after := by
  intro mention mentionOrdinary
  have names : mention.word = name.lexeme ↔ mention.Names name := by
    cases mention with
    | named other => exact eq_comm
    | this => exact iff_of_false ordinary.notThis.symm id
    | super => exact iff_of_false ordinary.notSuper.symm id
  rw [Table.contains_set, grows, Bool.or_eq_true, decide_eq_true_iff, names,
    mirrors mention mentionOrdinary]

theorem parameters {names earlier : List Token} {scope : Scope}
    (mirrors : Mirrors scope.contains (.body earlier []))
    (ordinary : ∀ name ∈ names, name.Ordinary) :
    Mirrors (names.foldl (fun scope name => scope.set name.lexeme .ready) scope).contains
      (.body (earlier ++ names) []) := by
  induction names generalizing earlier scope with
  | nil =>
      rw [List.append_nil]
      exact mirrors
  | cons name names induction =>
      rw [List.forall_mem_cons] at ordinary
      rw [List.append_cons]
      refine induction (mirrors.bind ordinary.1 .ready ?_) ordinary.2
      intro mention
      cases mention with
      | named other => simp [Enclosure.Binds, Mention.Names, or_comm]
      | this | super => simp [Enclosure.Binds, Mention.Names]

end Mirrors

theorem Stmt.scopesAfter_eq (stmt : Stmt) (scopes : List Scope) : stmt.scopesAfter scopes =
    stmt.declared?.elim scopes fun name => bindIn scopes name.lexeme .ready := by
  cases stmt <;> rfl

theorem Stmt.Proper.declared {stmt : Stmt} {name : Token} (proper : stmt.Proper)
    (declared : stmt.declared? = some name) : name.Ordinary := by
  cases stmt with
  | var | classDecl =>
      cases declared
      exact proper.1
  | function routine =>
      cases routine
      cases declared
      exact proper.1
  | _ => cases declared

/-- A statement has the scope that it stands in for itself, with its own name declared. -/
theorem Mirrors.begin {scope : Scope} {enclosure after : Enclosure} {outer : List Scope}
    {around : List Enclosure} {stmt : Stmt} (proper : stmt.Proper)
    (reflects : Reflects (scope :: outer) (enclosure :: around))
    (grows : ∀ mention, after.Binds mention ↔
      (∃ name, stmt.declared? = some name ∧ mention.Names name) ∨ enclosure.Binds mention) :
    Reflects (stmt.scopesAfter (scope :: outer)) (after :: around) := by
  rcases List.forall₂_cons.mp reflects with ⟨mirrors, others⟩
  rw [Stmt.scopesAfter_eq]
  cases declared : stmt.declared? with
  | none =>
      refine List.forall₂_cons.mpr ⟨fun mention ordinary => ?_, others⟩
      rw [mirrors mention ordinary, grows, declared]
      simp
  | some name =>
      refine List.forall₂_cons.mpr
        ⟨mirrors.bind (proper.declared declared) .ready fun mention => ?_, others⟩
      rw [grows, declared]
      simp

theorem Stmt.exists_declares_append {begun : List Stmt} {stmt : Stmt} {name : Token} :
    (∃ other ∈ begun ++ [stmt], other.Declares name) ↔
      stmt.Declares name ∨ ∃ other ∈ begun, other.Declares name := by
  simp [or_and_right, exists_or, or_comm]

namespace Interior

/-- The walk comes to the next statement of a list. -/
theorem begin {interior : Interior} {begun : List Stmt} {scopes : List Scope} {stmt : Stmt}
    (proper : stmt.Proper) (reflects : Reflects scopes (interior.enclosures begun)) :
    Reflects (stmt.scopesAfter scopes) (interior.enclosures (begun ++ [stmt])) := by
  cases interior with
  | topLevel =>
      cases scopes with
      | nil =>
          rw [Stmt.scopesAfter_eq]
          cases stmt.declared? <;> exact .nil
      | cons => cases reflects
  | block around =>
      cases scopes with
      | nil => cases reflects
      | cons scope outer =>
          refine Mirrors.begin proper reflects fun mention => ?_
          cases mention with
          | named name => exact Stmt.exists_declares_append
          | this | super => simp [Enclosure.Binds, Mention.Names]
  | body parameters around =>
      cases scopes with
      | nil => cases reflects
      | cons scope outer =>
          refine Mirrors.begin proper reflects fun mention => ?_
          cases mention with
          | named name => exact (or_congr_right Stmt.exists_declares_append).trans or_left_comm
          | this | super => simp [Enclosure.Binds, Mention.Names]

end Interior

/-! ## What is recorded -/

/-- The walk stands at a place, inside a class of this kind. -/
structure Situated (kind : ClassKind) (scopes : List Scope) (place : List Enclosure) : Prop where
  reflects : Reflects scopes place
  outside : kind = .outside → .classBody ∉ place

namespace Situated

variable {kind : ClassKind} {scopes : List Scope} {place : List Enclosure}

theorem moved {after : List Scope} (situated : Situated kind scopes place)
    (same : after = scopes) : Situated kind after place :=
  same ▸ situated

/-- Only the names of the scopes matter. -/
theorem renamed {after : List Scope} (situated : Situated kind scopes place)
    (same : after.map Table.contains = scopes.map Table.contains) : Situated kind after place := by
  refine ⟨?_, situated.outside⟩
  rw [Reflects, same]
  exact situated.reflects

theorem enter (situated : Situated kind scopes place) :
    Situated kind (∅ :: scopes) (.block [] :: place) :=
  ⟨.cons .block situated.reflects, fun outside => by simp [situated.outside outside]⟩

theorem parameters (situated : Situated kind scopes place) {parameters : List Token}
    (ordinary : ∀ parameter ∈ parameters, parameter.Ordinary) :
    Situated kind (ofParameters parameters :: scopes) (.body parameters [] :: place) := by
  have empty : Mirrors (∅ : Scope).contains (.body [] []) := by
    intro mention _
    cases mention <;> simp [Enclosure.Binds]
  exact ⟨.cons (empty.parameters ordinary) situated.reflects,
    fun outside => by simp [situated.outside outside]⟩

theorem ofClass (situated : Situated kind scopes place) (superclass : Option Expr) :
    Situated (.ofSuperclass superclass) (ofClass scopes superclass)
      (Enclosure.ofClass superclass place) := by
  cases superclass with
  | none => exact ⟨.cons .classBody situated.reflects, nofun⟩
  | some _ => exact ⟨.cons .classBody (.cons .superclass situated.reflects), nofun⟩

theorem begin {interior : Interior} {begun : List Stmt} {stmt : Stmt} (proper : stmt.Proper)
    (situated : Situated kind scopes (interior.enclosures begun)) :
    Situated kind (stmt.scopesAfter scopes) (interior.enclosures (begun ++ [stmt])) := by
  refine ⟨interior.begin proper situated.reflects, fun outside => ?_⟩
  have absent := situated.outside outside
  cases interior <;> simp_all [Interior.enclosures]

end Situated

/-- What is recorded for an occurrence is its distance at the place, if it has one there. -/
def Settles (recorded : OccurrenceId → Option Nat → Prop) (id : OccurrenceId) (mention : Mention)
    (place : List Enclosure) : Prop :=
  ∃ distance?, recorded id distance? ∧
    ∀ distance, distance? = some distance ↔ BoundAt place mention distance

section

variable {recorded : OccurrenceId → Option Nat → Prop} {id : OccurrenceId} {mention : Mention}
  {place : List Enclosure}

theorem settles_of_locate {walk : Walk} {name : Token} (reflects : Reflects walk.scopes place)
    (ordinary : mention.Ordinary) (word : name.lexeme = mention.word)
    (keeps : Keeps recorded [id] walk (walk.locate id name)) :
    Settles recorded id mention place := by
  have known := locate_records keeps
  rw [word] at known
  exact ⟨_, known, fun _ => reflects.distance?_eq_some_iff ordinary⟩

theorem settles_of_locateThis {kind : ClassKind} {walk : Walk} {keyword : Token}
    (situated : Situated kind walk.scopes place) (spelled : keyword.lexeme = thisName)
    (keeps : Keeps recorded [id] walk (walk.locateThis kind id keyword)) :
    Settles recorded id .this place := by
  cases kind with
  | outside =>
      have free : ∀ enclosure ∈ place, ¬ enclosure.Binds .this := by
        intro enclosure member binds
        cases enclosure with
        | classBody => exact situated.outside rfl member
        | _ => exact binds
      refine ⟨none, ?_, fun distance => iff_of_false nofun fun bound => ?_⟩
      · rw [← keeps.fresh id List.mem_cons_self]
        exact keeps.agrees id List.mem_cons_self
      · rcases exists_boundAt.mp ⟨distance, bound⟩ with ⟨enclosure, member, binds⟩
        exact free enclosure member binds
  | plain | derived => exact settles_of_locate situated.reflects trivial spelled keeps

/-- A misplaced `super` is looked for all the same. -/
theorem settles_of_report {walk : Walk} {fault : ScopeFault} {keyword : Token}
    (reflects : Reflects walk.scopes place) (spelled : keyword.lexeme = superName)
    (keeps : Keeps recorded [id] walk ((walk.report fault keyword).locate id keyword)) :
    Settles recorded id .super place := by
  have inner : Reflects (walk.report fault keyword).scopes place := reflects
  exact settles_of_locate inner trivial spelled
    (keeps.between (report_onward walk fault keyword) (.refl _))

theorem settles_of_locateSuper {kind : ClassKind} {walk : Walk} {keyword : Token}
    (reflects : Reflects walk.scopes place) (spelled : keyword.lexeme = superName)
    (keeps : Keeps recorded [id] walk (walk.locateSuper kind id keyword)) :
    Settles recorded id .super place := by
  cases kind with
  | outside | plain => exact settles_of_report reflects spelled keeps
  | derived => exact settles_of_locate reflects trivial spelled keeps

mutual
theorem Expr.settles (kind : ClassKind) {mention : Mention} : ∀ (expr : Expr) (walk : Walk),
    expr.Proper → Situated kind walk.scopes place →
    Keeps recorded expr.occurrences walk (expr.resolve kind walk) →
    Expr.Holds id mention expr → Settles recorded id mention place
  | .literal _, _, _, _, _, holds => nomatch holds
  | .group inner, walk, proper, situated, keeps, .group holds =>
      Expr.settles kind inner walk proper situated keeps holds
  | .unary _ right, walk, proper, situated, keeps, .unary holds =>
      Expr.settles kind right walk proper situated keeps holds
  | .binary left _ right, walk, proper, situated, keeps, holds => by
      have first := Expr.resolve_onward kind left walk
      have second := Expr.resolve_onward kind right (left.resolve kind walk)
      cases holds with
      | binaryLeft holds =>
          exact Expr.settles kind left walk proper.1 situated (keeps.first second) holds
      | binaryRight holds =>
          exact Expr.settles kind right _ proper.2
            (situated.moved (Expr.resolve_scopes kind left walk)) (keeps.second first) holds
  | .logical left _ right, walk, proper, situated, keeps, holds => by
      have first := Expr.resolve_onward kind left walk
      have second := Expr.resolve_onward kind right (left.resolve kind walk)
      cases holds with
      | logicalLeft holds =>
          exact Expr.settles kind left walk proper.1 situated (keeps.first second) holds
      | logicalRight holds =>
          exact Expr.settles kind right _ proper.2
            (situated.moved (Expr.resolve_scopes kind left walk)) (keeps.second first) holds
  | .read _ name, walk, proper, situated, keeps, holds => by
      cases holds
      have reported := reportIf_onward walk (walk.innermost? name.lexeme == some .declared)
        .readInOwnInitializer name
      have same := reportIf_scopes walk (walk.innermost? name.lexeme == some .declared)
        .readInOwnInitializer name
      exact settles_of_locate (situated.moved same).reflects proper rfl
        (keeps.between reported (.refl _))
  | .assign other name value, walk, proper, situated, keeps, holds => by
      have first := Expr.resolve_onward kind value walk
      have second := locate_onward (value.resolve kind walk) other name
      have swapped : Keeps recorded (value.occurrences ++ [other]) walk _ :=
        keeps.perm (List.perm_append_singleton other _).symm
      cases holds with
      | assign =>
          exact settles_of_locate (situated.moved (Expr.resolve_scopes kind value walk)).reflects
            proper.1 rfl (swapped.second first)
      | assigned holds =>
          exact Expr.settles kind value walk proper.2 situated (swapped.first second) holds
  | .call callee _ arguments, walk, proper, situated, keeps, holds => by
      have first := Expr.resolve_onward kind callee walk
      have second := Expr.resolveAll_onward kind arguments (callee.resolve kind walk)
      cases holds with
      | callee holds =>
          exact Expr.settles kind callee walk proper.1 situated (keeps.first second) holds
      | argument member holds =>
          exact Expr.allSettles kind arguments _ proper.2
            (situated.moved (Expr.resolve_scopes kind callee walk)) (keeps.second first) _ member
            holds
  | .get object _, walk, proper, situated, keeps, .get holds =>
      Expr.settles kind object walk proper situated keeps holds
  | .set object _ value, walk, proper, situated, keeps, holds => by
      have first := Expr.resolve_onward kind value walk
      have second := Expr.resolve_onward kind object (value.resolve kind walk)
      have swapped : Keeps recorded (value.occurrences ++ object.occurrences) walk _ :=
        keeps.perm List.perm_append_comm
      cases holds with
      | setObject holds =>
          exact Expr.settles kind object _ proper.1
            (situated.moved (Expr.resolve_scopes kind value walk)) (swapped.second first) holds
      | setValue holds =>
          exact Expr.settles kind value walk proper.2 situated (swapped.first second) holds
  | .this _ _, _, proper, situated, keeps, .this => settles_of_locateThis situated proper keeps
  | .super _ _ _, _, proper, situated, keeps, .super =>
      settles_of_locateSuper situated.reflects proper keeps

theorem Expr.allSettles (kind : ClassKind) {mention : Mention} :
    ∀ (exprs : List Expr) (walk : Walk), Expr.AllProper exprs → Situated kind walk.scopes place →
    Keeps recorded (Expr.allOccurrences exprs) walk (Expr.resolveAll kind exprs walk) →
    ∀ expr ∈ exprs, Expr.Holds id mention expr → Settles recorded id mention place
  | [], _, _, _, _ => nofun
  | first :: rest, walk, proper, situated, keeps => by
      intro expr member holds
      have before := Expr.resolve_onward kind first walk
      have behind := Expr.resolveAll_onward kind rest (first.resolve kind walk)
      cases member with
      | head => exact Expr.settles kind first walk proper.1 situated (keeps.first behind) holds
      | tail _ member =>
          exact Expr.allSettles kind rest _ proper.2
            (situated.moved (Expr.resolve_scopes kind first walk)) (keeps.second before) expr member
            holds
end

theorem ProperSuperclass.proper {superclass : Expr}
    (proper : ProperSuperclass (some superclass)) : superclass.Proper := by
  cases superclass with
  | read => exact proper
  | _ => exact proper.elim

theorem Stmt.AnyHolds.split {interior : Interior} {stmts : List Stmt}
    (holds : Stmt.AnyHolds id mention interior stmts place) :
    ∃ earlier stmt later, stmts = earlier ++ stmt :: later ∧
      Stmt.Holds id mention (interior.enclosures ([] ++ earlier ++ [stmt])) stmt place := by
  cases holds with
  | mk holds => exact ⟨_, _, _, rfl, holds⟩

mutual
/-- A statement at a place where its own name is declared. -/
theorem Stmt.settles (around : Surroundings) {outside place : List Enclosure} :
    ∀ (stmt : Stmt) (walk : Walk), stmt.Proper →
      Situated around.classKind (stmt.scopesAfter walk.scopes) outside →
      Keeps recorded stmt.occurrences walk (stmt.resolve around walk) →
      Stmt.Holds id mention outside stmt place → Settles recorded id mention place
  | .expression expr, walk, proper, situated, keeps, holds => by
      cases holds with
      | expression holds =>
          exact Expr.settles around.classKind expr walk proper situated keeps holds
  | .print expr, walk, proper, situated, keeps, holds => by
      cases holds with
      | print holds => exact Expr.settles around.classKind expr walk proper situated keeps holds
  | .var name _, walk, proper, situated, keeps, holds => by
      cases holds with
      | initial holds =>
          have kept := keeps.between (declare_onward walk name) (bind_onward _ name.lexeme .ready)
          exact Expr.settles around.classKind _ _ proper.2
            (situated.renamed (declare_names walk name)) kept holds
  | .block body, walk, proper, situated, keeps, holds => by
      cases holds with
      | block holds =>
          rcases holds.split with ⟨earlier, stmt, later, split, holds⟩
          have kept := keeps.between (enter_onward walk) (leave_onward _)
          exact Stmt.anySettles around (.block outside) body walk.enter [] proper situated.enter kept
            earlier stmt later split holds
  | .conditional condition thenBranch none, walk, proper, situated, keeps, holds => by
      have first := Expr.resolve_onward around.classKind condition walk
      have second := Stmt.resolve_onward around thenBranch (condition.resolve around.classKind walk)
      have same := Expr.resolve_scopes around.classKind condition walk
      cases holds with
      | condition holds =>
          exact Expr.settles around.classKind condition walk proper.1 situated (keeps.first second)
            holds
      | thenBranch holds =>
          refine Stmt.settles around thenBranch _ proper.2.1 ?_ (keeps.second first) holds
          rw [scopesAfter_of_not_declaration proper.2.2, same]
          exact situated
  | .conditional condition thenBranch (some elseBranch), walk, proper, situated, keeps, holds => by
      have first := Expr.resolve_onward around.classKind condition walk
      have second := Stmt.resolve_onward around thenBranch (condition.resolve around.classKind walk)
      have third := Stmt.resolve_onward around elseBranch
        (thenBranch.resolve around (condition.resolve around.classKind walk))
      have same := Expr.resolve_scopes around.classKind condition walk
      have branches := keeps.second first
      cases holds with
      | condition holds =>
          exact Expr.settles around.classKind condition walk proper.1 situated
            (keeps.first (second.trans third)) holds
      | thenBranch holds =>
          refine Stmt.settles around thenBranch _ proper.2.1.1 ?_ (branches.first third) holds
          rw [scopesAfter_of_not_declaration proper.2.1.2, same]
          exact situated
      | elseBranch holds =>
          refine Stmt.settles around elseBranch _ proper.2.2.1 ?_ (branches.second second) holds
          rw [scopesAfter_of_not_declaration proper.2.2.2,
            Stmt.resolve_scopes around thenBranch _ proper.2.1.1,
            scopesAfter_of_not_declaration proper.2.1.2, same]
          exact situated
  | .loop condition body, walk, proper, situated, keeps, holds => by
      have first := Expr.resolve_onward around.classKind condition walk
      have second := Stmt.resolve_onward around body (condition.resolve around.classKind walk)
      have same := Expr.resolve_scopes around.classKind condition walk
      cases holds with
      | loopCondition holds =>
          exact Expr.settles around.classKind condition walk proper.1 situated (keeps.first second)
            holds
      | loopBody holds =>
          refine Stmt.settles around body _ proper.2.1 ?_ (keeps.second first) holds
          rw [scopesAfter_of_not_declaration proper.2.2, same]
          exact situated
  | .function routine, walk, proper, situated, keeps, holds => by
      cases holds with
      | function holds =>
          have kept := keeps.between (named_onward walk routine.name) (.refl _)
          exact Routine.settles { around with body := .function } routine _ proper
            (situated.moved (named_scopes walk routine.name)) kept holds
  | .returns keyword _, walk, proper, situated, keeps, holds => by
      cases holds with
      | returns holds =>
          have reported := (reportIf_onward walk (around.body == .topLevel) .topLevelReturn
            keyword).andThen (reportIf_onward _ (true && around.body == .initializer)
              .returnFromInitializer keyword)
          refine Expr.settles around.classKind _ _ proper ?_ (keeps.between reported (.refl _)) holds
          rw [reportIf_scopes, reportIf_scopes]
          exact situated
  | .classDecl name superclass methods, walk, proper, situated, keeps, holds => by
      have parts := keeps.ofClass
      have named := checkInheritance_scopes ((walk.declare name).define name) name superclass
      rw [named_scopes] at named
      cases holds with
      | superclass holds =>
          exact Expr.settles (.ofSuperclass (some _)) _ _ proper.2.1.proper
            ⟨(situated.moved named).reflects, nofun⟩ parts.1 holds
      | method member holds =>
          refine Routine.allSettles _ methods _ proper.2.2 ?_ parts.2 _ member holds
          rw [enterClass_scopes, Expr.resolve?_scopes, named]
          exact situated.ofClass superclass

theorem Stmt.anySettles (around : Surroundings) (interior : Interior) {place : List Enclosure} :
    ∀ (stmts : List Stmt) (walk : Walk) (begun : List Stmt), Stmt.AllProper stmts →
      Situated around.classKind walk.scopes (interior.enclosures begun) →
      Keeps recorded (Stmt.allOccurrences stmts) walk (Stmt.resolveAll around stmts walk) →
      ∀ earlier stmt later, stmts = earlier ++ stmt :: later →
        Stmt.Holds id mention (interior.enclosures (begun ++ earlier ++ [stmt])) stmt place →
        Settles recorded id mention place
  | [], _, _, _, _, _ => by
      intro earlier stmt later split _
      cases earlier <;> cases split
  | first :: rest, walk, begun, proper, situated, keeps => by
      intro earlier stmt later split holds
      have before := Stmt.resolve_onward around first walk
      have behind := Stmt.resolveAll_onward around rest (first.resolve around walk)
      have started := situated.begin proper.1
      cases earlier with
      | nil =>
          have same := (List.cons.inj split).1
          rw [List.append_nil, ← same] at holds
          exact Stmt.settles around first walk proper.1 started (keeps.first behind) holds
      | cons other earlier =>
          rcases List.cons.inj split with ⟨same, split⟩
          rw [← same, List.append_cons begun first earlier] at holds
          rw [← Stmt.resolve_scopes around first walk proper.1] at started
          exact Stmt.anySettles around interior rest _ _ proper.2 started (keeps.second before)
            earlier stmt later split holds

theorem Routine.settles (around : Surroundings) {outside place : List Enclosure} :
    ∀ (routine : Routine) (walk : Walk), routine.Proper →
      Situated around.classKind walk.scopes outside →
      Keeps recorded routine.occurrences walk (routine.resolve around walk) →
      Routine.Holds id mention outside routine place → Settles recorded id mention place
  | .mk _ parameters body, walk, proper, situated, keeps, holds => by
      cases holds with
      | mk holds =>
          rcases holds.split with ⟨earlier, stmt, later, split, holds⟩
          have entered := (enter_onward walk).andThen (declareAll_onward walk.enter parameters)
          have kept := keeps.between entered (leave_onward _)
          refine Stmt.anySettles around (.body parameters outside) body _ [] proper.2.2 ?_ kept
            earlier stmt later split holds
          exact (situated.parameters proper.2.1).moved (declareAll_scopes rfl)

theorem Routine.allSettles (inside : ClassKind) {outside place : List Enclosure} :
    ∀ (methods : List Routine) (walk : Walk), Routine.AllProper methods →
      Situated inside walk.scopes outside →
      Keeps recorded (Routine.allOccurrences methods) walk
        (Routine.resolveMethods inside methods walk) →
      ∀ method ∈ methods, Routine.Holds id mention outside method place →
        Settles recorded id mention place
  | [], _, _, _, _ => nofun
  | first :: rest, walk, proper, situated, keeps => by
      intro method member holds
      have before := Routine.resolve_onward ⟨.ofMethod first.name, inside⟩ first walk
      have behind := Routine.resolveMethods_onward inside rest
        (first.resolve ⟨.ofMethod first.name, inside⟩ walk)
      cases member with
      | head =>
          exact Routine.settles ⟨.ofMethod first.name, inside⟩ first walk proper.1 situated
            (keeps.first behind) holds
      | tail _ member =>
          exact Routine.allSettles inside rest _ proper.2
            (situated.moved (Routine.resolve_scopes _ first walk proper.1)) (keeps.second before)
            method member holds
end

end

/-! ## All occurrences have a place -/

section

variable {id : OccurrenceId}

mutual
theorem Expr.exists_holds : ∀ expr : Expr, id ∈ expr.occurrences →
    ∃ mention, Expr.Holds id mention expr
  | .literal _, member => nomatch member
  | .group inner, member => by
      rcases Expr.exists_holds inner member with ⟨mention, holds⟩
      exact ⟨mention, .group holds⟩
  | .unary _ right, member => by
      rcases Expr.exists_holds right member with ⟨mention, holds⟩
      exact ⟨mention, .unary holds⟩
  | .binary left _ right, member => by
      rcases List.mem_append.mp member with member | member
      · rcases Expr.exists_holds left member with ⟨mention, holds⟩
        exact ⟨mention, .binaryLeft holds⟩
      · rcases Expr.exists_holds right member with ⟨mention, holds⟩
        exact ⟨mention, .binaryRight holds⟩
  | .logical left _ right, member => by
      rcases List.mem_append.mp member with member | member
      · rcases Expr.exists_holds left member with ⟨mention, holds⟩
        exact ⟨mention, .logicalLeft holds⟩
      · rcases Expr.exists_holds right member with ⟨mention, holds⟩
        exact ⟨mention, .logicalRight holds⟩
  | .read _ name, member => by
      cases List.mem_singleton.mp member
      exact ⟨.named name, .read⟩
  | .assign _ name value, member => by
      rcases List.mem_cons.mp member with rfl | member
      · exact ⟨.named name, .assign⟩
      · rcases Expr.exists_holds value member with ⟨mention, holds⟩
        exact ⟨mention, .assigned holds⟩
  | .call callee _ arguments, member => by
      rcases List.mem_append.mp member with member | member
      · rcases Expr.exists_holds callee member with ⟨mention, holds⟩
        exact ⟨mention, .callee holds⟩
      · rcases Expr.exists_holds_mem arguments member with ⟨mention, argument, inside, holds⟩
        exact ⟨mention, .argument inside holds⟩
  | .get object _, member => by
      rcases Expr.exists_holds object member with ⟨mention, holds⟩
      exact ⟨mention, .get holds⟩
  | .set object _ value, member => by
      rcases List.mem_append.mp member with member | member
      · rcases Expr.exists_holds object member with ⟨mention, holds⟩
        exact ⟨mention, .setObject holds⟩
      · rcases Expr.exists_holds value member with ⟨mention, holds⟩
        exact ⟨mention, .setValue holds⟩
  | .this _ _, member => by
      cases List.mem_singleton.mp member
      exact ⟨.this, .this⟩
  | .super _ _ _, member => by
      cases List.mem_singleton.mp member
      exact ⟨.super, .super⟩

theorem Expr.exists_holds_mem : ∀ exprs : List Expr, id ∈ Expr.allOccurrences exprs →
    ∃ mention, ∃ expr ∈ exprs, Expr.Holds id mention expr
  | [], member => nomatch member
  | first :: rest, member => by
      rcases List.mem_append.mp member with member | member
      · rcases Expr.exists_holds first member with ⟨mention, holds⟩
        exact ⟨mention, first, List.mem_cons_self, holds⟩
      · rcases Expr.exists_holds_mem rest member with ⟨mention, expr, inside, holds⟩
        exact ⟨mention, expr, List.mem_cons_of_mem _ inside, holds⟩
end

mutual
theorem Stmt.exists_holds : ∀ (stmt : Stmt) (outside : List Enclosure), id ∈ stmt.occurrences →
    ∃ mention place, Stmt.Holds id mention outside stmt place
  | .expression expr, outside, member => by
      rcases Expr.exists_holds expr member with ⟨mention, holds⟩
      exact ⟨mention, outside, .expression holds⟩
  | .print expr, outside, member => by
      rcases Expr.exists_holds expr member with ⟨mention, holds⟩
      exact ⟨mention, outside, .print holds⟩
  | .var _ none, _, member => nomatch member
  | .var _ (some initial), outside, member => by
      rcases Expr.exists_holds initial member with ⟨mention, holds⟩
      exact ⟨mention, outside, .initial holds⟩
  | .block body, outside, member => by
      rcases Stmt.exists_anyHolds (.block outside) body [] member with
        ⟨mention, place, earlier, stmt, later, rfl, holds⟩
      exact ⟨mention, place, .block (.mk holds)⟩
  | .conditional condition thenBranch none, outside, member => by
      rcases List.mem_append.mp member with member | member
      · rcases Expr.exists_holds condition member with ⟨mention, holds⟩
        exact ⟨mention, outside, .condition holds⟩
      · rcases Stmt.exists_holds thenBranch outside member with ⟨mention, place, holds⟩
        exact ⟨mention, place, .thenBranch holds⟩
  | .conditional condition thenBranch (some elseBranch), outside, member => by
      rcases List.mem_append.mp member with member | member
      · rcases Expr.exists_holds condition member with ⟨mention, holds⟩
        exact ⟨mention, outside, .condition holds⟩
      rcases List.mem_append.mp member with member | member
      · rcases Stmt.exists_holds thenBranch outside member with ⟨mention, place, holds⟩
        exact ⟨mention, place, .thenBranch holds⟩
      · rcases Stmt.exists_holds elseBranch outside member with ⟨mention, place, holds⟩
        exact ⟨mention, place, .elseBranch holds⟩
  | .loop condition body, outside, member => by
      rcases List.mem_append.mp member with member | member
      · rcases Expr.exists_holds condition member with ⟨mention, holds⟩
        exact ⟨mention, outside, .loopCondition holds⟩
      · rcases Stmt.exists_holds body outside member with ⟨mention, place, holds⟩
        exact ⟨mention, place, .loopBody holds⟩
  | .function routine, outside, member => by
      rcases Routine.exists_holds routine outside member with ⟨mention, place, holds⟩
      exact ⟨mention, place, .function holds⟩
  | .returns _ none, _, member => nomatch member
  | .returns _ (some value), outside, member => by
      rcases Expr.exists_holds value member with ⟨mention, holds⟩
      exact ⟨mention, outside, .returns holds⟩
  | .classDecl _ superclass methods, outside, member => by
      rcases List.mem_append.mp member with member | member
      · cases superclass with
        | none => cases member
        | some superclass =>
            rcases Expr.exists_holds superclass member with ⟨mention, holds⟩
            exact ⟨mention, outside, .superclass holds⟩
      · rcases Routine.exists_holds_mem methods (Enclosure.ofClass superclass outside) member with
          ⟨mention, place, method, inside, holds⟩
        exact ⟨mention, place, .method inside holds⟩

theorem Stmt.exists_anyHolds (interior : Interior) : ∀ (stmts begun : List Stmt),
    id ∈ Stmt.allOccurrences stmts →
    ∃ mention place earlier stmt later, stmts = earlier ++ stmt :: later ∧
      Stmt.Holds id mention (interior.enclosures (begun ++ earlier ++ [stmt])) stmt place
  | [], _, member => nomatch member
  | first :: rest, begun, member => by
      rcases List.mem_append.mp member with member | member
      · rcases Stmt.exists_holds first (interior.enclosures (begun ++ [first])) member with
          ⟨mention, place, holds⟩
        refine ⟨mention, place, [], first, rest, rfl, ?_⟩
        rw [List.append_nil]
        exact holds
      · rcases Stmt.exists_anyHolds interior rest (begun ++ [first]) member with
          ⟨mention, place, earlier, stmt, later, split, holds⟩
        refine ⟨mention, place, first :: earlier, stmt, later, congrArg (first :: ·) split, ?_⟩
        rw [List.append_cons begun first earlier]
        exact holds

theorem Routine.exists_holds : ∀ (routine : Routine) (outside : List Enclosure),
    id ∈ routine.occurrences → ∃ mention place, Routine.Holds id mention outside routine place
  | .mk _ parameters body, outside, member => by
      rcases Stmt.exists_anyHolds (.body parameters outside) body [] member with
        ⟨mention, place, earlier, stmt, later, rfl, holds⟩
      exact ⟨mention, place, .mk (.mk holds)⟩

theorem Routine.exists_holds_mem : ∀ (methods : List Routine) (outside : List Enclosure),
    id ∈ Routine.allOccurrences methods →
    ∃ mention place, ∃ method ∈ methods, Routine.Holds id mention outside method place
  | [], _, member => nomatch member
  | first :: rest, outside, member => by
      rcases List.mem_append.mp member with member | member
      · rcases Routine.exists_holds first outside member with ⟨mention, place, holds⟩
        exact ⟨mention, place, first, List.mem_cons_self, holds⟩
      · rcases Routine.exists_holds_mem rest outside member with
          ⟨mention, place, method, inside, holds⟩
        exact ⟨mention, place, method, List.mem_cons_of_mem _ inside, holds⟩
end

end

/-! ## Programs -/

/-- For every program that can be read the distances that are recorded are those of the tree, also
if the walk reports something. An occurrence has a distance if some scope around it binds what it is
for: a scope that declares the variable before the occurrence, a class around `this`, a class with a
superclass around `super`. The distance is the number of scopes between the occurrence and the
innermost scope that does. -/
theorem resolve_distances_exact (source : String) (firstId : OccurrenceId)
    (clean : (readSource source firstId).problems = []) :
    let program := (readSource source firstId).statements
    let distances := (resolve program).distances
    (∀ id, id ∈ distances.keys ↔
      ∃ mention place, Stmt.AnyHolds id mention .topLevel program place ∧
        ∃ enclosure ∈ place, enclosure.Binds mention) ∧
    (∀ id mention place, Stmt.AnyHolds id mention .topLevel program place → ∀ distance,
      distances.find? id = some distance ↔ BoundAt place mention distance) ∧
    distances.keys.Nodup := by
  intro program distances
  have declared := readSource_declarations clean
  have proper := declared.proper (sentence_spelled source)
  have keeps : Keeps (fun id distance? => distances.find? id = distance?)
      (Stmt.allOccurrences program) .start
      (Stmt.resolveAll ⟨.topLevel, .outside⟩ program .start) :=
    ⟨declared.numbered.nodup, fun _ _ => rfl, fun _ _ => rfl⟩
  have situated : Situated .outside Walk.start.scopes (Interior.topLevel.enclosures []) :=
    ⟨.nil, nofun⟩
  have known : ∀ id mention place, Stmt.AnyHolds id mention .topLevel program place →
      ∀ distance, distances.find? id = some distance ↔ BoundAt place mention distance := by
    intro id mention place holds
    rcases holds.split with ⟨earlier, stmt, later, split, holds⟩
    rcases Stmt.anySettles ⟨.topLevel, .outside⟩ .topLevel program .start [] proper situated keeps
      earlier stmt later split holds with ⟨_, rfl, settled⟩
    exact settled
  refine ⟨fun id => ?_, known, resolve_distances_unique program⟩
  rw [← Table.find?_isSome_iff_mem_keys, Option.isSome_iff_exists]
  constructor
  · rintro ⟨distance, found⟩
    have member : id ∈ Stmt.allOccurrences program := by
      by_contra absent
      rw [resolve_distances_others absent] at found
      cases found
    rcases Stmt.exists_anyHolds .topLevel program [] member with
      ⟨mention, place, earlier, stmt, later, split, holds⟩
    have whole : Stmt.AnyHolds id mention .topLevel program place := split ▸ .mk holds
    exact ⟨mention, place, whole,
      exists_boundAt.mp ⟨distance, (known id mention place whole distance).mp found⟩⟩
  · rintro ⟨mention, place, holds, bound⟩
    rcases exists_boundAt.mpr bound with ⟨distance, bound⟩
    exact ⟨distance, (known id mention place holds distance).mpr bound⟩

/-- A variable that is read in its own initializer is reported, and has a distance all the same. -/
theorem resolve_distances_exact_ownInitializer :
    let program := (readSource "{ var a = a; fun f(b) { a = b; } }" 0).statements
    (readSource "{ var a = a; fun f(b) { a = b; } }" 0).problems = [] ∧
      (resolve program).problems ≠ [] ∧ (resolve program).distances.find? 0 = some 0 ∧
      (resolve program).distances.find? 1 = some 1 := by
  have clean : (readSource "{ var a = a; fun f(b) { a = b; } }" 0).problems = [] := by
    decide +kernel
  let a : Token := ⟨.identifier, "a", 1⟩
  let b : Token := ⟨.identifier, "b", 1⟩
  let declaration : Stmt := .var a (some (.read 0 a))
  let assignment : Stmt := .expression (.assign 1 a (.read 2 b))
  let function : Stmt := .function (.mk ⟨.identifier, "f", 1⟩ [b] [assignment])
  intro program
  have statements : program = [.block [declaration, function]] := by
    with_unfolding_all rfl
  have known := (resolve_distances_exact "{ var a = a; fun f(b) { a = b; } }" 0 clean).2.1
  have inInitializer : Stmt.AnyHolds 0 (.named a) .topLevel program [.block [declaration]] := by
    rw [statements]
    exact @Stmt.AnyHolds.mk _ _ _ [] _ _ _
      (.block (@Stmt.AnyHolds.mk _ _ _ [] _ _ _ (.initial .read)))
  have inBody : Stmt.AnyHolds 1 (.named a) .topLevel program
      [.body [b] [assignment], .block [declaration, function]] := by
    rw [statements]
    exact @Stmt.AnyHolds.mk _ _ _ [] _ _ _ (.block (@Stmt.AnyHolds.mk _ _ _ [declaration] _ _ _
      (.function (.mk (@Stmt.AnyHolds.mk _ _ _ [] _ _ _ (.expression .assign))))))
  have first : BoundAt [.block [declaration]] (.named a) 0 :=
    ⟨[], _, [], rfl, rfl, ⟨declaration, List.mem_singleton.mpr rfl, a, rfl, rfl⟩, nofun⟩
  have second : BoundAt [.body [b] [assignment], .block [declaration, function]] (.named a) 1 := by
    refine ⟨[.body [b] [assignment]], _, [], rfl, rfl, ⟨declaration, List.mem_cons_self, a, rfl,
      rfl⟩, ?_⟩
    intro other member
    cases List.mem_singleton.mp member
    rintro (⟨parameter, member, same⟩ | ⟨stmt, member, declared, names, -⟩)
    · cases List.mem_singleton.mp member
      exact absurd same (by decide)
    · cases List.mem_singleton.mp member
      cases names
  refine ⟨clean, ?_, (known _ _ _ inInitializer 0).mpr first, (known _ _ _ inBody 1).mpr second⟩
  rw [statements]
  decide

end Lox
