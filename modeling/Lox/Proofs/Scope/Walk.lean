import Lox.Proofs.Scope.Scoped
import Lox.Proofs.Tree.Occurrences
/-! What a walk over code changes, and what it does not: each occurrence is gone through
once, and its distance is recorded then if ever. -/

namespace Lox

open Scope

/-! ## What a step of the walk changes -/

/-- From `walk` to `after` distances are recorded for these occurrences only, and a report
is never taken back. -/
structure Walk.Onward (occurrences : List OccurrenceId) (walk after : Walk) : Prop where
  clean : after.problems = [] → walk.problems = []
  others : ∀ id, id ∉ occurrences → after.distances.find? id = walk.distances.find? id
  unique : walk.distances.keys.Nodup → after.distances.keys.Nodup

namespace Walk

variable {walk middle after : Walk} {left right : List OccurrenceId}

namespace Onward

theorem refl (walk : Walk) : Onward [] walk walk :=
  ⟨id, fun _ _ => rfl, id⟩

theorem trans (first : Onward left walk middle) (second : Onward right middle after) :
    Onward (left ++ right) walk after := by
  refine ⟨fun clean => first.clean (second.clean clean), ?_,
    fun unique => second.unique (first.unique unique)⟩
  intro id absent
  rw [List.mem_append, not_or] at absent
  rw [second.others id absent.2, first.others id absent.1]

/-- A step that records nothing. -/
theorem andThen (first : Onward left walk middle) (second : Onward [] middle after) :
    Onward left walk after := by
  have whole := first.trans second
  rwa [List.append_nil] at whole

theorem weaken (onward : Onward left walk after) (contained : left ⊆ right) :
    Onward right walk after := by
  refine ⟨onward.clean, ?_, onward.unique⟩
  intro id absent
  exact onward.others id fun member => absent (contained member)

end Onward

variable (walk)

theorem report_onward (fault : ScopeFault) (blamed : Token) :
    Onward [] walk (walk.report fault blamed) := by
  refine ⟨?_, fun _ _ => rfl, id⟩
  intro clean
  simp [report] at clean

theorem report_problems (fault : ScopeFault) (blamed : Token) :
    (walk.report fault blamed).problems ≠ [] := by
  simp [report]

theorem reportIf_onward (condition : Bool) (fault : ScopeFault) (blamed : Token) :
    Onward [] walk (walk.reportIf condition fault blamed) := by
  unfold reportIf
  split
  · exact report_onward walk fault blamed
  · exact .refl walk

theorem enter_onward : Onward [] walk walk.enter :=
  ⟨id, fun _ _ => rfl, id⟩

theorem leave_onward : Onward [] walk walk.leave :=
  ⟨id, fun _ _ => rfl, id⟩

theorem bind_onward (name : String) (state : NameState) : Onward [] walk (walk.bind name state) := by
  unfold bind
  split
  · exact .refl walk
  · exact ⟨id, fun _ _ => rfl, id⟩

theorem declare_onward (name : Token) : Onward [] walk (walk.declare name) := by
  unfold declare
  split
  · exact report_onward walk _ _
  · exact bind_onward walk _ _

theorem named_onward (name : Token) : Onward [] walk ((walk.declare name).define name) :=
  (declare_onward walk name).andThen (bind_onward _ _ _)

theorem locate_onward (id : OccurrenceId) (name : Token) : Onward [id] walk (walk.locate id name) := by
  unfold locate
  split
  · refine ⟨fun clean => clean, ?_, fun unique => Table.keys_set_nodup unique _ _⟩
    intro other absent
    exact Table.find?_set_other _ (fun equal => absent (List.mem_singleton.mpr equal)) _
  · exact ⟨fun clean => clean, fun _ _ => rfl, fun unique => unique⟩

theorem locateThis_onward (kind : ClassKind) (id : OccurrenceId) (keyword : Token) :
    Onward [id] walk (walk.locateThis kind id keyword) := by
  cases kind with
  | outside => exact (report_onward walk _ _).weaken (List.nil_subset _)
  | plain | derived => exact locate_onward walk id keyword

theorem locateSuper_onward (kind : ClassKind) (id : OccurrenceId) (keyword : Token) :
    Onward [id] walk (walk.locateSuper kind id keyword) := by
  cases kind with
  | outside | plain => exact (report_onward walk _ _).trans (locate_onward _ id keyword)
  | derived => exact locate_onward walk id keyword

theorem enterClass_onward (superclass : Option Expr) :
    Onward [] walk (walk.enterClass superclass) := by
  unfold enterClass
  cases superclass with
  | none => exact (enter_onward walk).andThen (bind_onward _ _ _)
  | some _ =>
      exact ((enter_onward walk).andThen (bind_onward _ _ _)).andThen
        ((enter_onward _).andThen (bind_onward _ _ _))

theorem leaveClass_onward (superclass : Option Expr) :
    Onward [] walk (walk.leaveClass superclass) := by
  cases superclass <;> exact ⟨id, fun _ _ => rfl, id⟩

theorem checkInheritance_onward (name : Token) (superclass : Option Expr) :
    Onward [] walk (walk.checkInheritance name superclass) := by
  unfold checkInheritance
  split
  · exact reportIf_onward walk _ _ _
  · exact .refl walk

theorem declareAll_onward (names : List Token) :
    Onward [] walk (names.foldl (fun walk name => (walk.declare name).define name) walk) := by
  induction names generalizing walk with
  | nil => exact .refl walk
  | cons name names induction =>
      exact (named_onward walk name).andThen (induction _)

end Walk

open Walk

mutual
theorem Expr.resolve_onward (kind : ClassKind) :
    ∀ (expr : Expr) (walk : Walk), Onward expr.occurrences walk (expr.resolve kind walk)
  | .literal _, walk => .refl walk
  | .group inner, walk => Expr.resolve_onward kind inner walk
  | .unary _ right, walk => Expr.resolve_onward kind right walk
  | .binary left _ right, walk | .logical left _ right, walk =>
      (Expr.resolve_onward kind left walk).trans (Expr.resolve_onward kind right _)
  | .read id name, walk => (reportIf_onward walk _ _ _).trans (locate_onward _ id name)
  | .assign id name value, walk =>
      ((Expr.resolve_onward kind value walk).trans (locate_onward _ id name)).weaken
        List.perm_append_comm.subset
  | .call callee _ arguments, walk =>
      (Expr.resolve_onward kind callee walk).trans (Expr.resolveAll_onward kind arguments _)
  | .get object _, walk => Expr.resolve_onward kind object walk
  | .set object _ value, walk =>
      ((Expr.resolve_onward kind value walk).trans (Expr.resolve_onward kind object _)).weaken
        List.perm_append_comm.subset
  | .this id keyword, walk => locateThis_onward walk kind id keyword
  | .super id keyword _, walk => locateSuper_onward walk kind id keyword

theorem Expr.resolveAll_onward (kind : ClassKind) :
    ∀ (exprs : List Expr) (walk : Walk),
      Onward (Expr.allOccurrences exprs) walk (Expr.resolveAll kind exprs walk)
  | [], walk => .refl walk
  | expr :: rest, walk =>
      (Expr.resolve_onward kind expr walk).trans (Expr.resolveAll_onward kind rest _)
end

theorem Expr.resolve?_onward (kind : ClassKind) (expr? : Option Expr) (walk : Walk) :
    Onward (Expr.occurrences? expr?) walk (Expr.resolve? kind expr? walk) := by
  cases expr? with
  | none => exact .refl walk
  | some expr => exact Expr.resolve_onward kind expr walk

mutual
theorem Stmt.resolve_onward (around : Surroundings) :
    ∀ (stmt : Stmt) (walk : Walk), Onward stmt.occurrences walk (stmt.resolve around walk)
  | .expression expr, walk => Expr.resolve_onward around.classKind expr walk
  | .print expr, walk => Expr.resolve_onward around.classKind expr walk
  | .var name initial, walk =>
      ((declare_onward walk name).trans (Expr.resolve?_onward around.classKind initial _)).andThen
        (bind_onward _ _ _)
  | .block body, walk =>
      ((enter_onward walk).trans (Stmt.resolveAll_onward around body _)).andThen (leave_onward _)
  | .conditional condition thenBranch none, walk =>
      (Expr.resolve_onward around.classKind condition walk).trans
        (Stmt.resolve_onward around thenBranch _)
  | .conditional condition thenBranch (some elseBranch), walk =>
      (Expr.resolve_onward around.classKind condition walk).trans
        ((Stmt.resolve_onward around thenBranch _).trans (Stmt.resolve_onward around elseBranch _))
  | .loop condition body, walk =>
      (Expr.resolve_onward around.classKind condition walk).trans (Stmt.resolve_onward around body _)
  | .function routine, walk =>
      (named_onward walk routine.name).trans (Routine.resolve_onward _ routine _)
  | .returns keyword value, walk =>
      ((reportIf_onward walk _ _ keyword).andThen (reportIf_onward _ _ _ keyword)).trans
        (Expr.resolve?_onward around.classKind value _)
  | .classDecl name superclass methods, walk => by
      have named := (named_onward walk name).andThen (checkInheritance_onward _ name superclass)
      have inherited := (named.trans (Expr.resolve?_onward (.ofSuperclass superclass) superclass
        _)).andThen (enterClass_onward _ superclass)
      exact (inherited.trans (Routine.resolveMethods_onward _ methods _)).andThen
        (leaveClass_onward _ superclass)

theorem Stmt.resolveAll_onward (around : Surroundings) :
    ∀ (stmts : List Stmt) (walk : Walk),
      Onward (Stmt.allOccurrences stmts) walk (Stmt.resolveAll around stmts walk)
  | [], walk => .refl walk
  | stmt :: rest, walk =>
      (Stmt.resolve_onward around stmt walk).trans (Stmt.resolveAll_onward around rest _)

theorem Routine.resolve_onward (around : Surroundings) :
    ∀ (routine : Routine) (walk : Walk),
      Onward routine.occurrences walk (routine.resolve around walk)
  | .mk _ parameters body, walk =>
      (((enter_onward walk).andThen (declareAll_onward _ parameters)).trans
        (Stmt.resolveAll_onward around body _)).andThen (leave_onward _)

theorem Routine.resolveMethods_onward (inside : ClassKind) :
    ∀ (methods : List Routine) (walk : Walk),
      Onward (Routine.allOccurrences methods) walk (Routine.resolveMethods inside methods walk)
  | [], walk => .refl walk
  | method :: rest, walk =>
      (Routine.resolve_onward _ method walk).trans (Routine.resolveMethods_onward inside rest _)
end

/-! ## What is recorded -/

section

variable (recorded : OccurrenceId → Option Nat → Prop)

/-- The walk comes across these occurrences for the first time, and what it has recorded
for them in the end stays recorded. -/
structure Walk.Keeps (occurrences : List OccurrenceId) (walk after : Walk) : Prop where
  nodup : occurrences.Nodup
  fresh : ∀ id ∈ occurrences, walk.distances.find? id = none
  agrees : ∀ id ∈ occurrences, recorded id (after.distances.find? id)

variable {recorded} {walk middle after : Walk} {left right : List OccurrenceId}

namespace Walk.Keeps

theorem perm (keeps : Keeps recorded left walk after) (same : left.Perm right) :
    Keeps recorded right walk after :=
  ⟨same.nodup_iff.mp keeps.nodup, fun id member => keeps.fresh id (same.mem_iff.mpr member),
    fun id member => keeps.agrees id (same.mem_iff.mpr member)⟩

/-- The first of two parts, when the second is gone through after it. -/
theorem first (keeps : Keeps recorded (left ++ right) walk after)
    (second : Onward right middle after) : Keeps recorded left walk middle := by
  have parts := List.nodup_append.mp keeps.nodup
  refine ⟨parts.1, fun id member => keeps.fresh id (List.mem_append_left _ member), ?_⟩
  intro id member
  rw [← second.others id fun other => parts.2.2 id member id other rfl]
  exact keeps.agrees id (List.mem_append_left _ member)

theorem second (keeps : Keeps recorded (left ++ right) walk after)
    (first : Onward left walk middle) : Keeps recorded right middle after := by
  have parts := List.nodup_append.mp keeps.nodup
  refine ⟨parts.2.1, ?_, fun id member => keeps.agrees id (List.mem_append_right _ member)⟩
  intro id member
  rw [first.others id fun other => parts.2.2 id other id member rfl]
  exact keeps.fresh id (List.mem_append_right _ member)

/-- Steps that record nothing come before and after. -/
theorem between {before behind : Walk} (keeps : Keeps recorded left walk after)
    (first : Onward [] walk before) (second : Onward [] behind after) :
    Keeps recorded left before behind := by
  have whole : Keeps recorded ([] ++ left ++ []) walk after := by
    rw [List.nil_append, List.append_nil]
    exact keeps
  exact (whole.first second).second first

/-- The two parts of a class declaration in which something is recorded. -/
theorem ofClass {around : Surroundings} {name : Token} {superclass : Option Expr}
    {methods : List Routine} {walk : Walk}
    (keeps : Keeps recorded (Stmt.classDecl name superclass methods).occurrences walk
      ((Stmt.classDecl name superclass methods).resolve around walk)) :
    let named := ((walk.declare name).define name).checkInheritance name superclass
    let inherited := Expr.resolve? (.ofSuperclass superclass) superclass named
    Keeps recorded (Expr.occurrences? superclass) named inherited ∧
      Keeps recorded (Routine.allOccurrences methods) (inherited.enterClass superclass)
        (Routine.resolveMethods (.ofSuperclass superclass) methods
          (inherited.enterClass superclass)) := by
  intro named inherited
  have naming := (named_onward walk name).andThen (checkInheritance_onward _ name superclass)
  have inheriting := Expr.resolve?_onward (.ofSuperclass superclass) superclass named
  have entering := enterClass_onward inherited superclass
  have going := Routine.resolveMethods_onward (.ofSuperclass superclass) methods
    (inherited.enterClass superclass)
  have leaving := leaveClass_onward (Routine.resolveMethods (.ofSuperclass superclass) methods
    (inherited.enterClass superclass)) superclass
  have before := naming.trans (inheriting.andThen entering)
  have behind := entering.trans (going.andThen leaving)
  rw [List.nil_append] at before behind
  exact ⟨(keeps.first behind).between naming (.refl _),
    (keeps.second before).between (.refl _) leaving⟩

end Walk.Keeps

end

end Lox
