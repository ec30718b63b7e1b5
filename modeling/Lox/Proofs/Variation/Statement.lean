import Lox.Grammar.Program
import Lox.Proofs.Variation.Expression
/-! Statements and programs of a text and of a variant of it. Where a declaration cannot
be read its numbers stay taken, and both readings go on at the same place. -/

namespace Lox

/-! ## Recovery -/

section

variable {variation : Variation}

theorem Token.startsStatement_varies {token other : Token} (same : variation.tokens token other) :
    other.startsStatement = token.startsStatement := by
  rw [Token.startsStatement.eq_def, Token.startsStatement.eq_def, variation.kind same]

theorem skipPast_varies {skipped skipped' : Token} {rest rest' : List Token}
    (same : variation.tokens skipped skipped') (texts : variation.Texts rest rest') :
    variation.Texts (skipPast skipped rest) (skipPast skipped' rest') := by
  induction texts generalizing skipped skipped' with
  | nil => exact .nil
  | @cons token token' others others' first texts induction =>
      unfold skipPast
      rw [Variation.hasMark same, Token.startsStatement_varies first]
      split
      · exact .cons first texts
      · exact induction first

theorem recover_varies {rest rest' : List Token} (texts : variation.Texts rest rest') :
    variation.Texts (recover rest) (recover rest') := by
  cases texts with
  | nil => exact .nil
  | cons same texts => exact skipPast_varies same texts

end

namespace Grammar

open Parsed Reading

variable {variation : Variation} {input input' : List Token} {draft draft' : Draft}

/-- A statement that takes the numbers from `first` on. -/
abbrev StmtTaken (variation : Variation) (first : OccurrenceId) :
    Stmt → Stmt → OccurrenceId → Prop :=
  Takes Stmt.occurrences (Stmt.Varies variation) first

abbrev RoutineTaken (variation : Variation) (first : OccurrenceId) :
    Routine → Routine → OccurrenceId → Prop :=
  Takes Routine.occurrences (Routine.Varies variation) first

abbrev StmtsTaken (variation : Variation) (first : OccurrenceId) :
    List Stmt → List Stmt → OccurrenceId → Prop :=
  Takes Stmt.allOccurrences (Stmt.AllVary variation) first

abbrev MethodsTaken (variation : Variation) (first : OccurrenceId) :
    List Routine → List Routine → OccurrenceId → Prop :=
  Takes Routine.allOccurrences (Routine.AllVary variation) first

/-- An expression that need not be there. -/
abbrev OptionalTaken (variation : Variation) (first : OccurrenceId) :
    Option Expr → Option Expr → OccurrenceId → Prop :=
  Takes Expr.occurrences? (Expr.Varies? variation) first

/-- The initializer of a loop, which need not be there. -/
abbrev InitialTaken (variation : Variation) (first : OccurrenceId) :
    Option Stmt → Option Stmt → OccurrenceId → Prop :=
  Takes initialOccurrences (Option.Rel (Stmt.Varies variation)) first

/-! ## What has been passed -/

/-- A declaration that could not be read has taken numbers all the same. -/
theorem recovered_varies {token token' : Token} {others others' : List Token}
    {first : OccurrenceId} {parsed : Parsed Stmt (token :: others)}
    {other : Parsed Stmt (token' :: others')}
    (varies : parsed.Varies variation first (StmtTaken variation first) other) :
    StmtsTaken variation first parsed.recovered.statement?.toList
        other.recovered.statement?.toList parsed.recovered.draft.nextId ∧
      Ahead variation parsed.recovered.rest.1 other.recovered.rest.1 parsed.recovered.draft
        other.recovered.draft := by
  cases parsed with
  | accept stmt rest draft =>
      cases other with
      | accept stmt' _ _ =>
          rcases varies with ⟨_, ahead, numbered, holds⟩
          refine ⟨⟨?_, .cons holds .nil⟩, ahead⟩
          show Numbered first draft.nextId (stmt.occurrences ++ [])
          rw [List.append_nil]
          exact numbered
      | reject _ _ _ => exact varies.elim
  | reject error inside draft =>
      cases other with
      | accept _ _ _ => exact varies.elim
      | reject _ _ _ =>
          rcases varies with ⟨later, ⟨same, texts⟩, drafts⟩
          refine ⟨⟨Numbered.nil.extend later, .nil⟩, recover_varies texts, drafts.ids, ?_⟩
          exact List.rel_append drafts.errors (.cons ⟨same, texts⟩ .nil)

theorem allOccurrences_toList_append (statement? : Option Stmt) (statements : List Stmt) :
    Stmt.allOccurrences (statement?.toList ++ statements) =
      Stmt.allOccurrences statement?.toList ++ Stmt.allOccurrences statements := by
  cases statement? with
  | none => rfl
  | some stmt =>
      rw [Option.toList_some, List.singleton_append, Stmt.allOccurrences, Stmt.allOccurrences,
        Stmt.allOccurrences, List.append_nil]

/-- What stands behind a declaration that has been passed. -/
theorem StmtsTaken.append {first middle next : OccurrenceId} {statement? statement?' : Option Stmt}
    {statements statements' : List Stmt}
    (before : StmtsTaken variation first statement?.toList statement?'.toList middle)
    (after : StmtsTaken variation middle statements statements' next) :
    StmtsTaken variation first (statement?.toList ++ statements)
      (statement?'.toList ++ statements') next := by
  refine ⟨?_, before.2.append after.2⟩
  rw [allOccurrences_toList_append]
  exact before.1.append after.1

/-! ## Parts of statements -/

section

variable {here : OccurrenceId}

theorem expr_varies : (Reading.expr : Reading input Expr).Varies variation here
    (ExprTaken variation here) (Reading.expr : Reading input' Expr) := by
  refine varies_follow ?_
  rintro _ _ _ _ rfl ahead
  exact readExpr_varies ahead

theorem expr?_varies (ending : TokenKind) :
    (Reading.expr? ending : Reading input (Option Expr)).Varies variation here
      (OptionalTaken variation here) (Reading.expr? ending : Reading input' (Option Expr)) := by
  refine varies_isNext fun ended => ?_
  cases ended with
  | true => exact varies_pure ⟨.nil, .none⟩
  | false =>
      exact expr_varies.map some fun _ _ _ taken => ⟨taken.1, .some taken.2⟩

theorem exprStatement_varies : (Reading.exprStatement : Reading input Stmt).Varies variation here
    (StmtTaken variation here) (Reading.exprStatement : Reading input' Stmt) :=
  expr_varies.bind fun _ _ _ _ taken => varies_expect fun _ _ _ =>
    varies_pure ⟨taken.1, .expression taken.2⟩

/-- A variable declaration, once its initializer has been read. -/
theorem variableEnd_varies {name name' : Token} (same : variation.tokens name name')
    {initial : Reading input (Option Expr)} {initial' : Reading input' (Option Expr)}
    (varies : initial.Varies variation here (OptionalTaken variation here) initial') :
    (do
      let initial ← initial
      let _ ← expect (.mark .semicolon) .variableEnd
      return .var name initial : Reading input Stmt).Varies variation here
        (StmtTaken variation here) (do
          let initial ← initial'
          let _ ← expect (.mark .semicolon) .variableEnd
          return .var name' initial : Reading input' Stmt) :=
  varies.bind fun _ _ _ _ taken => varies_expect fun _ _ _ =>
    varies_pure ⟨taken.1, .var same taken.2⟩

theorem variableStatement_varies :
    (Reading.variableStatement : Reading input Stmt).Varies variation here
      (StmtTaken variation here) (Reading.variableStatement : Reading input' Stmt) := by
  refine varies_expect fun name name' same => varies_skip ?_ ?_
  · intro _ _ _
    exact variableEnd_varies same
      (expr_varies.map some fun _ _ _ taken => ⟨taken.1, .some taken.2⟩)
  · exact variableEnd_varies same (varies_pure ⟨.nil, .none⟩)

theorem printStatement_varies :
    (Reading.printStatement : Reading input Stmt).Varies variation here
      (StmtTaken variation here) (Reading.printStatement : Reading input' Stmt) :=
  expr_varies.bind fun _ _ _ _ taken => varies_expect fun _ _ _ =>
    varies_pure ⟨taken.1, .print taken.2⟩

theorem returnStatement_varies {keyword keyword' : Token}
    (same : variation.tokens keyword keyword') :
    (Reading.returnStatement keyword : Reading input Stmt).Varies variation here
      (StmtTaken variation here) (Reading.returnStatement keyword' : Reading input' Stmt) :=
  (expr?_varies _).bind fun _ _ _ _ taken => varies_expect fun _ _ _ =>
    varies_pure ⟨taken.1, .returns same taken.2⟩

theorem forInitializer_varies :
    (Reading.forInitializer : Reading input (Option Stmt)).Varies variation here
      (InitialTaken variation here) (Reading.forInitializer : Reading input' (Option Stmt)) := by
  refine varies_skip (fun _ _ _ => varies_pure ⟨.nil, .none⟩) (varies_skip ?_ ?_)
  · intro _ _ _
    exact variableStatement_varies.map some fun _ _ _ taken => ⟨taken.1, .some taken.2⟩
  · exact exprStatement_varies.map some fun _ _ _ taken => ⟨taken.1, .some taken.2⟩

theorem superclass?_varies :
    (Reading.superclass? : Reading input (Option Expr)).Varies variation here
      (OptionalTaken variation here) (Reading.superclass? : Reading input' (Option Expr)) := by
  refine varies_skip ?_ (varies_pure ⟨.nil, .none⟩)
  intro _ _ _
  exact varies_expect fun _ _ name => varies_freshId fun _ ids =>
    varies_pure ⟨.one, .some (.read ids name)⟩

end

theorem readParameterList_varies {earlier earlier' : List Token} {input input' : List Token}
    {draft draft' : Draft} (ahead : Ahead variation input input' draft draft')
    (taken : variation.Texts earlier earlier') :
    (readParameterList earlier input draft).Varies variation draft.nextId
      (TakesNone variation.Texts draft.nextId) (readParameterList earlier' input' draft') := by
  rw [readParameterList.eq_def earlier input, readParameterList.eq_def earlier' input']
  have full : maximumArity ≤ earlier'.length ↔ maximumArity ≤ earlier.length := by
    rw [taken.length_eq]
  have reported := ahead.drafts.reportIf full .tooManyParameters ahead.texts
  have unchanged := draft.reportIf_nextId (maximumArity ≤ earlier.length)
    ⟨.tooManyParameters, input⟩
  dsimp only
  rw [← unchanged]
  refine (varies_expectFirst ⟨ahead.texts, reported⟩).andThen ?_
  rintro name name' ⟨rest, shorter⟩ ⟨rest', shorter'⟩ middle middle' _ ⟨same, spelled⟩
    ⟨texts, drafts⟩
  have several := List.rel_append taken (.cons spelled .nil)
  rw [← same]
  cases texts with
  | nil => exact varies_reject ⟨rfl, .nil⟩ drafts
  | @cons token token' others others' first texts =>
      dsimp only
      rw [Variation.hasMark first, Variation.hasMark first]
      split
      · have smaller : others.length < input.length := by
          simp only [List.length_cons] at shorter
          omega
        exact (readParameterList_varies ⟨texts, drafts⟩ several).within
      split
      · exact varies_accept ⟨texts, drafts⟩ ⟨rfl, several⟩
      · exact varies_reject ⟨rfl, .cons first texts⟩ drafts
termination_by input.length

theorem readParameters_varies (ahead : Ahead variation input input' draft draft') :
    (readParameters input draft).Varies variation draft.nextId
      (TakesNone variation.Texts draft.nextId) (readParameters input' draft') := by
  rcases ahead with ⟨texts, drafts⟩
  rw [readParameters.eq_def, readParameters.eq_def]
  cases texts with
  | nil => exact readParameterList_varies ⟨.nil, drafts⟩ .nil
  | @cons token token' others others' same texts =>
      dsimp only
      rw [Variation.hasMark same]
      split
      · exact varies_accept ⟨texts, drafts⟩ ⟨rfl, .nil⟩
      · exact readParameterList_varies ⟨.cons same texts, drafts⟩ .nil

/-- A loop with a head of three parts, put together. -/
theorem forLoop_varies {initializer initializer' condition condition' increment increment'}
    {body body' : Stmt} (initialized : Option.Rel (Stmt.Varies variation) initializer initializer')
    (tests : Expr.Varies? variation condition condition')
    (steps : Expr.Varies? variation increment increment') (varies : body.Varies variation body') :
    (Stmt.forLoop initializer condition increment body).Varies variation
      (Stmt.forLoop initializer' condition' increment' body') := by
  have tested : (condition.getD (.literal (.bool true))).Varies variation
      (condition'.getD (.literal (.bool true))) := by
    cases tests with
    | some test => exact test
    | none => exact .literal
  rcases initialized with (first | _) <;> rcases steps with (step | _)
  · exact .block (.cons first (.cons (.loop tested
      (.block (.cons varies (.cons (.expression step) .nil)))) .nil))
  · exact .block (.cons first (.cons (.loop tested varies) .nil))
  · exact .loop tested (.block (.cons varies (.cons (.expression step) .nil)))
  · exact .loop tested varies

/-! ## Statements and declarations -/

mutual
theorem readDeclaration_varies {token token' : Token} {others others' : List Token}
    {draft draft' : Draft} (same : variation.tokens token token')
    (ahead : Ahead variation others others' draft draft') :
    (readDeclaration token others draft).Varies variation draft.nextId
      (StmtTaken variation draft.nextId) (readDeclaration token' others' draft') := by
  rw [readDeclaration.eq_def token others, readDeclaration.eq_def token' others']
  dsimp only
  rw [variation.kind same]
  split
  · exact readClass_varies (token :: others) (token' :: others') _ _ _ _ rfl ahead
  · refine (readRoutine_varies .function ahead).within.andThen ?_
    intro _ _ _ _ _ _ _ taken ahead
    exact varies_accept ahead ⟨taken.1, .function taken.2⟩
  · exact variableStatement_varies _ _ _ _ rfl ahead
  · exact readStatement_varies ⟨.cons same ahead.texts, ahead.drafts⟩
termination_by (others.length + 1) * 16 + 5
decreasing_by
  · simp only [List.length_cons]
    omega
  · omega
  · simp only [List.length_cons]
    omega

theorem readClass_varies (input input' : List Token) {here : OccurrenceId} :
    (readClass input).Varies variation here (StmtTaken variation here) (readClass input') := by
  rw [readClass.eq_def input, readClass.eq_def input']
  have body (first : OccurrenceId) :
      (follow fun rest draft => readMethods rest.1 draft : Reading input (List Routine)).Varies
        variation first (MethodsTaken variation first)
        (follow fun rest draft => readMethods rest.1 draft : Reading input' (List Routine)) := by
    refine varies_follow ?_
    rintro rest rest' draft draft' rfl ahead
    have := rest.2
    exact readMethods_varies ahead
  exact varies_expect fun _ _ name => superclass?_varies.bind fun _ _ _ _ inherits =>
    varies_expect fun _ _ _ => (body _).bind fun _ _ _ _ methods =>
      varies_pure ⟨inherits.1.append methods.1, .classDecl name inherits.2 methods.2⟩
termination_by input.length * 16
decreasing_by omega

theorem readMethods_varies {input input' : List Token} {draft draft' : Draft}
    (ahead : Ahead variation input input' draft draft') :
    (readMethods input draft).Varies variation draft.nextId
      (MethodsTaken variation draft.nextId) (readMethods input' draft') := by
  rw [readMethods.eq_def input, readMethods.eq_def input']
  match input, input', ahead with
  | [], [], ⟨_, drafts⟩ => exact varies_reject ⟨rfl, .nil⟩ drafts
  | token :: others, token' :: others', ⟨.cons same texts, drafts⟩ =>
      dsimp only
      rw [Variation.hasMark same]
      split
      · exact varies_accept ⟨texts, drafts⟩ ⟨.nil, .nil⟩
      · refine (readRoutine_varies .method ⟨.cons same texts, drafts⟩).andThen ?_
        intro method method' rest rest' middle middle' _ first ahead
        have := rest.2
        refine (readMethods_varies ahead).within.andThen ?_
        intro _ _ _ _ _ _ _ several ahead
        exact varies_accept ahead ⟨first.1.append several.1, .cons first.2 several.2⟩
termination_by input.length * 16 + 3
decreasing_by
  all_goals
    simp only [List.length_cons] at *
    omega

theorem readRoutine_varies (role : BodyRole) {input input' : List Token} {draft draft' : Draft}
    (ahead : Ahead variation input input' draft draft') :
    (readRoutine role input draft).Varies variation draft.nextId
      (RoutineTaken variation draft.nextId) (readRoutine role input' draft') := by
  rw [readRoutine.eq_def role input, readRoutine.eq_def role input']
  have parameters (first : OccurrenceId) :
      (follow fun rest draft => readParameters rest.1 draft : Reading input (List Token)).Varies
        variation first (TakesNone variation.Texts first)
        (follow fun rest draft => readParameters rest.1 draft : Reading input' (List Token)) := by
    refine varies_follow ?_
    rintro _ _ _ _ rfl ahead
    exact readParameters_varies ahead
  have block (first : OccurrenceId) :
      (follow fun rest draft => readBlock rest.1 draft : Reading input (List Stmt)).Varies
        variation first (StmtsTaken variation first)
        (follow fun rest draft => readBlock rest.1 draft : Reading input' (List Stmt)) := by
    refine varies_follow ?_
    rintro rest rest' draft draft' rfl ahead
    have := rest.2
    exact readBlock_varies ahead
  refine (varies_expectFirst ahead).andThen ?_
  rintro name name' rest rest' middle middle' _ ⟨unchanged, spelled⟩ ahead
  have whole : (do
      let _ ← Reading.expect (.mark .leftParen) (.parametersStart role)
      let parameters ← Reading.follow fun rest draft => readParameters rest.1 draft
      let _ ← Reading.expect (.mark .leftBrace) (.bodyStart role)
      let body ← Reading.follow fun rest draft => readBlock rest.1 draft
      return .mk name parameters body : Reading input Routine).Varies variation middle.nextId
        (RoutineTaken variation draft.nextId) (do
          let _ ← Reading.expect (.mark .leftParen) (.parametersStart role)
          let parameters ← Reading.follow fun rest draft => readParameters rest.1 draft
          let _ ← Reading.expect (.mark .leftBrace) (.bodyStart role)
          let body ← Reading.follow fun rest draft => readBlock rest.1 draft
          return .mk name' parameters body : Reading input' Routine) := by
    refine varies_expect fun _ _ _ => (parameters _).bind ?_
    rintro _ _ _ _ ⟨rfl, taken⟩
    refine varies_expect fun _ _ _ => (block _).bind fun _ _ _ _ body => varies_pure ⟨?_, ?_⟩
    · rw [← unchanged]
      exact body.1
    · exact .mk spelled taken body.2
  exact whole rest rest' middle middle' rfl ahead
termination_by input.length * 16 + 2
decreasing_by omega

theorem readBlock_varies {input input' : List Token} {draft draft' : Draft}
    (ahead : Ahead variation input input' draft draft') :
    (readBlock input draft).Varies variation draft.nextId (StmtsTaken variation draft.nextId)
      (readBlock input' draft') := by
  rw [readBlock.eq_def input, readBlock.eq_def input']
  match input, input', ahead with
  | [], [], ⟨_, drafts⟩ => exact varies_reject ⟨rfl, .nil⟩ drafts
  | token :: others, token' :: others', ⟨.cons same texts, drafts⟩ =>
      dsimp only
      rw [Variation.hasMark same]
      split
      · exact varies_accept ⟨texts, drafts⟩ ⟨.nil, .nil⟩
      · have first := recovered_varies (readDeclaration_varies same ⟨texts, drafts⟩)
        rw [passDeclaration, passDeclaration]
        generalize (readDeclaration token others draft).recovered = passed at first ⊢
        generalize (readDeclaration token' others' draft').recovered = passed' at first ⊢
        rcases passed with ⟨statement?, rest, middle⟩
        rcases passed' with ⟨statement?', rest', middle'⟩
        rcases first with ⟨declared, ahead⟩
        have smaller := rest.2
        refine ((readBlock_varies ahead).within.andThen ?_).mono declared.1.ordered
        intro _ _ _ _ _ _ _ several ahead
        exact varies_accept ahead (StmtsTaken.append declared several)
termination_by input.length * 16 + 7
decreasing_by
  all_goals
    simp only [List.length_cons] at *
    omega

theorem readStatement_varies {input input' : List Token} {draft draft' : Draft}
    (ahead : Ahead variation input input' draft draft') :
    (readStatement input draft).Varies variation draft.nextId (StmtTaken variation draft.nextId)
      (readStatement input' draft') := by
  rw [readStatement.eq_def input, readStatement.eq_def input']
  match input, input', ahead with
  | [], [], ⟨_, drafts⟩ => exact varies_reject ⟨rfl, .nil⟩ drafts
  | token :: others, token' :: others', ⟨.cons same texts, drafts⟩ =>
      dsimp only
      rw [variation.kind same]
      split
      · exact readFor_varies (token :: others) (token' :: others') _ _ _ _ rfl ⟨texts, drafts⟩
      · exact readConditional_varies (token :: others) (token' :: others') _ _ _ _ rfl
          ⟨texts, drafts⟩
      · exact readLoop_varies (token :: others) (token' :: others') _ _ _ _ rfl ⟨texts, drafts⟩
      · exact returnStatement_varies same _ _ _ _ rfl ⟨texts, drafts⟩
      · refine (readBlock_varies ⟨texts, drafts⟩).within.andThen ?_
        intro _ _ _ _ _ _ _ taken ahead
        exact varies_accept ahead ⟨taken.1, .block taken.2⟩
      · exact printStatement_varies _ _ _ _ rfl ⟨texts, drafts⟩
      · refine (readExpr_varies ⟨.cons same texts, drafts⟩).andThen ?_
        intro value value' rest rest' middle middle' _ taken ahead
        exact varies_expect (fun _ _ _ => varies_pure ⟨taken.1, .expression taken.2⟩) _ _ _ _ rfl
          ahead
termination_by input.length * 16 + 4
decreasing_by
  all_goals
    simp only [List.length_cons]
    omega

theorem readFor_varies (input input' : List Token) {here : OccurrenceId} :
    (readFor input).Varies variation here (StmtTaken variation here) (readFor input') := by
  rw [readFor.eq_def input, readFor.eq_def input']
  have statement (first : OccurrenceId) :
      (follow fun rest draft => readStatement rest.1 draft : Reading input Stmt).Varies
        variation first (StmtTaken variation first)
        (follow fun rest draft => readStatement rest.1 draft : Reading input' Stmt) := by
    refine varies_follow ?_
    rintro rest rest' draft draft' rfl ahead
    have := rest.2
    exact readStatement_varies ahead
  exact varies_expect fun _ _ _ => forInitializer_varies.bind fun _ _ _ _ initialized =>
    (expr?_varies _).bind fun _ _ _ _ tests => varies_expect fun _ _ _ =>
      (expr?_varies _).bind fun _ _ _ _ steps => varies_expect fun _ _ _ =>
        (statement _).bind fun _ _ _ _ body => varies_pure
          ⟨(initialized.1.append (tests.1.append (steps.1.append body.1))).perm
            (forLoop_occurrences _ _ _ _),
            forLoop_varies initialized.2 tests.2 steps.2 body.2⟩
termination_by input.length * 16
decreasing_by omega

theorem readConditional_varies (input input' : List Token) {here : OccurrenceId} :
    (readConditional input).Varies variation here (StmtTaken variation here)
      (readConditional input') := by
  rw [readConditional.eq_def input, readConditional.eq_def input']
  have statement (first : OccurrenceId) :
      (follow fun rest draft => readStatement rest.1 draft : Reading input Stmt).Varies
        variation first (StmtTaken variation first)
        (follow fun rest draft => readStatement rest.1 draft : Reading input' Stmt) := by
    refine varies_follow ?_
    rintro rest rest' draft draft' rfl ahead
    have := rest.2
    exact readStatement_varies ahead
  refine varies_expect fun _ _ _ => expr_varies.bind fun _ _ _ _ condition =>
    varies_expect fun _ _ _ => (statement _).bind fun _ _ _ _ thenBranch => varies_skip ?_ ?_
  · intro _ _ _
    exact (statement _).bind fun _ _ _ _ elseBranch => varies_pure
      ⟨condition.1.append (thenBranch.1.append elseBranch.1),
        .conditionalElse condition.2 thenBranch.2 elseBranch.2⟩
  · exact varies_pure
      ⟨condition.1.append thenBranch.1, .conditional condition.2 thenBranch.2⟩
termination_by input.length * 16
decreasing_by all_goals omega

theorem readLoop_varies (input input' : List Token) {here : OccurrenceId} :
    (readLoop input).Varies variation here (StmtTaken variation here) (readLoop input') := by
  rw [readLoop.eq_def input, readLoop.eq_def input']
  have statement (first : OccurrenceId) :
      (follow fun rest draft => readStatement rest.1 draft : Reading input Stmt).Varies
        variation first (StmtTaken variation first)
        (follow fun rest draft => readStatement rest.1 draft : Reading input' Stmt) := by
    refine varies_follow ?_
    rintro rest rest' draft draft' rfl ahead
    have := rest.2
    exact readStatement_varies ahead
  exact varies_expect fun _ _ _ => expr_varies.bind fun _ _ _ _ condition =>
    varies_expect fun _ _ _ => (statement _).bind fun _ _ _ _ body => varies_pure
      ⟨condition.1.append body.1, .loop condition.2 body.2⟩
termination_by input.length * 16
decreasing_by omega
end

/-! ## Programs -/

/-- Whatever the tokens are, the declarations that can be read take numbers from the first
one on, and a variant of the text has a variant of them. -/
theorem readProgram_varies {input input' : List Token} {draft draft' : Draft}
    (ahead : Ahead variation input input' draft draft') :
    StmtsTaken variation draft.nextId (readProgram input draft).1 (readProgram input' draft').1
        (readProgram input draft).2.nextId ∧
      (readProgram input draft).2.Varies variation (readProgram input' draft').2 := by
  rw [readProgram.eq_def input, readProgram.eq_def input']
  match input, input', ahead with
  | [], [], ⟨_, drafts⟩ => exact ⟨⟨.nil, .nil⟩, drafts⟩
  | token :: others, token' :: others', ⟨.cons same texts, drafts⟩ =>
      have first := recovered_varies (readDeclaration_varies same ⟨texts, drafts⟩)
      dsimp only
      rw [passDeclaration, passDeclaration]
      generalize (readDeclaration token others draft).recovered = passed at first ⊢
      generalize (readDeclaration token' others' draft').recovered = passed' at first ⊢
      rcases passed with ⟨statement?, rest, middle⟩
      rcases passed' with ⟨statement?', rest', middle'⟩
      rcases first with ⟨declared, ahead⟩
      have smaller := rest.2
      have several := readProgram_varies ahead
      exact ⟨StmtsTaken.append declared several.1, several.2⟩
termination_by input.length
decreasing_by exact smaller

end Grammar

end Lox
