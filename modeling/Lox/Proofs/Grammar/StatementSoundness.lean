import Lox.Proofs.Grammar.ExpressionSoundness
import Lox.Grammar.Program
/-! What is read as a statement, a declaration or a program without an error is one
of the grammar. Which conditional an `else` belongs to is not looked at here. -/

namespace Lox

/-- A declaration that has been passed without an error has been read. -/
theorem Parsed.Finds.recovered {first : Token} {others : List Token} {draft : Draft}
    {phrase : Phrase Stmt} {parsed : Parsed Stmt (first :: others)}
    (finds : parsed.Finds (first :: others) draft phrase)
    (clean : parsed.recovered.draft.errors = []) :
    draft.errors = [] ∧ ∃ taken stmt, first :: others = taken ++ parsed.recovered.rest.1 ∧
      parsed.recovered.statement? = some stmt ∧
        phrase taken draft.nextId stmt parsed.recovered.draft.nextId := by
  cases parsed with
  | accept stmt rest after =>
      rcases finds stmt rest.1 after (.of_eq rfl) clean with ⟨before, taken, split, found⟩
      exact ⟨before, taken, stmt, split, rfl, found⟩
  | reject error inside after =>
      simp [Parsed.recovered, Draft.report] at clean

namespace Grammar

open Parsed Reading

variable {input : List Token}

/-! ## Parts of statements -/

theorem expr_finds : (Reading.expr : Reading input Expr).Finds (Derives .expression) :=
  finds_follow fun rest draft => readExpr_finds rest.1 draft

theorem expr?_finds (ending : TokenKind) :
    (Reading.expr? ending : Reading input (Option Expr)).Finds OptionalExpr := by
  unfold Reading.expr?
  refine ((finds_isNext ending).bind fun ended =>
    (?_ : Reading.Finds _ OptionalExpr)).mono ?_
  · cases ended with
    | true =>
        refine (finds_pure none).mono ?_
        rintro _ _ _ _ ⟨rfl, rfl, rfl⟩
        exact .none
    | false =>
        refine (expr_finds.bind fun tree => finds_pure (some tree)).mono ?_
        rintro _ _ _ _ ⟨_, _, _, _, rfl, derived, rfl, rfl, rfl⟩
        rw [List.append_nil]
        exact .some derived
  · rintro _ _ _ _ ⟨_, _, _, _, rfl, ⟨rfl, rfl⟩, found⟩
    exact found

theorem exprStatement_finds : (Reading.exprStatement : Reading input Stmt).Finds
    ExpressionStatement := by
  unfold Reading.exprStatement
  refine (expr_finds.bind fun value => (finds_expect _ _).bind fun _ => finds_pure _).mono ?_
  rintro _ _ _ _ ⟨_, _, _, _, rfl, derived, _, _, _, _, rfl, ⟨rfl, ended, rfl⟩, rfl, rfl, rfl⟩
  exact .mk derived (TokenKind.alike_mark.mp ended)

theorem variableStatement_finds {word : Token} (kind : word.kind = .keyword .varWord) :
    (Reading.variableStatement : Reading input Stmt).Finds
      fun tokens => VariableStatement (word :: tokens) := by
  unfold Reading.variableStatement
  refine ((finds_expect _ _).bind fun name => Finds.skip (fun tokens first stmt next =>
    ∃ others initial semicolon, tokens = others ++ [semicolon] ∧
      InitialValue others first initial next ∧ semicolon.kind = .mark .semicolon ∧
      stmt = .var name initial) ?_ ?_).mono ?_
  · intro equals equal
    refine ((expr_finds.map some).bind fun _ => (finds_expect _ _).bind fun _ =>
      finds_pure _).mono ?_
    rintro _ _ _ _ ⟨_, _, _, _, rfl, ⟨tokens, _, tree, _, rfl, derived, rfl, rfl, rfl⟩,
      _, _, semicolon, _, rfl, ⟨rfl, ended, rfl⟩, rfl, rfl, rfl⟩
    refine ⟨equals :: tokens, some tree, semicolon, by simp, ?_, TokenKind.alike_mark.mp ended, rfl⟩
    exact .some (TokenKind.alike_mark.mp equal) derived
  · refine ((finds_expect _ _).bind fun _ => finds_pure _).mono ?_
    rintro _ _ _ _ ⟨_, _, semicolon, _, rfl, ⟨rfl, ended, rfl⟩, rfl, rfl, rfl⟩
    exact ⟨[], none, semicolon, rfl, .none, TokenKind.alike_mark.mp ended, rfl⟩
  · rintro _ _ _ _ ⟨_, _, name, _, rfl, ⟨rfl, named, rfl⟩,
      _, _, semicolon, rfl, initialized, ended, rfl⟩
    exact .mk kind (TokenKind.alike_identifier.mp named) initialized ended

theorem printStatement_finds {word : Token} (kind : word.kind = .keyword .printWord) :
    (Reading.printStatement : Reading input Stmt).Finds
      fun tokens => Statement false false (word :: tokens) := by
  unfold Reading.printStatement
  refine (expr_finds.bind fun value => (finds_expect _ _).bind fun _ => finds_pure _).mono ?_
  rintro _ _ _ _ ⟨_, _, _, _, rfl, derived, _, _, _, _, rfl, ⟨rfl, ended, rfl⟩, rfl, rfl, rfl⟩
  exact .print kind derived (TokenKind.alike_mark.mp ended)

theorem returnStatement_finds {word : Token} (kind : word.kind = .keyword .returnWord) :
    (Reading.returnStatement word : Reading input Stmt).Finds
      fun tokens => Statement false false (word :: tokens) := by
  unfold Reading.returnStatement
  refine ((expr?_finds _).bind fun value => (finds_expect _ _).bind fun _ =>
    finds_pure _).mono ?_
  rintro _ _ _ _ ⟨_, _, _, _, rfl, derived, _, _, _, _, rfl, ⟨rfl, ended, rfl⟩, rfl, rfl, rfl⟩
  exact .returns kind derived (TokenKind.alike_mark.mp ended)

theorem forInitializer_finds :
    (Reading.forInitializer : Reading input (Option Stmt)).Finds LoopInitializer := by
  unfold Reading.forInitializer
  refine Finds.skip _ ?_ (Finds.skip _ ?_ ?_)
  · intro semicolon ended
    refine (finds_pure none).mono ?_
    rintro _ _ _ _ ⟨rfl, rfl, rfl⟩
    exact .none (TokenKind.alike_mark.mp ended)
  · intro word kind
    refine ((variableStatement_finds (TokenKind.alike_keyword.mp kind)).map some).mono ?_
    rintro _ _ _ _ ⟨_, _, _, _, rfl, derived, rfl, rfl, rfl⟩
    rw [List.append_nil]
    exact .var derived
  · refine (exprStatement_finds.map some).mono ?_
    rintro _ _ _ _ ⟨_, _, _, _, rfl, derived, rfl, rfl, rfl⟩
    rw [List.append_nil]
    exact .expression derived

theorem superclass?_finds :
    (Reading.superclass? : Reading input (Option Expr)).Finds Superclass := by
  unfold Reading.superclass?
  refine Finds.skip _ ?_ ?_
  · intro less kind
    refine ((finds_expect _ _).bind fun name => finds_freshId.bind fun _ => finds_pure _).mono ?_
    rintro _ _ _ _ ⟨_, _, name, _, rfl, ⟨rfl, named, rfl⟩, _, _, _, _, rfl, ⟨rfl, rfl, rfl⟩,
      rfl, rfl, rfl⟩
    exact .some (TokenKind.alike_mark.mp kind) (TokenKind.alike_identifier.mp named)
  · refine (finds_pure none).mono ?_
    rintro _ _ _ _ ⟨rfl, rfl, rfl⟩
    exact .none

/-! ## Parameters -/

/-- At least one more parameter, and the closing parenthesis. -/
def MoreParameters (earlier : List Token) : Phrase (List Token) :=
  fun tokens first found next =>
    next = first ∧ found.length ≤ maximumArity ∧ ∃ others names finish,
      tokens = others ++ [finish] ∧ found = earlier ++ names ∧ ParameterNames others names ∧
        finish.kind = .mark .rightParen

/-- Parameters and the closing parenthesis. -/
def ParametersAndEnd : Phrase (List Token) :=
  fun tokens first found next =>
    next = first ∧ ∃ others finish, tokens = others ++ [finish] ∧ Parameters others found ∧
      finish.kind = .mark .rightParen

theorem readParameterList_finds (earlier : List Token) (input : List Token) (draft : Draft) :
    (readParameterList earlier input draft).Finds input draft (MoreParameters earlier) := by
  rw [readParameterList]
  refine (Finds.unreported ((finds_expectFirst _ _ input _).andThen
    (fun name tokens middle found next => ¬ maximumArity ≤ earlier.length →
      name.kind = .identifier → MoreParameters earlier (name :: tokens) middle found next)
    ?_)).mono ?_
  · rintro name ⟨rest, shorter⟩ draft
    cases rest with
    | nil => exact finds_reject
    | cons token others =>
        dsimp only
        split
        · rename_i marked
          have smaller : others.length < input.length := by
            simp only [List.length_cons] at shorter
            omega
          refine (readParameterList_finds (earlier ++ [name]) others draft).within.after ?_
          rintro _ _ _ _ ⟨rfl, bounded, others, names, finish, rfl, rfl, several, ended⟩ _ named
          refine ⟨rfl, bounded, name :: token :: others, name :: names, finish, rfl, ?_, ?_, ended⟩
          · simp
          · exact .more named (Token.hasMark_iff.mp marked) several
        split
        · rename_i marked
          refine finds_accept [token] rfl ?_
          intro free named
          refine ⟨rfl, ?_, [name], [name], token, rfl, rfl, .one named,
            Token.hasMark_iff.mp marked⟩
          rw [List.length_append, List.length_singleton]
          omega
        · exact finds_reject
  · rintro _ _ found next ⟨free, _, tokens, name, _, rfl, ⟨rfl, named, rfl⟩, continued⟩
    exact continued free (TokenKind.alike_identifier.mp named)
termination_by input.length

theorem readParameters_finds (input : List Token) (draft : Draft) :
    (readParameters input draft).Finds input draft ParametersAndEnd := by
  have several (input : List Token) :
      (readParameterList [] input draft).Finds input draft ParametersAndEnd := by
    refine (readParameterList_finds [] input draft).mono ?_
    rintro _ _ _ _ ⟨rfl, bounded, others, names, finish, rfl, rfl, derived, ended⟩
    exact ⟨rfl, others, finish, rfl, .some derived bounded, ended⟩
  unfold readParameters
  split
  · exact several []
  · rename_i token others
    split
    · rename_i marked
      exact finds_accept [token] rfl
        ⟨rfl, [], token, rfl, .none, Token.hasMark_iff.mp marked⟩
    · exact several (token :: others)

/-! ## Statements and declarations -/

/-- The body of a class and its closing brace. -/
def MethodsAndEnd : Phrase (List Routine) :=
  fun tokens first methods next => ∃ others finish, tokens = others ++ [finish] ∧
    Methods false others first methods next ∧ finish.kind = .mark .rightBrace

/-- The declarations of a block and its closing brace. -/
def BodyAndEnd : Phrase (List Stmt) :=
  fun tokens first body next => ∃ others finish, tokens = others ++ [finish] ∧
    Declarations false others first body next ∧ finish.kind = .mark .rightBrace

def SomeStatement : Phrase Stmt :=
  fun tokens first stmt next => ∃ takesElse, Statement false takesElse tokens first stmt next

mutual
theorem readDeclaration_finds (first : Token) (others : List Token) (draft : Draft) :
    (readDeclaration first others draft).Finds (first :: others) draft (Declaration false) := by
  rw [readDeclaration]
  split
  all_goals rename_i kind
  · exact readClass_finds (first :: others) kind (.tail first others) draft |>.after
      fun _ _ _ _ found => found
  · refine ((readRoutine_finds .function others draft).within.andThen _ fun routine =>
      finds_pure _).after ?_
    rintro _ _ _ _ ⟨_, _, routine, _, rfl, derived, rfl, rfl, rfl⟩
    rw [List.append_nil]
    exact .function kind derived
  · refine (variableStatement_finds kind (.tail first others) draft).after ?_
    intro _ _ _ _ found
    exact .var found
  · refine (readStatement_finds (first :: others) draft).mono ?_
    rintro _ _ _ _ ⟨_, found⟩
    exact .statement found
termination_by (others.length + 1) * 16 + 5
decreasing_by
  · simp only [List.length_cons]
    omega
  · omega
  · simp only [List.length_cons]
    omega

theorem readClass_finds (input : List Token) {word : Token}
    (kind : word.kind = .keyword .classWord) :
    (readClass input).Finds fun tokens => Declaration false (word :: tokens) := by
  rw [readClass]
  have body :
      (follow fun rest draft => readMethods rest.1 draft : Reading input (List Routine)).Finds
        MethodsAndEnd :=
    finds_follow fun rest draft => by
      have := rest.2
      exact readMethods_finds rest.1 draft
  refine ((finds_expect _ _).bind fun name => superclass?_finds.bind fun superclass =>
    (finds_expect _ _).bind fun _ => body.bind fun methods =>
      finds_pure _).mono ?_
  · rintro _ _ _ _ ⟨_, _, name, _, rfl, ⟨rfl, named, rfl⟩, heading, _, superclass, _, rfl, derived,
      _, _, start, _, rfl, ⟨rfl, started, rfl⟩, _, _, methods, _, rfl,
      ⟨tokens, finish, rfl, several, ended⟩, rfl, rfl, rfl⟩
    rw [List.append_nil]
    exact .classDecl kind (TokenKind.alike_identifier.mp named) derived
      (TokenKind.alike_mark.mp started) several ended
termination_by input.length * 16
decreasing_by omega

theorem readMethods_finds (input : List Token) (draft : Draft) :
    (readMethods input draft).Finds input draft MethodsAndEnd := by
  cases input with
  | nil =>
      rw [readMethods]
      exact finds_reject
  | cons token others =>
      rw [readMethods]
      split
      · rename_i marked
        exact finds_accept [token] rfl
          ⟨[], token, rfl, .nil, Token.hasMark_iff.mp marked⟩
      · refine ((readRoutine_finds .method (token :: others) draft).andThen
          (fun method => Phrase.andThen MethodsAndEnd fun methods =>
            .empty (method :: methods)) fun method rest draft => ?_).mono ?_
        · have := rest.2
          exact (readMethods_finds rest.1 draft).within.andThen _ fun methods => finds_pure _
        · rintro _ _ _ _ ⟨taken, _, method, _, rfl, derived, _, _, methods, _, rfl,
            ⟨tokens, finish, rfl, several, ended⟩, rfl, rfl, rfl⟩
          exact ⟨taken ++ tokens, finish, by simp, .cons derived several, ended⟩
termination_by input.length * 16 + 3
decreasing_by
  all_goals
    simp only [List.length_cons] at *
    omega

theorem readRoutine_finds (role : BodyRole) (input : List Token) (draft : Draft) :
    (readRoutine role input draft).Finds input draft (Function false) := by
  rw [readRoutine]
  have block :
      (follow fun rest draft => readBlock rest.1 draft : Reading input (List Stmt)).Finds
        BodyAndEnd :=
    finds_follow fun rest draft => by
      have := rest.2
      exact readBlock_finds rest.1 draft
  refine ((finds_expectFirst _ _ input draft).andThen _ fun name => (finds_expect _ _).bind fun _ =>
    (finds_follow fun rest draft => readParameters_finds rest.1 draft).bind fun parameters =>
      (finds_expect _ _).bind fun _ => block.bind fun body =>
        finds_pure _).mono ?_
  · rintro _ _ _ _ ⟨_, _, name, _, rfl, ⟨rfl, named, rfl⟩, _, _, start, _, rfl, ⟨rfl, started, rfl⟩,
      _, _, parameters, _, rfl, ⟨rfl, names, finish, rfl, declared, finished⟩,
      _, _, opening, _, rfl, ⟨rfl, opened, rfl⟩, _, _, body, _, rfl,
      ⟨tokens, closing, rfl, several, closed⟩, rfl, rfl, rfl⟩
    have derived := Function.mk (TokenKind.alike_identifier.mp named)
      (TokenKind.alike_mark.mp started) declared finished (TokenKind.alike_mark.mp opened)
      several closed
    simpa using derived
termination_by input.length * 16 + 2
decreasing_by omega

theorem readBlock_finds (input : List Token) (draft : Draft) :
    (readBlock input draft).Finds input draft BodyAndEnd := by
  cases input with
  | nil =>
      rw [readBlock]
      exact finds_reject
  | cons token others =>
      rw [readBlock]
      split
      · rename_i marked
        exact finds_accept [token] rfl
          ⟨[], token, rfl, .nil, Token.hasMark_iff.mp marked⟩
      · have first := (readDeclaration_finds token others draft).recovered
        rw [passDeclaration]
        generalize (readDeclaration token others draft).recovered = passed at first
        rcases passed with ⟨statement?, rest, middle⟩
        have smaller := rest.2
        have goesOn : (((readBlock rest.1 middle).within rest).andThen fun statements =>
            return statement?.toList ++ statements).Finds rest.1 middle
              (Phrase.andThen BodyAndEnd fun statements =>
                .empty (statement?.toList ++ statements)) :=
          (readBlock_finds rest.1 middle).within.andThen _ fun statements => finds_pure _
        intro value left after accepted clean
        rcases goesOn value left after accepted clean with
          ⟨middleClean, _, split, _, _, statements, _, rfl,
            ⟨tokens, finish, rfl, several, ended⟩, rfl, rfl, same⟩
        rcases first middleClean with ⟨before, taken, stmt, whole, rfl, declared⟩
        refine ⟨before, taken ++ tokens ++ [finish], ?_, taken ++ tokens, finish, rfl, ?_, ended⟩
        · rw [whole, split]
          simp
        · rw [same]
          exact .cons declared several
termination_by input.length * 16 + 7
decreasing_by
  all_goals
    simp only [List.length_cons] at *
    omega

theorem readStatement_finds (input : List Token) (draft : Draft) :
    (readStatement input draft).Finds input draft SomeStatement := by
  cases input with
  | nil =>
      rw [readStatement]
      exact finds_reject
  | cons first others =>
      rw [readStatement]
      split
      all_goals rename_i kind
      · exact (readFor_finds (first :: others) kind (.tail first others) draft).after
          fun _ _ _ _ found => found
      · exact (readConditional_finds (first :: others) kind (.tail first others) draft).after
          fun _ _ _ _ found => found
      · exact (readLoop_finds (first :: others) kind (.tail first others) draft).after
          fun _ _ _ _ found => found
      · exact (returnStatement_finds kind (.tail first others) draft).after
          fun _ _ _ _ found => ⟨_, found⟩
      · refine ((readBlock_finds others draft).within.andThen _ fun body => finds_pure _).after ?_
        rintro _ _ _ _ ⟨_, _, body, _, rfl, ⟨tokens, finish, rfl, several, ended⟩, rfl, rfl, rfl⟩
        rw [List.append_nil]
        exact ⟨_, .block kind several ended⟩
      · exact (printStatement_finds kind (.tail first others) draft).after
          fun _ _ _ _ found => ⟨_, found⟩
      · refine ((readExpr_finds (first :: others) draft).andThen _ fun value =>
          (finds_expect _ _).bind fun _ => finds_pure _).mono ?_
        rintro _ _ _ _ ⟨_, _, _, _, rfl, derived, _, _, _, _, rfl, ⟨rfl, ended, rfl⟩,
          rfl, rfl, rfl⟩
        exact ⟨_, .expression (.mk derived (TokenKind.alike_mark.mp ended))⟩
termination_by input.length * 16 + 4
decreasing_by
  all_goals
    simp only [List.length_cons]
    omega

theorem readFor_finds (input : List Token) {word : Token}
    (kind : word.kind = .keyword .forWord) :
    (readFor input).Finds fun tokens => SomeStatement (word :: tokens) := by
  rw [readFor]
  have statement :
      (follow fun rest draft => readStatement rest.1 draft : Reading input Stmt).Finds
        SomeStatement :=
    finds_follow fun rest draft => by
      have := rest.2
      exact readStatement_finds rest.1 draft
  refine ((finds_expect _ _).bind fun _ => forInitializer_finds.bind fun initializer =>
    (expr?_finds _).bind fun condition => (finds_expect _ _).bind fun _ =>
      (expr?_finds _).bind fun increment => (finds_expect _ _).bind fun _ =>
        statement.bind fun body => finds_pure _).mono ?_
  · rintro _ _ _ _ ⟨_, _, start, _, rfl, ⟨rfl, started, rfl⟩, _, _, initializer, _, rfl, initial,
      _, _, condition, _, rfl, tested, _, _, semicolon, _, rfl, ⟨rfl, parted, rfl⟩,
      _, _, increment, _, rfl, stepped, _, _, finish, _, rfl, ⟨rfl, finished, rfl⟩,
      _, _, body, _, rfl, ⟨takesElse, derived⟩, rfl, rfl, rfl⟩
    rw [List.append_nil, ← loopTree_eq]
    exact ⟨_, .forLoop kind (TokenKind.alike_mark.mp started) initial tested
      (TokenKind.alike_mark.mp parted) stepped (TokenKind.alike_mark.mp finished) derived⟩
termination_by input.length * 16
decreasing_by omega

theorem readConditional_finds (input : List Token) {word : Token}
    (kind : word.kind = .keyword .ifWord) :
    (readConditional input).Finds fun tokens => SomeStatement (word :: tokens) := by
  rw [readConditional]
  have statement :
      (follow fun rest draft => readStatement rest.1 draft : Reading input Stmt).Finds
        SomeStatement :=
    finds_follow fun rest draft => by
      have := rest.2
      exact readStatement_finds rest.1 draft
  refine ((finds_expect _ _).bind fun _ => expr_finds.bind fun condition =>
    (finds_expect _ _).bind fun _ => statement.bind fun thenBranch =>
      Finds.skip (fun tokens first stmt next =>
        (∃ elseWord rest elseBranch, tokens = elseWord :: rest ∧
          elseWord.kind = .keyword .elseWord ∧ SomeStatement rest first elseBranch next ∧
          stmt = .conditional condition thenBranch (some elseBranch)) ∨
        tokens = [] ∧ next = first ∧ stmt = .conditional condition thenBranch none)
        ?_ ?_).mono ?_
  · intro elseWord kind
    refine (statement.bind fun elseBranch => finds_pure _).mono ?_
    · rintro _ _ _ _ ⟨rest, _, elseBranch, _, rfl, found, rfl, rfl, rfl⟩
      rw [List.append_nil]
      exact .inl ⟨elseWord, rest, elseBranch, rfl, TokenKind.alike_keyword.mp kind, found, rfl⟩
  · refine (finds_pure _).mono ?_
    rintro _ _ _ _ ⟨rfl, rfl, rfl⟩
    exact .inr ⟨rfl, rfl, rfl⟩
  · rintro _ _ _ _ ⟨_, _, start, _, rfl, ⟨rfl, started, rfl⟩, _, _, condition, _, rfl, tested,
      _, _, finish, _, rfl, ⟨rfl, finished, rfl⟩, _, _, thenBranch, _, rfl, ⟨takesElse, derived⟩,
      ⟨elseWord, rest, elseBranch, rfl, kindElse, ⟨_, found⟩, rfl⟩ | ⟨rfl, rfl, rfl⟩⟩
    · exact ⟨_, .conditionalElse kind (TokenKind.alike_mark.mp started) tested
        (TokenKind.alike_mark.mp finished) derived nofun kindElse found⟩
    · rw [List.append_nil]
      exact ⟨_, .conditional kind (TokenKind.alike_mark.mp started) tested
        (TokenKind.alike_mark.mp finished) derived⟩
termination_by input.length * 16
decreasing_by all_goals omega

theorem readLoop_finds (input : List Token) {word : Token}
    (kind : word.kind = .keyword .whileWord) :
    (readLoop input).Finds fun tokens => SomeStatement (word :: tokens) := by
  rw [readLoop]
  have statement :
      (follow fun rest draft => readStatement rest.1 draft : Reading input Stmt).Finds
        SomeStatement :=
    finds_follow fun rest draft => by
      have := rest.2
      exact readStatement_finds rest.1 draft
  refine ((finds_expect _ _).bind fun _ => expr_finds.bind fun condition =>
    (finds_expect _ _).bind fun _ => statement.bind fun body =>
      finds_pure _).mono ?_
  · rintro _ _ _ _ ⟨_, _, start, _, rfl, ⟨rfl, started, rfl⟩, _, _, condition, _, rfl, tested,
      _, _, finish, _, rfl, ⟨rfl, finished, rfl⟩, _, _, body, _, rfl, ⟨takesElse, derived⟩,
      rfl, rfl, rfl⟩
    rw [List.append_nil]
    exact ⟨_, .loop kind (TokenKind.alike_mark.mp started) tested
      (TokenKind.alike_mark.mp finished) derived⟩
termination_by input.length * 16
decreasing_by omega
end

/-! ## Programs -/

/-- A program that is read without an error follows the grammar. -/
theorem readProgram_finds (input : List Token) (draft : Draft)
    (clean : (readProgram input draft).2.errors = []) :
    draft.errors = [] ∧ Declarations false input draft.nextId (readProgram input draft).1
      (readProgram input draft).2.nextId := by
  cases input with
  | nil =>
      rw [readProgram] at clean ⊢
      exact ⟨clean, .nil⟩
  | cons first others =>
      have declared := (readDeclaration_finds first others draft).recovered
      rw [readProgram, passDeclaration] at clean ⊢
      generalize (readDeclaration first others draft).recovered = passed at declared clean
      rcases passed with ⟨statement?, rest, middle⟩
      have smaller := rest.2
      rcases readProgram_finds rest.1 middle clean with ⟨middleClean, several⟩
      rcases declared middleClean with ⟨before, taken, stmt, whole, rfl, found⟩
      have listed := Declarations.cons found several
      rw [← whole] at listed
      exact ⟨before, listed⟩
termination_by input.length

end Grammar

end Lox
