import Lox.Proofs.Grammar.ExpressionCompleteness
import Lox.Grammar.Program
/-! Every program of the grammar is read, and read as the tree in which each `else`
belongs to the nearest conditional that can take it. -/

namespace Lox.Grammar

open Parsed Reading

variable {input : List Token}

/-! ## First tokens -/

theorem kind_ne_of_startsWith {token : Token} {kind : TokenKind}
    (starts : Form.expression.startsWith token = true)
    (excluded : ∀ lexeme line, Form.expression.startsWith ⟨kind, lexeme, line⟩ = false) :
    token.kind ≠ kind := by
  rintro rfl
  have := excluded token.lexeme token.line
  rw [this] at starts
  cases starts

/-- A statement can start with this token. -/
def startsStatement (token : Token) : Bool :=
  match token.kind with
  | .keyword .forWord | .keyword .ifWord | .keyword .whileWord | .keyword .returnWord
  | .keyword .printWord | .mark .leftBrace => true
  | _ => Form.expression.startsWith token

/-- A declaration can start with this token. -/
def startsDeclaration (token : Token) : Bool :=
  match token.kind with
  | .keyword .classWord | .keyword .funWord | .keyword .varWord => true
  | _ => startsStatement token

theorem startsStatement_of_startsWith {token : Token}
    (starts : Form.expression.startsWith token = true) : startsStatement token = true := by
  unfold startsStatement
  split
  · rfl
  · rfl
  · rfl
  · rfl
  · rfl
  · rfl
  · exact starts

theorem startsDeclaration_of_startsStatement {token : Token}
    (starts : startsStatement token = true) : startsDeclaration token = true := by
  unfold startsDeclaration
  split
  · rfl
  · rfl
  · rfl
  · exact starts

theorem ExpressionStatement.starts {tokens first stmt next}
    (found : ExpressionStatement tokens first stmt next) :
    ∃ token others, tokens = token :: others ∧ Form.expression.startsWith token = true := by
  cases found with
  | mk derived _ =>
      rcases derived.starts with ⟨token, others, rfl, starts⟩
      exact ⟨token, _, rfl, starts⟩

theorem Statement.starts {nearest takesElse tokens first stmt next}
    (found : Statement nearest takesElse tokens first stmt next) :
    ∃ token others, tokens = token :: others ∧ startsStatement token = true := by
  cases found with
  | expression derived =>
      rcases derived.starts with ⟨token, others, rfl, starts⟩
      exact ⟨token, others, rfl, startsStatement_of_startsWith starts⟩
  | print kind | returns kind | block kind | loop kind | forLoop kind | conditional kind
  | conditionalElse kind =>
      exact ⟨_, _, rfl, by simp [startsStatement, kind]⟩

theorem Declaration.starts {nearest tokens first stmt next}
    (found : Declaration nearest tokens first stmt next) :
    ∃ token others, tokens = token :: others ∧ startsDeclaration token = true := by
  cases found with
  | statement derived =>
      rcases derived.starts with ⟨token, others, rfl, starts⟩
      exact ⟨token, others, rfl, startsDeclaration_of_startsStatement starts⟩
  | classDecl kind | function kind => exact ⟨_, _, rfl, by simp [startsDeclaration, kind]⟩
  | var declared =>
      cases declared with
      | mk kind => exact ⟨_, _, rfl, by simp [startsDeclaration, kind]⟩

/-! ## Parts of statements -/

theorem expr_accepts {tokens left : List Token} {first next : OccurrenceId} {tree : Expr}
    {errors : List GrammarError} {shorter : (tokens ++ left).length < input.length}
    (derived : Derives .expression tokens first tree next)
    (ends : Form.expression.EndsAt left) :
    ((Reading.expr : Reading input Expr) ⟨tokens ++ left, shorter⟩ ⟨first, errors⟩).Accepts tree
      left ⟨next, errors⟩ :=
  accepts_follow (derived.accepted _ ends)

/-- An optional expression is read up to the token that ends it. -/
theorem expr?_accepts {kind : TokenKind} {finish : Token} {tokens left : List Token}
    {first next : OccurrenceId} {tree? : Option Expr} {errors : List GrammarError}
    {shorter : (tokens ++ finish :: left).length < input.length}
    (found : OptionalExpr tokens first tree? next)
    (finished : finish.kind = kind) (excluded : ∀ lexeme line,
      Form.expression.startsWith ⟨kind, lexeme, line⟩ = false)
    (alike : ∀ other : TokenKind, other.alike kind = true ↔ other = kind)
    (weak : ∀ lexeme line, strength? ⟨kind, lexeme, line⟩ = none) :
    ((Reading.expr? kind : Reading input (Option Expr)) ⟨tokens ++ finish :: left, shorter⟩
      ⟨first, errors⟩).Accepts tree? (finish :: left) ⟨next, errors⟩ := by
  unfold Reading.expr?
  cases found with
  | none =>
      refine accepts_bind accepts_isNext fun _ => ?_
      rw [(alike _).mpr finished]
      exact accepts_pure
  | some derived =>
      rcases derived.starts with ⟨token, others, rfl, starts⟩
      have different : token.kind.alike kind = false := by
        rw [Bool.eq_false_iff]
        exact fun same => kind_ne_of_startsWith starts excluded ((alike _).mp same)
      refine accepts_bind accepts_isNext fun _ => ?_
      rw [different]
      exact accepts_bind (expr_accepts derived (Form.endsAt_of_kind finished weak))
        fun _ => accepts_pure

theorem exprStatement_accepts {tokens left : List Token} {first next : OccurrenceId} {stmt : Stmt}
    {errors : List GrammarError} {shorter : (tokens ++ left).length < input.length}
    (found : ExpressionStatement tokens first stmt next) :
    ((Reading.exprStatement : Reading input Stmt) ⟨tokens ++ left, shorter⟩
      ⟨first, errors⟩).Accepts stmt left ⟨next, errors⟩ := by
  cases found with
  | mk derived ended =>
      revert shorter
      rw [List.append_assoc, List.singleton_append]
      intro shorter
      unfold Reading.exprStatement
      refine accepts_bind (expr_accepts derived (Form.endsAt_of_kind ended fun _ _ => rfl))
        fun _ => ?_
      exact accepts_bind (accepts_expect (TokenKind.alike_mark.mpr ended)) fun _ => accepts_pure

/-- A variable declaration is read after its first word. -/
theorem variableStatement_accepts {name semicolon : Token} {tokens left : List Token}
    {first next : OccurrenceId} {initial : Option Expr} {errors : List GrammarError}
    {shorter : (name :: (tokens ++ semicolon :: left)).length < input.length}
    (named : name.kind = .identifier) (initialized : InitialValue tokens first initial next)
    (ended : semicolon.kind = .mark .semicolon) :
    ((Reading.variableStatement : Reading input Stmt) ⟨name :: (tokens ++ semicolon :: left), shorter⟩
      ⟨first, errors⟩).Accepts (.var name initial) left ⟨next, errors⟩ := by
  unfold Reading.variableStatement
  refine accepts_bind (accepts_expect (TokenKind.alike_identifier.mpr named)) fun _ => ?_
  cases initialized with
  | none =>
      refine accepts_bind (accepts_skip_none ?_) fun _ => ?_
      · intro token member
        cases member
        rw [ended]
        rfl
      refine accepts_bind accepts_pure fun _ => ?_
      exact accepts_bind (accepts_expect (TokenKind.alike_mark.mpr ended)) fun _ => accepts_pure
  | some equal derived =>
      refine accepts_bind (accepts_skip (TokenKind.alike_mark.mpr equal)) fun _ => ?_
      refine accepts_bind (accepts_map (expr_accepts derived
        (Form.endsAt_of_kind ended fun _ _ => rfl))) fun _ => ?_
      exact accepts_bind (accepts_expect (TokenKind.alike_mark.mpr ended)) fun _ => accepts_pure

theorem forInitializer_accepts {tokens left : List Token} {first next : OccurrenceId}
    {initializer : Option Stmt} {errors : List GrammarError}
    {shorter : (tokens ++ left).length < input.length}
    (found : LoopInitializer tokens first initializer next) :
    ((Reading.forInitializer : Reading input (Option Stmt)) ⟨tokens ++ left, shorter⟩
      ⟨first, errors⟩).Accepts initializer left ⟨next, errors⟩ := by
  unfold Reading.forInitializer
  cases found with
  | none ended =>
      exact accepts_bind (accepts_skip (TokenKind.alike_mark.mpr ended)) fun _ => accepts_pure
  | var declared =>
      cases declared with
      | @mk word name semicolon tokens _ initial _ kind named initialized ended =>
          revert shorter
          simp only [List.cons_append, List.append_assoc, List.nil_append]
          intro shorter
          refine accepts_bind (accepts_skip_none ?_) fun _ => ?_
          · intro token member
            cases member
            rw [kind]
            rfl
          refine accepts_bind (accepts_skip (TokenKind.alike_keyword.mpr kind)) fun _ => ?_
          exact accepts_map (variableStatement_accepts named initialized ended)
  | expression stated =>
      rcases stated.starts with ⟨token, others, rfl, starts⟩
      refine accepts_bind (accepts_skip_none ?_) fun _ => ?_
      · intro other member
        cases member
        rw [Bool.eq_false_iff]
        exact fun same => kind_ne_of_startsWith starts (fun _ _ => rfl) (TokenKind.alike_mark.mp same)
      refine accepts_bind (accepts_skip_none ?_) fun _ => ?_
      · intro other member
        cases member
        rw [Bool.eq_false_iff]
        exact fun same => kind_ne_of_startsWith starts (fun _ _ => rfl)
          (TokenKind.alike_keyword.mp same)
      exact accepts_map (exprStatement_accepts stated)

theorem superclass?_accepts {start : Token} {heading left : List Token} {first next : OccurrenceId}
    {superclass : Option Expr} {errors : List GrammarError}
    {shorter : (heading ++ start :: left).length < input.length}
    (found : Superclass heading first superclass next) (started : start.kind = .mark .leftBrace) :
    ((Reading.superclass? : Reading input (Option Expr)) ⟨heading ++ start :: left, shorter⟩
      ⟨first, errors⟩).Accepts superclass (start :: left) ⟨next, errors⟩ := by
  unfold Reading.superclass?
  cases found with
  | none =>
      refine accepts_bind (accepts_skip_none ?_) fun _ => accepts_pure
      intro token member
      cases member
      rw [started]
      rfl
  | some kind named =>
      refine accepts_bind (accepts_skip (TokenKind.alike_mark.mpr kind)) fun _ => ?_
      refine accepts_bind (accepts_expect (TokenKind.alike_identifier.mpr named)) fun _ => ?_
      exact ⟨_, rfl⟩

/-! ## Parameters -/

theorem readParameterList_accepts {tokens names left : List Token} {finish : Token} {draft : Draft}
    (earlier : List Token) (several : ParameterNames tokens names)
    (ended : finish.kind = .mark .rightParen)
    (bounded : earlier.length + names.length ≤ maximumArity) :
    (readParameterList earlier (tokens ++ finish :: left) draft).Accepts (earlier ++ names) left
      draft := by
  induction several generalizing earlier with
  | one named =>
      have room : ¬ maximumArity ≤ earlier.length := by
        rw [List.length_singleton] at bounded
        omega
      have notComma : ¬ finish.hasMark .comma = true := by simp [Token.hasMark, ended]
      rw [List.singleton_append, readParameterList, if_neg room]
      refine (accepts_expectFirst (TokenKind.alike_identifier.mpr named)).andThen fun _ => ?_
      dsimp only
      rw [if_neg notComma, if_pos (Token.hasMark_iff.mpr ended)]
      exact ⟨_, rfl⟩
  | @more name comma tokens names named parted _ induction =>
      rw [List.length_cons] at bounded
      have room : ¬ maximumArity ≤ earlier.length := by omega
      have accepted := induction (earlier ++ [name])
        (by rw [List.length_append, List.length_singleton]; omega)
      rw [List.append_assoc, List.singleton_append] at accepted
      rw [List.cons_append, List.cons_append, readParameterList, if_neg room]
      refine (accepts_expectFirst (TokenKind.alike_identifier.mpr named)).andThen fun _ => ?_
      dsimp only
      rw [if_pos (Token.hasMark_iff.mpr parted)]
      exact accepted.within

theorem readParameters_accepts {tokens names left : List Token} {finish : Token} {draft : Draft}
    (found : Parameters tokens names) (ended : finish.kind = .mark .rightParen) :
    (readParameters (tokens ++ finish :: left) draft).Accepts names left draft := by
  cases found with
  | none =>
      unfold readParameters
      dsimp only [List.nil_append]
      rw [if_pos (Token.hasMark_iff.mpr ended)]
      exact ⟨_, rfl⟩
  | some several bounded =>
      have accepted : (readParameterList [] (tokens ++ finish :: left) draft).Accepts names left
          draft := readParameterList_accepts [] several ended (by simpa using bounded)
      have notParen {name : Token} (named : name.kind = .identifier) :
          ¬ name.hasMark .rightParen = true := by simp [Token.hasMark, named]
      cases several with
      | one named | more named _ _ =>
          unfold readParameters
          dsimp only [List.cons_append]
          rw [if_neg (notParen named)]
          exact accepted

/-! ## Constructs

What completeness says of each construct of statements. -/

def NoElse (left : List Token) : Prop :=
  ∀ token ∈ left.head?, token.kind ≠ .keyword .elseWord

def CompletesStatement (takesElse : Bool) : Phrase Stmt :=
  fun tokens first stmt next => ∀ left errors, (takesElse = true → NoElse left) →
    (readStatement (tokens ++ left) ⟨first, errors⟩).Accepts stmt left ⟨next, errors⟩

def CompletesDeclaration : Phrase Stmt :=
  fun tokens first stmt next => ∀ head rest left errors, tokens ++ left = head :: rest →
    NoElse left → (readDeclaration head rest ⟨first, errors⟩).Accepts stmt left ⟨next, errors⟩

def CompletesFunction : Phrase Routine :=
  fun tokens first routine next => ∀ role left errors,
    (readRoutine role (tokens ++ left) ⟨first, errors⟩).Accepts routine left ⟨next, errors⟩

def CompletesMethods : Phrase (List Routine) :=
  fun tokens first methods next => ∀ finish left errors, finish.kind = .mark .rightBrace →
    (readMethods (tokens ++ finish :: left) ⟨first, errors⟩).Accepts methods left ⟨next, errors⟩

/-- Declarations are read up to a closing brace or up to the end. -/
def CompletesDeclarations : Phrase (List Stmt) :=
  fun tokens first stmts next =>
    (∀ finish left errors, finish.kind = .mark .rightBrace →
      (readBlock (tokens ++ finish :: left) ⟨first, errors⟩).Accepts stmts left ⟨next, errors⟩) ∧
    ∀ errors, readProgram tokens ⟨first, errors⟩ = (stmts, ⟨next, errors⟩)

theorem noElse_of_startsDeclaration {token : Token} {left : List Token}
    (starts : startsDeclaration token = true) : NoElse (token :: left) := by
  intro other member kind
  cases member
  simp [startsDeclaration, startsStatement, Form.startsWith, startsPrimary, Token.isSign,
    Token.hasMark, kind] at starts

theorem not_rightBrace_of_startsDeclaration {token : Token}
    (starts : startsDeclaration token = true) : ¬ token.hasMark .rightBrace = true := by
  intro marked
  simp [startsDeclaration, startsStatement, Form.startsWith, startsPrimary, Token.isSign,
    Token.hasMark, Token.hasMark_iff.mp marked] at starts

theorem Declarations.noElse {nearest tokens first stmts next left}
    (several : Declarations nearest tokens first stmts next) (without : NoElse left) :
    NoElse (tokens ++ left) := by
  cases several with
  | nil => exact without
  | cons declared _ =>
      rcases declared.starts with ⟨token, others, rfl, starts⟩
      exact noElse_of_startsDeclaration starts

/-! ## One lemma for each rule -/

section

variable {tokens others : List Token} {first middle next : OccurrenceId}
  {errors : List GrammarError}

theorem completes_expressionStatement {stmt : Stmt}
    (stated : ExpressionStatement tokens first stmt next) :
    CompletesStatement false tokens first stmt next := by
  intro left errors _
  cases stated with
  | @mk semicolon tokens _ value _ derived ended =>
      have ends : Form.expression.EndsAt (semicolon :: left) :=
        Form.endsAt_of_kind ended fun _ _ => rfl
      have accepted := derived.accepted errors ends
      rw [List.append_assoc, List.singleton_append]
      rcases derived.starts with ⟨token, others, rfl, starts⟩
      rw [List.cons_append] at accepted ⊢
      rw [readStatement]
      split
      case h_7 =>
        refine accepted.andThen fun _ => ?_
        exact accepts_bind (accepts_expect (TokenKind.alike_mark.mpr ended)) fun _ => accepts_pure
      all_goals
        rename_i kind
        exact absurd kind (kind_ne_of_startsWith starts fun _ _ => rfl)

theorem completes_print {word semicolon : Token} {value : Expr}
    (kind : word.kind = .keyword .printWord) (derived : Derives .expression tokens first value next)
    (ended : semicolon.kind = .mark .semicolon) :
    CompletesStatement false (word :: (tokens ++ [semicolon])) first (.print value) next := by
  intro left errors _
  rw [List.cons_append, List.append_assoc, List.singleton_append, readStatement, kind]
  unfold Reading.printStatement
  refine accepts_bind (expr_accepts derived (Form.endsAt_of_kind ended fun _ _ => rfl)) fun _ => ?_
  exact accepts_bind (accepts_expect (TokenKind.alike_mark.mpr ended)) fun _ => accepts_pure

theorem completes_returns {word semicolon : Token} {value : Option Expr}
    (kind : word.kind = .keyword .returnWord) (found : OptionalExpr tokens first value next)
    (ended : semicolon.kind = .mark .semicolon) :
    CompletesStatement false (word :: (tokens ++ [semicolon])) first (.returns word value)
      next := by
  intro left errors _
  rw [List.cons_append, List.append_assoc, List.singleton_append, readStatement, kind]
  unfold Reading.returnStatement
  refine accepts_bind (expr?_accepts found ended (fun _ _ => rfl)
    (fun _ => TokenKind.alike_mark) fun _ _ => rfl) fun _ => ?_
  exact accepts_bind (accepts_expect (TokenKind.alike_mark.mpr ended)) fun _ => accepts_pure

theorem completes_block {opening closing : Token} {body : List Stmt}
    (opened : opening.kind = .mark .leftBrace)
    (completes : CompletesDeclarations tokens first body next)
    (closed : closing.kind = .mark .rightBrace) :
    CompletesStatement false (opening :: (tokens ++ [closing])) first (.block body) next := by
  intro left errors _
  rw [List.cons_append, List.append_assoc, List.singleton_append, readStatement, opened]
  exact (completes.1 closing left errors closed).within.andThen fun _ => accepts_pure

theorem completes_loop {word start finish : Token} {condition : Expr} {takesElse : Bool}
    {body : Stmt} (kind : word.kind = .keyword .whileWord) (started : start.kind = .mark .leftParen)
    (derived : Derives .expression tokens first condition middle)
    (finished : finish.kind = .mark .rightParen)
    (completes : CompletesStatement takesElse others middle body next) :
    CompletesStatement takesElse (word :: start :: (tokens ++ finish :: others)) first
      (.loop condition body) next := by
  intro left errors noElse
  rw [List.cons_append, List.cons_append, List.append_assoc, List.cons_append, readStatement, kind]
  dsimp only
  rw [readLoop]
  refine accepts_bind (accepts_expect (TokenKind.alike_mark.mpr started)) fun _ => ?_
  refine accepts_bind (expr_accepts derived (Form.endsAt_of_kind finished fun _ _ => rfl))
    fun _ => ?_
  refine accepts_bind (accepts_expect (TokenKind.alike_mark.mpr finished)) fun _ => ?_
  exact accepts_bind (accepts_follow (completes left errors noElse)) fun _ => accepts_pure

theorem completes_forLoop {word start semicolon finish : Token}
    {initial tested stepped : List Token} {initializer : Option Stmt}
    {condition increment : Option Expr} {afterInitial afterTest afterStep : OccurrenceId}
    {takesElse : Bool} {body : Stmt}
    (kind : word.kind = .keyword .forWord) (started : start.kind = .mark .leftParen)
    (initialized : LoopInitializer initial first initializer afterInitial)
    (tests : OptionalExpr tested afterInitial condition afterTest)
    (ended : semicolon.kind = .mark .semicolon)
    (steps : OptionalExpr stepped afterTest increment afterStep)
    (finished : finish.kind = .mark .rightParen)
    (completes : CompletesStatement takesElse others afterStep body next) :
    CompletesStatement takesElse
      (word :: start :: (initial ++ (tested ++ semicolon :: (stepped ++ finish :: others))))
      first (loopTree initializer condition increment body) next := by
  intro left errors noElse
  rw [loopTree_eq]
  rw [List.cons_append, List.cons_append, List.append_assoc, List.append_assoc,
    List.cons_append, List.append_assoc, List.cons_append, readStatement, kind]
  dsimp only
  rw [readFor]
  refine accepts_bind (accepts_expect (TokenKind.alike_mark.mpr started)) fun _ => ?_
  refine accepts_bind (forInitializer_accepts initialized) fun _ => ?_
  refine accepts_bind (expr?_accepts tests ended (fun _ _ => rfl)
    (fun _ => TokenKind.alike_mark) fun _ _ => rfl) fun _ => ?_
  refine accepts_bind (accepts_expect (TokenKind.alike_mark.mpr ended)) fun _ => ?_
  refine accepts_bind (expr?_accepts steps finished (fun _ _ => rfl)
    (fun _ => TokenKind.alike_mark) fun _ _ => rfl) fun _ => ?_
  refine accepts_bind (accepts_expect (TokenKind.alike_mark.mpr finished)) fun _ => ?_
  exact accepts_bind (accepts_follow (completes left errors noElse)) fun _ => accepts_pure

theorem completes_conditional {word start finish : Token} {condition : Expr} {takesElse : Bool}
    {thenBranch : Stmt} (kind : word.kind = .keyword .ifWord)
    (started : start.kind = .mark .leftParen)
    (derived : Derives .expression tokens first condition middle)
    (finished : finish.kind = .mark .rightParen)
    (completes : CompletesStatement takesElse others middle thenBranch next) :
    CompletesStatement true (word :: start :: (tokens ++ finish :: others)) first
      (.conditional condition thenBranch none) next := by
  intro left errors noElse
  have without := noElse rfl
  rw [List.cons_append, List.cons_append, List.append_assoc, List.cons_append, readStatement, kind]
  dsimp only
  rw [readConditional]
  refine accepts_bind (accepts_expect (TokenKind.alike_mark.mpr started)) fun _ => ?_
  refine accepts_bind (expr_accepts derived (Form.endsAt_of_kind finished fun _ _ => rfl))
    fun _ => ?_
  refine accepts_bind (accepts_expect (TokenKind.alike_mark.mpr finished)) fun _ => ?_
  refine accepts_bind (accepts_follow (completes left errors fun _ => without)) fun _ => ?_
  refine accepts_bind (accepts_skip_none ?_) fun _ => accepts_pure
  intro token member
  rw [Bool.eq_false_iff]
  exact fun same => without token member (TokenKind.alike_keyword.mp same)

theorem completes_conditionalElse {word start finish elseWord : Token} {rest : List Token}
    {condition : Expr} {afterThen : OccurrenceId} {takesElse : Bool}
    {thenBranch elseBranch : Stmt} (kind : word.kind = .keyword .ifWord)
    (started : start.kind = .mark .leftParen)
    (derived : Derives .expression tokens first condition middle)
    (finished : finish.kind = .mark .rightParen)
    (completesThen : CompletesStatement false others middle thenBranch afterThen)
    (turns : elseWord.kind = .keyword .elseWord)
    (completesElse : CompletesStatement takesElse rest afterThen elseBranch next) :
    CompletesStatement takesElse
      (word :: start :: (tokens ++ finish :: (others ++ elseWord :: rest))) first
      (.conditional condition thenBranch (some elseBranch)) next := by
  intro left errors noElse
  rw [List.cons_append, List.cons_append, List.append_assoc, List.cons_append,
    List.append_assoc, List.cons_append, readStatement, kind]
  dsimp only
  rw [readConditional]
  refine accepts_bind (accepts_expect (TokenKind.alike_mark.mpr started)) fun _ => ?_
  refine accepts_bind (expr_accepts derived (Form.endsAt_of_kind finished fun _ _ => rfl))
    fun _ => ?_
  refine accepts_bind (accepts_expect (TokenKind.alike_mark.mpr finished)) fun _ => ?_
  refine accepts_bind (accepts_follow
    (completesThen _ errors fun taken => absurd taken Bool.false_ne_true)) fun _ => ?_
  refine accepts_bind (accepts_skip (TokenKind.alike_keyword.mpr turns)) fun _ => ?_
  exact accepts_bind (accepts_follow (completesElse left errors noElse)) fun _ => accepts_pure

theorem completes_classDecl {word name start finish : Token} {heading : List Token}
    {superclass : Option Expr} {methods : List Routine}
    (kind : word.kind = .keyword .classWord) (named : name.kind = .identifier)
    (inherits : Superclass heading first superclass middle)
    (started : start.kind = .mark .leftBrace)
    (completes : CompletesMethods tokens middle methods next)
    (finished : finish.kind = .mark .rightBrace) :
    CompletesDeclaration (word :: name :: (heading ++ start :: (tokens ++ [finish]))) first
      (.classDecl name superclass methods) next := by
  intro head rest left errors split _
  simp only [List.cons_append, List.append_assoc, List.nil_append, List.cons.injEq] at split
  rcases split with ⟨rfl, rfl⟩
  rw [readDeclaration, kind]
  dsimp only
  rw [readClass]
  refine accepts_bind (accepts_expect (TokenKind.alike_identifier.mpr named)) fun _ => ?_
  refine accepts_bind (superclass?_accepts inherits started) fun _ => ?_
  refine accepts_bind (accepts_expect (TokenKind.alike_mark.mpr started)) fun _ => ?_
  exact accepts_bind (accepts_follow (completes finish left errors finished))
    fun _ => accepts_pure

theorem completes_functionDeclaration {word : Token} {routine : Routine}
    (kind : word.kind = .keyword .funWord)
    (completes : CompletesFunction tokens first routine next) :
    CompletesDeclaration (word :: tokens) first (.function routine) next := by
  intro head rest left errors split _
  rw [List.cons_append, List.cons.injEq] at split
  rcases split with ⟨rfl, rfl⟩
  rw [readDeclaration, kind]
  exact (completes .function left errors).within.andThen fun _ => accepts_pure

theorem completes_var {stmt : Stmt} (declared : VariableStatement tokens first stmt next) :
    CompletesDeclaration tokens first stmt next := by
  intro head rest left errors split _
  cases declared with
  | mk kind named initialized ended =>
      simp only [List.cons_append, List.append_assoc, List.nil_append, List.cons.injEq] at split
      rcases split with ⟨rfl, rfl⟩
      rw [readDeclaration, kind]
      exact variableStatement_accepts named initialized ended

theorem completes_statement {stmt : Stmt} {takesElse : Bool}
    (starts : ∃ token others, tokens = token :: others ∧ startsStatement token = true)
    (completes : CompletesStatement takesElse tokens first stmt next) :
    CompletesDeclaration tokens first stmt next := by
  intro head rest left errors split noElse
  have accepted := completes left errors fun _ => noElse
  rcases starts with ⟨token, others, rfl, starts⟩
  rw [List.cons_append, List.cons.injEq] at split
  rcases split with ⟨rfl, rfl⟩
  rw [List.cons_append] at accepted
  rw [readDeclaration]
  split
  case h_4 => exact accepted
  all_goals
    rename_i kind
    simp [startsStatement, Form.startsWith, startsPrimary, Token.isSign, Token.hasMark, kind]
      at starts

theorem completes_function {name start finish opening closing : Token}
    {names parameters : List Token} {body : List Stmt} (named : name.kind = .identifier)
    (started : start.kind = .mark .leftParen) (listed : Parameters names parameters)
    (finished : finish.kind = .mark .rightParen) (opened : opening.kind = .mark .leftBrace)
    (completes : CompletesDeclarations tokens first body next)
    (closed : closing.kind = .mark .rightBrace) :
    CompletesFunction (name :: start :: (names ++ finish :: opening :: (tokens ++ [closing])))
      first (.mk name parameters body) next := by
  intro role left errors
  rw [List.cons_append, List.cons_append, List.append_assoc, List.cons_append,
    List.cons_append, List.append_assoc, List.singleton_append, readRoutine]
  refine (accepts_expectFirst (TokenKind.alike_identifier.mpr named)).andThen fun _ => ?_
  refine accepts_bind (accepts_expect (TokenKind.alike_mark.mpr started)) fun _ => ?_
  refine accepts_bind (accepts_follow (readParameters_accepts listed finished)) fun _ => ?_
  refine accepts_bind (accepts_expect (TokenKind.alike_mark.mpr opened)) fun _ => ?_
  exact accepts_bind (accepts_follow (completes.1 closing left errors closed))
    fun _ => accepts_pure

theorem completes_noMethods : CompletesMethods [] first [] first := by
  intro finish left errors finished
  rw [List.nil_append, readMethods, if_pos (Token.hasMark_iff.mpr finished)]
  exact ⟨_, rfl⟩

theorem completes_moreMethods {method : Routine} {methods : List Routine}
    (starts : ∃ token others, tokens = token :: others ∧ token.kind = .identifier)
    (completesMethod : CompletesFunction tokens first method middle)
    (completes : CompletesMethods others middle methods next) :
    CompletesMethods (tokens ++ others) first (method :: methods) next := by
  intro finish left errors finished
  have accepted := completesMethod .method (others ++ finish :: left) errors
  rcases starts with ⟨token, tokens, rfl, named⟩
  have notBrace : ¬ token.hasMark .rightBrace = true := by simp [Token.hasMark, named]
  rw [List.append_assoc]
  rw [List.cons_append] at accepted ⊢
  rw [readMethods, if_neg notBrace]
  refine accepted.andThen fun _ => ?_
  exact (completes finish left errors finished).within.andThen fun _ => accepts_pure

theorem completes_noDeclarations : CompletesDeclarations [] first [] first := by
  constructor
  · intro finish left errors finished
    rw [List.nil_append, readBlock, if_pos (Token.hasMark_iff.mpr finished)]
    exact ⟨_, rfl⟩
  · intro errors
    rw [readProgram]

theorem completes_moreDeclarations {stmt : Stmt} {stmts : List Stmt}
    (starts : ∃ token others, tokens = token :: others ∧ startsDeclaration token = true)
    (noElse : ∀ left, NoElse left → NoElse (others ++ left))
    (completesFirst : CompletesDeclaration tokens first stmt middle)
    (completes : CompletesDeclarations others middle stmts next) :
    CompletesDeclarations (tokens ++ others) first (stmt :: stmts) next := by
  rcases starts with ⟨token, tokens, rfl, starts⟩
  constructor
  · intro finish left errors finished
    have without : NoElse (finish :: left) := by
      intro other member
      cases member
      simp [finished]
    rcases completesFirst token (tokens ++ (others ++ finish :: left)) _ errors rfl
      (noElse _ without) with ⟨shorter, accepted⟩
    rw [List.append_assoc, List.cons_append, readBlock,
      if_neg (not_rightBrace_of_startsDeclaration starts), passDeclaration, accepted]
    exact (completes.1 finish left errors finished).within.andThen fun _ => accepts_pure
  · intro errors
    rcases completesFirst token (tokens ++ others) others errors rfl
      (by simpa using noElse [] (by intro other member; cases member)) with ⟨shorter, accepted⟩
    rw [List.cons_append, readProgram, passDeclaration, accepted]
    simp only [recovered, completes.2 errors, Option.toList_some, List.singleton_append]

end

/-! ## All rules -/

theorem Function.starts {nearest tokens first routine next}
    (found : Function nearest tokens first routine next) :
    ∃ token others, tokens = token :: others ∧ token.kind = .identifier := by
  cases found with
  | mk named => exact ⟨_, _, rfl, named⟩

mutual
theorem Declaration.completes {tokens first stmt next} :
    Declaration true tokens first stmt next → CompletesDeclaration tokens first stmt next
  | .classDecl kind named inherits started methods finished =>
      completes_classDecl kind named inherits started methods.completes finished
  | .function kind routine => completes_functionDeclaration kind routine.completes
  | .var declared => completes_var declared
  | .statement derived => completes_statement derived.starts derived.completes

theorem Declarations.completes {tokens first stmts next} :
    Declarations true tokens first stmts next → CompletesDeclarations tokens first stmts next
  | .nil => completes_noDeclarations
  | .cons declared several =>
      completes_moreDeclarations declared.starts (fun _ => several.noElse) declared.completes
        several.completes

theorem Methods.completes {tokens first methods next} :
    Methods true tokens first methods next → CompletesMethods tokens first methods next
  | .nil => completes_noMethods
  | .cons method several => completes_moreMethods method.starts method.completes several.completes

theorem Function.completes {tokens first routine next} :
    Function true tokens first routine next → CompletesFunction tokens first routine next
  | .mk named started listed finished opened body closed =>
      completes_function named started listed finished opened body.completes closed

theorem Statement.completes {takesElse tokens first stmt next} :
    Statement true takesElse tokens first stmt next →
      CompletesStatement takesElse tokens first stmt next
  | .expression stated => completes_expressionStatement stated
  | .print kind derived ended => completes_print kind derived ended
  | .returns kind found ended => completes_returns kind found ended
  | .block opened body closed => completes_block opened body.completes closed
  | .loop kind started derived finished body =>
      completes_loop kind started derived finished body.completes
  | .forLoop kind started initialized tests ended steps finished body =>
      completes_forLoop kind started initialized tests ended steps finished body.completes
  | .conditional kind started derived finished thenBranch =>
      completes_conditional kind started derived finished thenBranch.completes
  | .conditionalElse kind started derived finished thenBranch
      strict turns elseBranch =>
      completes_conditionalElse kind started derived finished
        (strict rfl ▸ thenBranch.completes) turns elseBranch.completes
end

end Lox.Grammar
