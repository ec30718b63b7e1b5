import Lox.Proofs.Grammar.ExpressionGuidance
import Lox.Proofs.Grammar.StatementInPlace
/-! Statements and programs are read as the table of rules guides them. An error behind which a
declaration is not read on is recorded, and what is found later stands behind it. -/

namespace Lox

namespace Grammar

open Parsed Reading

open Pattern (inOrder oneOf rule optional many mark word name elseBranch)

variable {input : List Token} {back : List Pattern}

/-! ## Parts of statements -/

theorem expr_guided : (Reading.expr : Reading input Expr).Guided [rule .expression] :=
  guided_follow fun _ _ => .led (.single .rule) readExpr_guided

/-- An expression that may be left out in front of the token that ends it. Where that token is
not next an expression is read, even if none can start there. -/
theorem guided_expr? {ending : TokenKind} {α : Type} {next : Option Expr → Reading input α}
    (separate : TokenKind.apart [ending] expressionStarts = true)
    (bars : ∀ kind : TokenKind, kind.among [ending] = false → Bars kind back)
    (due : TokenKind.endOfInput.among [ending] = false)
    (second : ∀ value, (next value).Guided back) :
    (Reading.expr? ending >>= next).Guided (optional (rule .expression) :: back) := by
  have some_guided : (some <$> Reading.expr >>= next : Reading input α).Guided
      (rule .expression :: back) := guided_bind (expr_guided.map some) second
  rintro ⟨rest, shorter⟩ draft
  cases rest with
  | nil => exact .led (.single (.present (.inr (bars _ due)))) (some_guided ⟨[], shorter⟩ draft)
  | cons token others =>
      show (((if token.kind.alike ending then pure none else some <$> Reading.expr :
        Reading input (Option Expr)) ⟨token :: others, shorter⟩ draft).andThen next).Guided ..
      split
      · rename_i alike
        have absent : token.kind.among expressionStarts = false :=
          TokenKind.not_among_of_apart separate (TokenKind.among_singleton.trans alike)
        exact .led (.single (.absent absent)) (second none ⟨token :: others, shorter⟩ draft)
      · rename_i unlike
        have barred := bars token.kind
          (TokenKind.among_singleton.trans (Bool.eq_false_iff.mpr unlike))
        exact .led (.single (.present (.inr barred)))
          (some_guided ⟨token :: others, shorter⟩ draft)

theorem exprStatement_guided :
    (Reading.exprStatement : Reading input Stmt).Guided
      [inOrder (rule .expression) [mark .semicolon]] :=
  guided_seq (guided_bind expr_guided fun _ => guided_expect rfl fun _ => guided_pure _)

/-- A variable declaration after its first word. -/
def afterVar : Pattern :=
  inOrder name [optional (inOrder (mark .equal) [rule .expression]), mark .semicolon]

theorem variableStatement_guided :
    (Reading.variableStatement : Reading input Stmt).Guided [afterVar] := by
  refine guided_seq (guided_expect rfl fun name => guided_seq ?_)
  have ending : ∀ initial : Option Expr, (do
      let _ ← Reading.expect (.mark .semicolon) .variableEnd
      return .var name initial : Reading input Stmt).Guided [mark .semicolon] :=
    fun initial => guided_expect rfl fun _ => guided_pure _
  exact guided_skip rfl (fun _ => guided_bind (expr_guided.map some) ending)
    (ending none)

theorem printStatement_guided :
    (Reading.printStatement : Reading input Stmt).Guided
      [inOrder (rule .expression) [mark .semicolon]] :=
  guided_seq (guided_bind expr_guided fun _ => guided_expect rfl fun _ => guided_pure _)

theorem superclass?_guided :
    (Reading.superclass? : Reading input (Option Expr)).Guided
      [optional (inOrder (mark .less) [name])] :=
  guided_skip rfl
    (fun _ => guided_expect rfl fun _ => guided_freshId fun _ => guided_pure _)
    (guided_pure _)

theorem returnStatement_guided (keyword : Token) :
    (Reading.returnStatement keyword : Reading input Stmt).Guided
      [inOrder (optional (rule .expression)) [mark .semicolon]] :=
  guided_seq (guided_expr? rfl (fun _ other => other) rfl fun _ => guided_expect rfl fun _ =>
    guided_pure _)

theorem forInitializer_guided :
    (Reading.forInitializer : Reading input (Option Stmt)).Guided
      [oneOf (mark .semicolon) [rule .variableDeclaration, rule .expressionStatement]] := by
  have other : (some <$> Reading.exprStatement : Reading input (Option Stmt)).Guided
      [rule .expressionStatement] := guided_rule (exprStatement_guided.map some)
  have declared : (some <$> Reading.variableStatement : Reading input (Option Stmt)).Guided
      [afterVar] := variableStatement_guided.map some
  exact guided_skip? rfl (fun among => .head (.first among) (leads_token among))
    (fun other => .single (.second other)) (fun _ => guided_pure _)
    (guided_skip? rfl
      (fun among => .head (.first among) (.head .rule (leads_seq_token among)))
      (fun other => .single (.second other)) (fun _ => declared) other)

/-- What is due behind one parameter. -/
def moreParameters : List Pattern :=
  [many (inOrder (mark .comma) [name]), mark .rightParen]

theorem readParameterList_guided (before : List Token) {input : List Token} {draft : Draft} :
    (readParameterList before input draft).Guided (name :: moreParameters) input draft := by
  rw [readParameterList.eq_def]
  dsimp only
  refine .reported (maximumArity ≤ before.length) ⟨.tooManyParameters, input⟩ rfl ?_
  refine Guided.andThen (expectFirst_guided rfl) ?_
  rintro parameter ⟨rest, shorter⟩ middle
  cases rest with
  | nil => exact .missing (.single (.none rfl)) rfl
  | cons token others =>
      dsimp only
      split
      · rename_i comma
        have smaller : others.length < input.length := by
          simp only [List.length_cons] at shorter
          omega
        have further : (readParameterList (before ++ [parameter]) others middle).Guided
            (name :: moreParameters) others middle := readParameterList_guided _
        exact .led (leads_many_token ((token.among_mark _).trans comma)) further.within
      rename_i noComma
      refine .led (.single (.none (Token.not_among_mark noComma))) ?_
      split
      · rename_i closing
        exact .led (leads_token ((token.among_mark _).trans closing))
          (.done (.drop token others shorter) .refl)
      · rename_i notClosing
        exact .missing .refl (Token.not_among_mark notClosing)
termination_by input.length

/-- Where no closing parenthesis is next, a parameter is due. -/
theorem leads_parameters {tokens : List Token} (bars : Bars (ahead tokens) [mark .rightParen]) :
    Leads ([optional (rule .parameters), mark .rightParen], tokens)
      (name :: moreParameters, tokens) :=
  .head (.present (.inr bars)) (.head .rule (.single .seq))

theorem readParameters_guided {input : List Token} {draft : Draft} :
    (readParameters input draft).Guided [inOrder (optional (rule .parameters)) [mark .rightParen]]
      input draft := by
  rw [readParameters.eq_def]
  refine .led (.single .seq) ?_
  cases input with
  | nil => exact .led (leads_parameters rfl) (readParameterList_guided [])
  | cons token others =>
      dsimp only
      split
      · rename_i closing
        exact .led (leads_optional_closed rfl closing) (.done (.tail token others) .refl)
      · rename_i notClosing
        exact .led (leads_parameters (Token.not_among_mark notClosing))
          (readParameterList_guided [])

end Grammar

/-! ## Recovery -/

theorem Parsed.Guided.recovered {first : Token} {others start : List Token} {draft : Draft}
    {patterns : List Grammar.Pattern} {parsed : Parsed Stmt (first :: others)}
    (guided : parsed.Guided patterns start draft) :
    parsed.recovered.accepted.Guided patterns start draft := by
  cases guided with
  | takes errors clean leads => exact .takes errors clean leads
  | halts errors first leads bars =>
      refine .halts ?_ first leads bars
      cases parsed <;> exact errors

namespace Grammar

open Parsed Reading

open Pattern (inOrder oneOf inParens rule optional many mark word name elseBranch)

/-! ## Constructs -/

/-- A class declaration after its first word. -/
def afterClass : Pattern :=
  inOrder name [optional (inOrder (mark .less) [name]), mark .leftBrace,
    many (rule .function), mark .rightBrace]

/-- A loop with a head of three parts, after its first word. -/
def afterFor : Pattern :=
  inOrder (mark .leftParen) [
    oneOf (mark .semicolon) [rule .variableDeclaration, rule .expressionStatement],
    optional (rule .expression), mark .semicolon, optional (rule .expression), mark .rightParen,
    rule .statement]

/-- A conditional after its first word. -/
def afterIf : Pattern :=
  inOrder (inParens (rule .expression)) [rule .statement, elseBranch]

/-- A loop after its first word. -/
def afterWhile : Pattern :=
  inOrder (inParens (rule .expression)) [rule .statement]

theorem leads_expressionStatement {tokens : List Token}
    (picked : Rule.statement.body.pick (ahead tokens) = rule .expressionStatement) :
    Leads ([rule .statement], tokens) ([rule .expression, mark .semicolon], tokens) :=
  .head .rule ((picked ▸ leads_pick _).trans (.head .rule (.single .seq)))

theorem unlike_mark {kind : TokenKind} {mark : Mark} (other : kind ≠ .mark mark) :
    kind.alike (.mark mark) = false :=
  Bool.eq_false_iff.mpr fun alike => other (TokenKind.alike_mark.mp alike)

mutual
theorem passDeclaration_guided {first : Token} {others : List Token} {draft : Draft} :
    (passDeclaration first others draft).accepted.Guided [rule .declaration] (first :: others)
      draft := by
  rw [passDeclaration.eq_def]
  exact readDeclaration_guided.recovered
termination_by (others.length + 1) * 16 + 6

theorem readDeclaration_guided {first : Token} {others : List Token} {draft : Draft} :
    (readDeclaration first others draft).Guided [rule .declaration] (first :: others) draft := by
  rw [readDeclaration.eq_def]
  dsimp only
  split
  · rename_i kind
    exact .led (leads_alternative kind rfl rfl)
      (readClass_guided (first :: others) (.tail first others) draft)
  · rename_i kind
    have routine : (readRoutine .function others draft).Guided [rule .function] others draft :=
      readRoutine_guided .function
    exact .led (leads_alternative kind rfl rfl) (routine.within.andThen fun _ => guided_pure _)
  · rename_i kind
    exact .led (leads_alternative kind rfl rfl)
      (variableStatement_guided (.tail first others) draft)
  · rename_i notClass notFunction notVariable
    have picked : Rule.declaration.body.pick first.kind = rule .statement := by
      simp [Rule.body, oneOf, Pattern.pick, Pattern.starts, Rule.starts,
        TokenKind.among_singleton, unlike_keyword notClass, unlike_keyword notFunction,
        unlike_keyword notVariable]
    exact .led (.head .rule (picked ▸ leads_pick _)) readStatement_guided
termination_by (others.length + 1) * 16 + 5

theorem readClass_guided (input : List Token) : (readClass input).Guided [afterClass] := by
  rw [readClass.eq_def]
  have methods : (Reading.follow fun rest draft => readMethods rest.1 draft :
      Reading input (List Routine)).Guided [inOrder (many (rule .function)) [mark .rightBrace]] :=
    guided_follow fun rest draft => by
      have := rest.2
      exact .led (.single .seq) readMethods_guided
  exact guided_seq (guided_expect rfl fun name => guided_seq (guided_bind superclass?_guided
    fun superclass => guided_seq (guided_expect rfl fun _ => guided_bind methods fun found =>
      guided_pure _)))
termination_by input.length * 16
decreasing_by omega

theorem readMethods_guided {input : List Token} {draft : Draft} :
    (readMethods input draft).Guided [many (rule .function), mark .rightBrace] input draft := by
  rw [readMethods.eq_def]
  match input with
  | [] => exact .missing (.single (.none rfl)) rfl
  | token :: others =>
      dsimp only
      split
      · rename_i closing
        exact .led (leads_many_closed rfl closing) (.done (.tail token others) .refl)
      · rename_i notClosing
        refine .led (.single (.more (.inr (Token.not_among_mark notClosing))))
          ((readRoutine_guided .method).andThen ?_)
        intro method rest middle
        have smaller := rest.2
        have more : (readMethods rest.1 middle).Guided [many (rule .function), mark .rightBrace]
            rest.1 middle := readMethods_guided
        exact more.within.map _
termination_by input.length * 16 + 3
decreasing_by all_goals omega

theorem readRoutine_guided (role : BodyRole) {input : List Token} {draft : Draft} :
    (readRoutine role input draft).Guided [rule .function] input draft := by
  rw [readRoutine.eq_def]
  have parameters : (Reading.follow fun rest draft => readParameters rest.1 draft :
      Reading input (List Token)).Guided
        [inOrder (optional (rule .parameters)) [mark .rightParen]] :=
    guided_follow fun _ _ => readParameters_guided
  have block : (Reading.follow fun rest draft => readBlock rest.1 draft :
      Reading input (List Stmt)).Guided
        [inOrder (many (rule .declaration)) [mark .rightBrace]] :=
    guided_follow fun rest draft => by
      have := rest.2
      exact .led (.single .seq) readBlock_guided
  refine .led (.head .rule (.single .seq)) ((expectFirst_guided rfl).andThen fun _ => ?_)
  exact guided_seq (guided_seq (guided_expect rfl fun _ => guided_bind parameters fun _ =>
    guided_rule (guided_seq (guided_expect rfl fun _ => guided_bind block fun _ =>
      guided_pure _))))
termination_by input.length * 16 + 2
decreasing_by omega

theorem readBlock_guided {input : List Token} {draft : Draft} :
    (readBlock input draft).Guided [many (rule .declaration), mark .rightBrace] input draft := by
  rw [readBlock.eq_def]
  match input with
  | [] => exact .missing (.single (.none rfl)) rfl
  | token :: others =>
      dsimp only
      split
      · rename_i closing
        exact .led (leads_many_closed rfl closing) (.done (.tail token others) .refl)
      · rename_i notClosing
        have declared : (passDeclaration token others draft).accepted.Guided [rule .declaration]
            (token :: others) draft := passDeclaration_guided
        generalize passDeclaration token others draft = passed at declared ⊢
        rcases passed with ⟨statement?, rest, middle⟩
        have smaller := rest.2
        have more : (readBlock rest.1 middle).Guided [many (rule .declaration), mark .rightBrace]
            rest.1 middle := readBlock_guided
        exact .led (.single (.more (.inr (Token.not_among_mark notClosing))))
          (declared.sequence (more.within.map _))
termination_by input.length * 16 + 7
decreasing_by
  · simp only [List.length_cons]
    omega
  · omega

theorem readStatement_guided {input : List Token} {draft : Draft} :
    (readStatement input draft).Guided [rule .statement] input draft := by
  rw [readStatement.eq_def]
  match input with
  | [] =>
      have value : (readExpr [] draft).Guided [rule .expression] [] draft :=
        .led (.single .rule) readExpr_guided
      rw [readExpr_nil] at value
      exact .led (leads_expressionStatement rfl) value.stopped
  | first :: others =>
      dsimp only
      split
      · rename_i kind
        exact .led (leads_alternative kind rfl rfl)
          (readFor_guided (first :: others) (.tail first others) draft)
      · rename_i kind
        exact .led (leads_alternative kind rfl rfl)
          (readConditional_guided (first :: others) (.tail first others) draft)
      · rename_i kind
        exact .led (leads_alternative kind rfl rfl)
          (readLoop_guided (first :: others) (.tail first others) draft)
      · rename_i kind
        exact .led (leads_alternative kind rfl rfl)
          (returnStatement_guided first (.tail first others) draft)
      · rename_i kind
        have body : (readBlock others draft).Guided
            [inOrder (many (rule .declaration)) [mark .rightBrace]] others draft :=
          .led (.single .seq) readBlock_guided
        exact .led (leads_alternative kind rfl rfl) (body.within.map _)
      · rename_i kind
        exact .led (leads_alternative kind rfl rfl)
          (printStatement_guided (.tail first others) draft)
      · rename_i notFor notIf notWhile notReturn notBlock notPrint
        have picked : Rule.statement.body.pick first.kind = rule .expressionStatement := by
          simp [Rule.body, oneOf, Pattern.pick, Pattern.starts, Rule.starts,
            TokenKind.among_singleton, unlike_keyword notFor, unlike_keyword notIf,
            unlike_keyword notWhile, unlike_keyword notReturn, unlike_keyword notPrint,
            unlike_mark notBlock]
        have value : (readExpr (first :: others) draft).Guided [rule .expression] (first :: others)
            draft := .led (.single .rule) readExpr_guided
        exact .led (leads_expressionStatement picked) (value.andThen fun _ =>
          guided_expect rfl fun _ => guided_pure _)
termination_by input.length * 16 + 4
decreasing_by
  all_goals
    simp only [List.length_cons]
    omega

theorem readFor_guided (input : List Token) : (readFor input).Guided [afterFor] := by
  rw [readFor.eq_def]
  have body : (Reading.follow fun rest draft => readStatement rest.1 draft :
      Reading input Stmt).Guided [rule .statement] :=
    guided_follow fun rest draft => by
      have := rest.2
      exact readStatement_guided
  exact guided_seq (guided_expect rfl fun _ => guided_seq (guided_bind forInitializer_guided
    fun _ => guided_seq (guided_expr? rfl (fun _ other => other) rfl fun _ =>
      guided_seq (guided_expect rfl fun _ => guided_seq (guided_expr? rfl (fun _ other => other) rfl
        fun _ => guided_seq (guided_expect rfl fun _ => guided_bind body fun _ =>
          guided_pure _))))))
termination_by input.length * 16
decreasing_by omega

theorem readConditional_guided (input : List Token) :
    (readConditional input).Guided [afterIf] := by
  rw [readConditional.eq_def]
  have branch : (Reading.follow fun rest draft => readStatement rest.1 draft :
      Reading input Stmt).Guided [rule .statement] :=
    guided_follow fun rest draft => by
      have := rest.2
      exact readStatement_guided
  exact guided_seq (guided_seq (guided_expect rfl fun _ => guided_seq (guided_bind expr_guided
    fun _ => guided_expect rfl fun _ => guided_seq (guided_bind branch fun _ =>
      guided_skip rfl (fun _ => guided_bind branch fun _ => guided_pure _) (guided_pure _)))))
termination_by input.length * 16
decreasing_by omega

theorem readLoop_guided (input : List Token) : (readLoop input).Guided [afterWhile] := by
  rw [readLoop.eq_def]
  have body : (Reading.follow fun rest draft => readStatement rest.1 draft :
      Reading input Stmt).Guided [rule .statement] :=
    guided_follow fun rest draft => by
      have := rest.2
      exact readStatement_guided
  exact guided_seq (guided_seq (guided_expect rfl fun _ => guided_seq (guided_bind expr_guided
    fun _ => guided_expect rfl fun _ => guided_bind body fun _ => guided_pure _)))
termination_by input.length * 16
decreasing_by omega
end

end Grammar

end Lox
