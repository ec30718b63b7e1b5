import Lox.Proofs.Grammar.Guidance
/-! Expressions are read as the table of rules guides them. An argument that cannot start an
expression is found missing at the place at which the closing parenthesis is. -/

namespace Lox

theorem Token.isSign_eq (token : Token) :
    token.isSign = token.kind.among [.mark .bang, .mark .minus] := by
  simp [isSign, TokenKind.among, Token.alike_mark]

theorem Token.among_mark (token : Token) (mark : Mark) :
    token.kind.among [.mark mark] = token.hasMark mark :=
  TokenKind.among_singleton.trans (token.alike_mark mark)

theorem Token.not_among_mark {token : Token} {mark : Mark} (other : ¬ token.hasMark mark = true) :
    token.kind.among [.mark mark] = false :=
  (token.among_mark mark).trans (Bool.eq_false_iff.mpr other)

namespace Grammar

open Parsed

open Pattern (inOrder oneOf inParens rule optional many mark name operand)

/-- What is due behind one argument. -/
def moreArguments : List Pattern :=
  [many (inOrder (mark .comma) [rule .expression]), mark .rightParen]

/-- A call or a property, behind a value. -/
def application : Pattern :=
  oneOf (inParens (optional (rule .arguments))) [inOrder (mark .dot) [name]]

theorem readSuper_guided {input : List Token} (keyword : Token) :
    (readSuper keyword : Reading input Expr).Guided [mark .dot, name] :=
  Reading.guided_expect rfl fun _ => Reading.guided_expect rfl fun _ =>
    Reading.guided_freshId fun _ => Reading.guided_pure _

/-! ## Ways through the rules -/

section

variable {others : List Pattern} {tokens rest : List Token} {token : Token} {part : Pattern}
  {closing : Mark}

/-- What may be left out is left out where the mark that closes it is next. -/
theorem leads_optional_closed (separate : TokenKind.apart [.mark closing] part.starts = true)
    (closed : token.hasMark closing = true) :
    Leads (optional part :: mark closing :: others, token :: rest) (others, rest) := by
  have among : token.kind.among [.mark closing] = true := (token.among_mark _).trans closed
  exact .head (.absent (TokenKind.not_among_of_apart separate among)) (leads_token among)

theorem leads_many_closed (separate : TokenKind.apart [.mark closing] part.starts = true)
    (closed : token.hasMark closing = true) :
    Leads (many part :: mark closing :: others, token :: rest) (others, rest) := by
  have among : token.kind.among [.mark closing] = true := (token.among_mark _).trans closed
  exact .head (.none (TokenKind.not_among_of_apart separate among)) (leads_token among)

theorem leads_call (opening : token.kind.among [.mark .leftParen] = true) :
    Leads (many application :: others, token :: rest)
      (inOrder (optional (rule .arguments)) [mark .rightParen] :: many application :: others,
        rest) := by
  have subset : [.mark .leftParen] ⊆ application.starts := by
    simp [application, oneOf, inParens, inOrder, mark, Pattern.starts]
  exact .head (.more (.inl (TokenKind.among_of_subset subset opening)))
    (.head (.first opening) (leads_seq_token opening))

theorem leads_property (dotted : token.hasMark .dot = true) :
    Leads (many application :: others, token :: rest)
      (name :: many application :: others, rest) := by
  have kind := Token.hasMark_iff.mp dotted
  have among : token.kind.among [.mark .dot] = true := (token.among_mark _).trans dotted
  refine .head (.more (.inl ?_)) (.head (.second ?_) (leads_seq_token among))
  all_goals
    rw [ahead, kind]
    rfl

theorem not_among_application (notOpening : ¬ token.hasMark .leftParen = true)
    (notDotted : ¬ token.hasMark .dot = true) : token.kind.among application.starts = false := by
  have starts : application.starts = [.mark .leftParen, .mark .dot] := rfl
  simp [starts, TokenKind.among, Token.alike_mark, notOpening, notDotted]

/-- Where no closing parenthesis is next, an argument is due. -/
theorem leads_arguments (bars : Bars (ahead tokens) [mark .rightParen]) :
    Leads ([optional (rule .arguments), mark .rightParen], tokens)
      (rule .expression :: moreArguments, tokens) :=
  .head (.present (.inr bars)) (.head .rule (.single .seq))

theorem leads_value (among : token.kind.among valueKinds = true) :
    Leads (rule .primary :: others, token :: rest) (others, rest) :=
  .head .rule (.head (.first among) (leads_token among))

theorem leads_group (opening : token.hasMark .leftParen = true) :
    Leads (rule .primary :: others, token :: rest)
      (inOrder (rule .expression) [mark .rightParen] :: others, rest) := by
  have among : token.kind.among [.mark .leftParen] = true := (token.among_mark _).trans opening
  refine .head .rule (.head (.second ?_) (.head (.first among) (leads_seq_token among)))
  rw [ahead, Token.hasMark_iff.mp opening]
  rfl

theorem leads_super (other : (ahead tokens).among valueKinds = false)
    (closed : (ahead tokens).among [.mark .leftParen] = false) :
    Leads (rule .primary :: others, tokens)
      (Pattern.word .superWord :: inOrder (mark .dot) [name] :: others, tokens) :=
  .head .rule (.head (.second other) (.head (.second closed) (.single .seq)))

end

theorem missing_value {input : List Token} {draft : Draft}
    (other : (ahead input).among valueStarts = false) :
    (reject ⟨.missing .expression, input⟩ (Nat.le_refl _) draft : Parsed Expr input).Guided
      [rule .primary] input draft := by
  rw [valueStarts, TokenKind.among_append, Bool.or_eq_false_iff] at other
  have keyword : (ahead input).among [.keyword .superWord] = false :=
    TokenKind.not_among_of_subset (by simp) other.2
  exact .missing (leads_super other.1 (TokenKind.not_among_of_subset (by simp) other.2)) keyword

/-! ## Constructs -/

mutual
theorem readExpr_guided {input : List Token} {draft : Draft} :
    (readExpr input draft).Guided [rule .assignment] input draft := by
  rw [readExpr.eq_def]
  refine .led (.head .rule (.single .seq)) ((readOperation_guided .disjunction).andThen ?_)
  rintro target ⟨rest, shorter⟩ middle
  cases rest with
  | nil => exact .done ⟨[], shorter⟩ (.single (.absent rfl))
  | cons equals others =>
      dsimp only
      split
      · rename_i sign
        have smaller : others.length < input.length := by
          simp only [List.length_cons] at shorter
          omega
        refine .led (leads_optional_token ((equals.among_mark _).trans sign)) ?_
        have assigned : (readExpr others middle).Guided [rule .assignment] others middle :=
          readExpr_guided
        refine assigned.within.andThen fun value rest final => ?_
        cases target.assignment? value with
        | some assignment => exact .done rest .refl
        | none => exact (Guided.done rest .refl).redrafted rfl rfl
      · rename_i noSign
        exact .done ⟨equals :: others, shorter⟩ (.single (.absent (Token.not_among_mark noSign)))
termination_by input.length * 32 + 16
decreasing_by
  · exact Nat.lt_succ_self _
  · omega

theorem readOperation_guided (level : Precedence) {input : List Token} {draft : Draft} :
    (readOperation level input draft).Guided [rule (.operation level)] input draft := by
  rw [readOperation.eq_def]
  refine .led (.head .rule (.single .seq)) ((readOperand_guided level).andThen ?_)
  intro left rest middle
  have := rest.2
  exact readOperators_guided level left rest
termination_by input.length * 32 + 2 * level.rank + 3
decreasing_by all_goals omega

theorem readOperand_guided (level : Precedence) {input : List Token} {draft : Draft} :
    (readOperand level input draft).Guided [operand level] input draft := by
  rw [readOperand.eq_def]
  split
  · rename_i next tighter
    have := Precedence.rank_tighter tighter
    rw [operand, tighter]
    exact readOperation_guided next
  · rename_i tightest
    have := level.rank_pos
    rw [operand, tightest]
    exact readSigned_guided
termination_by input.length * 32 + 2 * level.rank + 2
decreasing_by all_goals omega

theorem readOperators_guided (level : Precedence) {input : List Token} (left : Expr)
    (rest : Shorter input) {draft : Draft} :
    (readOperators level input left rest draft).Guided
      [many (inOrder (.token level.operators) [operand level])] rest.1 draft := by
  rw [readOperators.eq_def]
  match rest with
  | ⟨[], shorter⟩ =>
      refine .done ⟨[], shorter⟩ (.single (.none ?_))
      cases level <;> rfl
  | ⟨operator :: others, shorter⟩ =>
      dsimp only
      split
      · rename_i operates
        have := level.rank_le
        have right : (readOperand level others draft).Guided [operand level] others draft :=
          readOperand_guided level
        refine .led (leads_many_token operates) (Guided.onward right ?_)
        intro right after middle
        have inner : after.1.length < others.length := after.2
        exact readOperators_guided level _ (.trans (.drop operator others shorter) after)
      · rename_i noOperator
        refine .done ⟨operator :: others, shorter⟩ (.single (.none ?_))
        exact (congrArg _ starts_seq_token).trans (Bool.eq_false_iff.mpr noOperator)
termination_by rest.1.length * 32
decreasing_by
  all_goals
    simp only [List.length_cons, Shorter.trans]
    omega

theorem readSigned_guided {input : List Token} {draft : Draft} :
    (readSigned input draft).Guided [rule .signed] input draft := by
  rw [readSigned.eq_def]
  match input with
  | [] => exact .led (.head .rule (.single (.second rfl))) readApplied_guided
  | sign :: others =>
      dsimp only
      split
      · rename_i isSign
        rw [Token.isSign_eq] at isSign
        have operand : (readSigned others draft).Guided [rule .signed] others draft :=
          readSigned_guided
        refine .led (.head .rule (.head (.first isSign) (leads_seq_token isSign))) ?_
        exact operand.within.andThen fun right rest middle => .done rest .refl
      · rename_i noSign
        rw [Token.isSign_eq, Bool.not_eq_true] at noSign
        exact .led (.head .rule (.single (.second noSign))) readApplied_guided
termination_by input.length * 32 + 2
decreasing_by
  all_goals
    simp only [List.length_cons, List.length_nil]
    omega

theorem readApplied_guided {input : List Token} {draft : Draft} :
    (readApplied input draft).Guided [rule .applied] input draft := by
  rw [readApplied.eq_def]
  refine .led (.head .rule (.single .seq)) (readPrimary_guided.andThen ?_)
  intro callee rest middle
  have := rest.2
  exact readApplications_guided callee rest
termination_by input.length * 32 + 1
decreasing_by all_goals omega

theorem readApplications_guided {input : List Token} (callee : Expr) (rest : Shorter input)
    {draft : Draft} :
    (readApplications input callee rest draft).Guided [many application] rest.1 draft := by
  rw [readApplications.eq_def]
  match rest with
  | ⟨[], shorter⟩ => exact .done ⟨[], shorter⟩ (.single (.none rfl))
  | ⟨token :: others, shorter⟩ =>
      dsimp only
      split
      · rename_i opening
        rw [← token.among_mark] at opening
        have arguments : (readArguments others draft).Guided
            [inOrder (optional (rule .arguments)) [mark .rightParen]] others draft :=
          .led (.single .seq) readArguments_guided
        refine .led (leads_call opening) (Guided.onward arguments ?_)
        intro found after middle
        have inner : after.1.length < others.length := after.2
        exact readApplications_guided _ (.trans (.drop token others shorter) after)
      rename_i notOpening
      split
      · rename_i dotted
        have property : (expectFirst .identifier .propertyName others draft).Guided [name] others
            draft := expectFirst_guided rfl
        refine .led (leads_property dotted) (Guided.onward property ?_)
        intro name after middle
        have inner : after.1.length < others.length := after.2
        exact readApplications_guided _ (.trans (.drop token others shorter) after)
      · rename_i notDotted
        refine .done ⟨token :: others, shorter⟩ (.single (.none ?_))
        exact not_among_application notOpening notDotted
termination_by rest.1.length * 32
decreasing_by
  all_goals
    simp only [List.length_cons, Shorter.trans]
    omega

theorem readArguments_guided {input : List Token} {draft : Draft} :
    (readArguments input draft).Guided [optional (rule .arguments), mark .rightParen] input
      draft := by
  rw [readArguments.eq_def]
  match input with
  | [] => exact .led (leads_arguments rfl) (readArgumentList_guided [])
  | token :: others =>
      dsimp only
      split
      · rename_i closing
        exact .led (leads_optional_closed rfl closing) (.done (.tail token others) .refl)
      · rename_i notClosing
        exact .led (leads_arguments (Token.not_among_mark notClosing)) (readArgumentList_guided [])
termination_by input.length * 32 + 18
decreasing_by
  all_goals
    simp only [List.length_cons, List.length_nil]
    omega

theorem readArgumentList_guided (before : List Expr) {input : List Token} {draft : Draft} :
    (readArgumentList before input draft).Guided (rule .expression :: moreArguments) input
      draft := by
  rw [readArgumentList.eq_def]
  dsimp only
  refine .reported (maximumArity ≤ before.length) ⟨.tooManyArguments, input⟩ rfl ?_
  refine Guided.andThen (.led (.single .rule) readExpr_guided) ?_
  rintro argument ⟨rest, shorter⟩ middle
  cases rest with
  | nil => exact .missing (.single (.none rfl)) rfl
  | cons token others =>
      dsimp only
      split
      · rename_i comma
        have smaller : others.length < input.length := by
          simp only [List.length_cons] at shorter
          omega
        have further : (readArgumentList (before ++ [argument]) others middle).Guided
            (rule .expression :: moreArguments) others middle := readArgumentList_guided _
        exact .led (leads_many_token ((token.among_mark _).trans comma)) further.within
      rename_i noComma
      refine .led (.single (.none (Token.not_among_mark noComma))) ?_
      split
      · rename_i closing
        exact .led (leads_token ((token.among_mark _).trans closing))
          (.done (.drop token others shorter) .refl)
      · rename_i notClosing
        exact .missing .refl (Token.not_among_mark notClosing)
termination_by input.length * 32 + 17
decreasing_by all_goals omega

theorem readPrimary_guided {input : List Token} {draft : Draft} :
    (readPrimary input draft).Guided [rule .primary] input draft := by
  rw [readPrimary.eq_def]
  match input with
  | [] => exact missing_value rfl
  | token :: others =>
      -- The reader and the rule both look at the kind, and agree on every kind.
      dsimp only
      cases kind : token.kind with
      | number _ | string _ =>
          exact .led (leads_value (by rw [kind]; rfl)) (.done (.tail token others) .refl)
      | identifier =>
          refine .led (leads_value (by rw [kind]; rfl)) (.numbered ?_)
          exact .done (.tail token others) .refl
      | keyword word =>
          cases word with
          | falseWord | trueWord | nilWord =>
              exact .led (leads_value (by rw [kind]; rfl)) (.done (.tail token others) .refl)
          | thisWord =>
              refine .led (leads_value (by rw [kind]; rfl)) (.numbered ?_)
              exact .done (.tail token others) .refl
          | superWord =>
              refine .led ((leads_super ?_ ?_).trans (leads_token ?_)) ?_
              · rw [ahead, kind]
                rfl
              · rw [ahead, kind]
                rfl
              · rw [kind]
                rfl
              · exact Reading.guided_seq (readSuper_guided token) (.tail token others) draft
          | _ => exact missing_value (by rw [ahead, kind]; rfl)
      | mark mark =>
          cases mark with
          | leftParen =>
              have inner : (readExpr others draft).Guided [rule .expression] others draft :=
                .led (.single .rule) readExpr_guided
              refine .led ((leads_group (Token.hasMark_iff.mpr kind)).trans (.single .seq)) ?_
              exact inner.within.andThen fun _ => Reading.guided_expect rfl fun _ =>
                Reading.guided_pure _
          | _ => exact missing_value (by rw [ahead, kind]; rfl)
      | endOfInput => exact missing_value (by rw [ahead, kind]; rfl)
termination_by input.length * 32
decreasing_by
  simp only [List.length_cons]
  omega
end

end Grammar

end Lox
