import Lox.Proofs.Grammar.Following
import Lox.Proofs.Grammar.ExpressionSoundness
/-! Expressions, read in place. Behind the last token of a row an expression is not missing if
that token is an opening parenthesis: it is taken for the start of one again and again. -/

namespace Lox

theorem Token.alike_mark (token : Token) (mark : Mark) :
    token.kind.alike (.mark mark) = token.hasMark mark := by
  rw [Bool.eq_iff_iff, TokenKind.alike_mark, Token.hasMark_iff]

theorem Token.unlike_mark {token : Token} {mark : Mark} (other : ¬ token.hasMark mark = true) :
    token.kind.alike (.mark mark) = false :=
  (token.alike_mark mark).trans (Bool.eq_false_iff.mpr other)

/-! ## Reading that never ends -/

/-- At the end, with an opening parenthesis in view. -/
def Cursor.Trapped {row : Row} (cursor : Cursor row) : Prop :=
  cursor.atEnd = true ∧ cursor.inView.kind = .mark .leftParen

namespace Cursor.Trapped

variable {row : Row} {cursor : Cursor row}

theorem shows (trapped : cursor.Trapped) (kind : TokenKind) : cursor.shows kind = false := by
  rw [Cursor.shows, trapped.1, Bool.not_true, Bool.false_and]

theorem advance (trapped : cursor.Trapped) : cursor.advance = cursor :=
  dif_pos trapped.1

end Cursor.Trapped

namespace Moving

variable {row : Row}

theorem exists_of_run_bind {α β : Type} {moving : Moving row α} {next : α → Moving row β}
    {cursor : Cursor row} {found : Except (Blame row) β × Cursor row}
    (ends : (moving >>= next).run.run cursor = some found) :
    ∃ result, moving.run.run cursor = some result := by
  cases first : moving.run.run cursor with
  | none =>
      rw [run_bind_none first] at ends
      cases ends
  | some result => exact ⟨result, rfl⟩

end Moving

namespace Row

open Moving

variable {row : Row}

/-- The parenthesis in view cannot be taken, so the expression in it starts with it too. -/
theorem expr_eq_none {cursor : Cursor row} (trapped : cursor.Trapped) :
    row.expr cursor = none := by
  -- The calls from `expr` down to `primary` and back all start at the same cursor.
  have free := expr.partial_correctness row (fun (cursor : Cursor row) _ => ¬ cursor.Trapped)
    (fun _ cursor _ => ¬ cursor.Trapped) (fun _ _ _ _ => True) (fun _ cursor _ => ¬ cursor.Trapped)
    (fun cursor _ => ¬ cursor.Trapped) (fun cursor _ => ¬ cursor.Trapped) (fun _ _ _ => True)
    (fun _ _ => True) (fun _ _ _ => True) (fun cursor _ => ¬ cursor.Trapped)
    ?_ ?_ ?_ ?_ ?_ ?_ ?_ ?_ ?_ ?_
  · cases ends : row.expr cursor with
    | none => rfl
    | some found => exact absurd trapped (free cursor found ends)
  · intro expr operation _ first cursor found ends
    rcases exists_of_run_bind ends with ⟨result, ends⟩
    exact first _ cursor result ends
  · intro operators operand _ first level cursor found ends
    rcases exists_of_run_bind ends with ⟨result, ends⟩
    exact first level cursor result ends
  · intros
    trivial
  · intro operation signed tighter first level cursor found ends
    cases next : level.tighter? with
    | some next =>
        simp only [next] at ends
        exact tighter _ cursor found ends
    | none =>
        simp only [next] at ends
        exact first cursor found ends
  · intro signed applied _ first cursor found ends trapped
    have onward := (run_bind_ok rfl).symm.trans ends
    rw [trapped.shows, trapped.shows, if_neg (by simp)] at onward
    exact first cursor found onward trapped
  · intro applications primary _ first cursor found ends
    rcases exists_of_run_bind ends with ⟨result, ends⟩
    exact first cursor result ends
  · intros
    trivial
  · intros
    trivial
  · intros
    trivial
  · intro expr first cursor found ends trapped
    have onward := (run_bind_ok rfl).symm.trans ends
    dsimp only at onward
    rw [trapped.2] at onward
    have taken : take.run.run cursor = some (.ok cursor.passed, cursor) := by
      rw [run_take, trapped.advance]
    rcases exists_of_run_bind ((run_bind_ok taken).symm.trans onward) with ⟨result, ends⟩
    exact first cursor result ends trapped

theorem primary_eq_none {cursor : Cursor row} (trapped : cursor.Trapped) :
    row.primary cursor = none := by
  have taken : take.run.run cursor = some (.ok cursor.passed, cursor) := by
    rw [run_take, trapped.advance]
  rw [primary.eq_def]
  refine (run_bind_ok rfl).trans ?_
  dsimp only
  rw [trapped.2]
  exact (run_bind_ok taken).trans (run_bind_none (expr_eq_none trapped))

/-- No single value and no parenthesis starts with the token in view. -/
theorem primary_fails {cursor : Cursor row} (plain : cursor.inView.kind.startsValue = false)
    (closed : cursor.inView.kind ≠ .mark .leftParen) :
    row.primary cursor = (fail .expression : Moving row Expr).run.run cursor := by
  rw [primary.eq_def]
  refine (run_bind_ok rfl).trans ?_
  dsimp only
  split <;> simp_all [TokenKind.startsValue]

end Row

namespace Grammar

open Parsed

variable {row : Row} {earlier : List (Blame row)}

/-! ## Parts of expressions -/

theorem startsValue_of_hasOperator {level : Precedence} {token : Token}
    (operates : level.hasOperator token = true) : token.kind.startsValue = false := by
  have plain : ∀ kind ∈ level.operators, kind.startsValue = false := by
    cases level <;> decide
  rcases List.any_eq_true.mp operates with ⟨kind, member, alike⟩
  rw [TokenKind.startsValue_of_alike alike, plain kind member]

theorem startsValue_of_hasMark {token : Token} {mark : Mark} (marked : token.hasMark mark = true) :
    token.kind.startsValue = false := by
  rw [Token.hasMark_iff.mp marked]
  rfl

theorem startsValue_of_isSign {token : Token} (sign : token.isSign = true) :
    token.kind.startsValue = false := by
  rcases Bool.or_eq_true_iff.mp sign with marked | marked
  · exact startsValue_of_hasMark marked
  · exact startsValue_of_hasMark marked

theorem any_shows_cons {level : Precedence} {token : Token} {others : List Token} {draft : Draft}
    (suffix : token :: others <:+ row.sentence) :
    level.operators.any (row.cursor earlier (token :: others) draft).shows =
      level.hasOperator token := by
  have same : (row.cursor earlier (token :: others) draft).shows = token.kind.alike :=
    funext (Cursor.shows_cons suffix)
  rw [same, Precedence.hasOperator]

theorem any_shows_nil {level : Precedence} {draft : Draft} :
    level.operators.any (row.cursor earlier [] draft).shows = false := by
  simp

theorem readSuper_follows {input : List Token} (keyword : Token) :
    (readSuper keyword : Reading input Expr).Follows earlier AnyRest AnyRest
      (row.superMethod keyword) :=
  Reading.follows_expect (by simp) rfl fun _ => Reading.follows_expectName (by simp) fun _ =>
    Reading.follows_freshId fun _ => Reading.follows_pure _ fun _ => id

/-! ## Constructs -/

mutual
theorem readExpr_follows {input : List Token} {draft : Draft} (suffix : input <:+ row.sentence)
    (awaits : row.Awaits input) :
    (readExpr input draft).Follows earlier input draft AnyRest row.expr := by
  rw [readExpr.eq_def, Row.expr.eq_def]
  refine (readOperation_follows .disjunction suffix awaits).andThen ?_
  rintro target ⟨rest, shorter⟩ middle remainder -
  have inside := remainder.trans suffix
  cases rest with
  | nil => exact .kept inside (by simp) (.done ⟨[], shorter⟩ trivial)
  | cons equals others =>
      dsimp only
      split
      · rename_i sign
        have smaller : others.length < input.length := by
          simp only [List.length_cons] at shorter
          omega
        refine .skipped inside ((equals.alike_mark _).trans sign) (.looked ?_)
        rw [Cursor.passedPlace_cursor inside]
        have assigned : (readExpr others middle).Follows earlier others middle AnyRest
            row.expr :=
          readExpr_follows ((List.suffix_cons ..).trans inside)
            (Row.awaits_behind inside (startsValue_of_hasMark sign))
        refine assigned.within.andThen ?_
        intro value rest final _ _
        cases target.assignment? value with
        | some assignment => exact .reported rfl inside (.done rest trivial)
        | none => exact .reported rfl inside (.done rest trivial)
      · rename_i noSign
        exact .keptOther inside (Token.unlike_mark noSign)
          (.done ⟨equals :: others, shorter⟩ trivial)
termination_by input.length * 32 + 16
decreasing_by
  · exact Nat.lt_succ_self _
  · omega

theorem readOperation_follows (level : Precedence) {input : List Token} {draft : Draft}
    (suffix : input <:+ row.sentence) (awaits : row.Awaits input) :
    (readOperation level input draft).Follows earlier input draft AnyRest
      (row.operation level) := by
  rw [readOperation.eq_def, Row.operation.eq_def]
  refine (readOperand_follows level suffix awaits).andThen ?_
  intro left rest middle remainder _
  have := rest.2
  exact readOperators_follows level left rest (remainder.trans suffix)
termination_by input.length * 32 + 2 * level.rank + 3
decreasing_by all_goals omega

theorem readOperand_follows (level : Precedence) {input : List Token} {draft : Draft}
    (suffix : input <:+ row.sentence) (awaits : row.Awaits input) :
    (readOperand level input draft).Follows earlier input draft AnyRest
      (row.operand level) := by
  rw [readOperand.eq_def, Row.operand.eq_def]
  split
  · rename_i next tighter
    have := Precedence.rank_tighter tighter
    rw [tighter]
    exact readOperation_follows next suffix awaits
  · rename_i tightest
    have := level.rank_pos
    rw [tightest]
    exact readSigned_follows suffix awaits
termination_by input.length * 32 + 2 * level.rank + 2
decreasing_by all_goals omega

theorem readOperators_follows (level : Precedence) {input : List Token} (left : Expr)
    (rest : Shorter input) {draft : Draft} (suffix : rest.1 <:+ row.sentence) :
    (readOperators level input left rest draft).Follows earlier rest.1 draft AnyRest
      (row.operators level left) := by
  rw [readOperators.eq_def, Row.operators.eq_def]
  refine .looked ?_
  match rest, suffix with
  | ⟨[], shorter⟩, _ =>
      rw [any_shows_nil]
      exact .done ⟨[], shorter⟩ trivial
  | ⟨operator :: others, shorter⟩, suffix =>
      rw [any_shows_cons suffix]
      dsimp only
      split
      · rename_i operates
        have := level.rank_le
        have operand : (readOperand level others draft).Follows earlier others draft AnyRest
            (row.operand level) :=
          readOperand_follows level ((List.suffix_cons ..).trans suffix)
            (Row.awaits_behind suffix (startsValue_of_hasOperator operates))
        refine .took suffix (Follows.onward operand ?_)
        intro right after middle remainder _
        have inner : after.1.length < others.length := after.2
        exact readOperators_follows level _ (.trans (.drop operator others shorter) after)
          (remainder.trans ((List.suffix_cons ..).trans suffix))
      · exact .done ⟨operator :: others, shorter⟩ trivial
termination_by rest.1.length * 32
decreasing_by
  all_goals
    simp only [List.length_cons, Shorter.trans]
    omega

theorem readSigned_follows {input : List Token} {draft : Draft}
    (suffix : input <:+ row.sentence) (awaits : row.Awaits input) :
    (readSigned input draft).Follows earlier input draft AnyRest row.signed := by
  rw [readSigned.eq_def, Row.signed.eq_def]
  refine .looked ?_
  match input, suffix, awaits with
  | [], suffix, awaits =>
      rw [Cursor.shows_nil, Cursor.shows_nil, if_neg (by simp)]
      exact readApplied_follows suffix awaits
  | sign :: others, suffix, awaits =>
      rw [Cursor.shows_cons suffix, Cursor.shows_cons suffix, Token.alike_mark, Token.alike_mark,
        ← Token.isSign]
      dsimp only
      split
      · rename_i isSign
        have operand : (readSigned others draft).Follows earlier others draft AnyRest
            row.signed :=
          readSigned_follows ((List.suffix_cons ..).trans suffix)
            (Row.awaits_behind suffix (startsValue_of_isSign isSign))
        refine .took suffix (operand.within.andThen ?_)
        intro right rest middle _ _
        exact .done rest trivial
      · exact readApplied_follows suffix awaits
termination_by input.length * 32 + 2
decreasing_by
  all_goals
    simp only [List.length_cons, List.length_nil]
    omega

theorem readApplied_follows {input : List Token} {draft : Draft}
    (suffix : input <:+ row.sentence) (awaits : row.Awaits input) :
    (readApplied input draft).Follows earlier input draft AnyRest row.applied := by
  rw [readApplied.eq_def, Row.applied.eq_def]
  refine (readPrimary_follows suffix awaits).andThen ?_
  intro callee rest middle remainder _
  have := rest.2
  exact readApplications_follows callee rest (remainder.trans suffix)
termination_by input.length * 32 + 1
decreasing_by all_goals omega

theorem readApplications_follows {input : List Token} (callee : Expr) (rest : Shorter input)
    {draft : Draft} (suffix : rest.1 <:+ row.sentence) :
    (readApplications input callee rest draft).Follows earlier rest.1 draft AnyRest
      (row.applications callee) := by
  rw [readApplications.eq_def, Row.applications.eq_def]
  match rest, suffix with
  | ⟨[], shorter⟩, suffix =>
      exact .kept suffix (by simp) (.kept suffix (by simp) (.done ⟨[], shorter⟩ trivial))
  | ⟨token :: others, shorter⟩, suffix =>
      have inside : others <:+ row.sentence := (List.suffix_cons ..).trans suffix
      dsimp only
      split
      · rename_i opening
        have arguments : (readArguments others draft).Follows earlier others draft AnyRest
            row.arguments :=
          readArguments_follows inside (Row.awaits_behind suffix (startsValue_of_hasMark opening))
        refine .skipped suffix ((token.alike_mark _).trans opening) (Follows.onward arguments ?_)
        intro found after middle remainder _
        have inner : after.1.length < others.length := after.2
        exact readApplications_follows _ (.trans (.drop token others shorter) after)
          (remainder.trans inside)
      rename_i notOpening
      refine .keptOther suffix (Token.unlike_mark notOpening) ?_
      split
      · rename_i dotted
        refine .skipped suffix ((token.alike_mark _).trans dotted)
          (Follows.onward (expectFirst_follows (by simp) inside) ?_)
        intro name after middle remainder _
        have inner : after.1.length < others.length := after.2
        exact readApplications_follows _ (.trans (.drop token others shorter) after)
          (remainder.trans inside)
      · rename_i notDotted
        exact .keptOther suffix (Token.unlike_mark notDotted)
          (.done ⟨token :: others, shorter⟩ trivial)
termination_by rest.1.length * 32
decreasing_by
  all_goals
    simp only [List.length_cons, Shorter.trans]
    omega

theorem readArguments_follows {input : List Token} {draft : Draft}
    (suffix : input <:+ row.sentence) (awaits : row.Awaits input) :
    (readArguments input draft).Follows earlier input draft AnyRest row.arguments := by
  rw [readArguments.eq_def, Row.arguments.eq_def]
  refine .looked ?_
  match input, suffix, awaits with
  | [], suffix, awaits =>
      rw [Cursor.shows_nil, if_neg Bool.false_ne_true]
      exact readArgumentList_follows [] suffix awaits
  | token :: others, suffix, awaits =>
      rw [Cursor.shows_cons suffix, Token.alike_mark]
      dsimp only
      split
      · rename_i closing
        exact .found suffix ((token.alike_mark _).trans closing)
          (.done (.tail token others) trivial)
      · exact readArgumentList_follows [] suffix awaits
termination_by input.length * 32 + 18
decreasing_by
  all_goals
    simp only [List.length_cons, List.length_nil]
    omega

theorem readArgumentList_follows (before : List Expr) {input : List Token} {draft : Draft}
    (suffix : input <:+ row.sentence) (awaits : row.Awaits input) :
    (readArgumentList before input draft).Follows earlier input draft AnyRest
      (row.argumentList before) := by
  rw [readArgumentList.eq_def, Row.argumentList.eq_def]
  refine .looked (.reported rfl suffix ?_)
  simp only [decide_eq_true_eq]
  refine (readExpr_follows suffix awaits).andThen ?_
  rintro argument ⟨rest, shorter⟩ middle remainder -
  have inside := remainder.trans suffix
  cases rest with
  | nil => exact .kept inside (by simp) (.lacking (by simp) inside (by simp))
  | cons token others =>
      dsimp only
      split
      · rename_i comma
        have smaller : others.length < input.length := by
          simp only [List.length_cons] at shorter
          omega
        have others_follow : (readArgumentList (before ++ [argument]) others middle).Follows earlier
            others middle AnyRest (row.argumentList (before ++ [argument])) :=
          readArgumentList_follows _ ((List.suffix_cons ..).trans inside)
            (Row.awaits_behind inside (startsValue_of_hasMark comma))
        exact .skipped inside ((token.alike_mark _).trans comma) others_follow.within
      rename_i noComma
      refine .keptOther inside (Token.unlike_mark noComma) ?_
      split
      · rename_i closing
        exact .found inside ((token.alike_mark _).trans closing)
          (.done (.drop token others shorter) trivial)
      · exact .lacking (by simp) inside (by simp_all [Token.alike_mark])
termination_by input.length * 32 + 17
decreasing_by all_goals omega

theorem readPrimary_follows {input : List Token} {draft : Draft}
    (suffix : input <:+ row.sentence) (awaits : row.Awaits input) :
    (readPrimary input draft).Follows earlier input draft AnyRest row.primary := by
  rw [readPrimary.eq_def]
  match input, suffix, awaits with
  | [], _, awaits =>
      refine ⟨.refl, rfl, fun free => ?_⟩
      by_cases opening : row.final.kind = .mark .leftParen
      · have stuck : row.Stuck (draft.errors ++ [⟨.missing .expression, []⟩]) :=
          ⟨Token.hasMark_iff.mpr opening, List.mem_append_right _ (List.mem_singleton.mpr rfl)⟩
        exact (Row.primary_eq_none ⟨Cursor.atEnd_nil, opening⟩).trans (if_pos stuck).symm
      · have loose : ¬ row.Stuck (draft.errors ++ [⟨.missing .expression, []⟩]) :=
          fun stuck => opening (Token.hasMark_iff.mp stuck.1)
        exact (@Row.primary_fails row (row.cursor earlier [] draft) (awaits rfl) opening).trans
          (if_neg loose).symm
  | token :: others, suffix, _ =>
      have inside : others <:+ row.sentence := (List.suffix_cons ..).trans suffix
      rw [Row.primary.eq_def]
      refine .looked ?_
      rw [Cursor.inView_cons suffix]
      dsimp only
      -- Both readers look at the kind, and agree on every kind.
      cases kind : token.kind with
      | number _ | string _ => exact .took suffix (.done (.tail token others) trivial)
      | identifier => exact .numbered (.took suffix (.done (.tail token others) trivial))
      | keyword word =>
          cases word with
          | falseWord | trueWord | nilWord =>
              exact .took suffix (.done (.tail token others) trivial)
          | thisWord => exact .numbered (.took suffix (.done (.tail token others) trivial))
          | superWord =>
              exact .took suffix (readSuper_follows token (.tail token others) draft inside trivial)
          | _ => exact .missing (by simp [Row.Stuck])
      | mark mark =>
          cases mark with
          | leftParen =>
              have inner : (readExpr others draft).Follows earlier others draft AnyRest
                  row.expr :=
                readExpr_follows inside (Row.awaits_behind suffix (by rw [kind]; rfl))
              exact .took suffix (inner.within.andReading inside fun _ =>
                Reading.follows_expect (by simp) rfl fun _ =>
                  Reading.follows_pure _ fun _ _ => trivial)
          | _ => exact .missing (by simp [Row.Stuck])
      | endOfInput => exact .missing (by simp [Row.Stuck])
termination_by input.length * 32
decreasing_by
  simp only [List.length_cons]
  omega
end

end Grammar

end Lox
