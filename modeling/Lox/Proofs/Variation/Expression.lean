import Lox.Grammar.Expression
import Lox.Proofs.Variation.Reading
/-! Expressions of a text and of a variant of it. Where an assignment has no target, the
numbers of the value that is left out stay taken. -/

namespace Lox

namespace Grammar

open Parsed Reading

variable {variation : Variation} {input input' : List Token} {draft draft' : Draft}

/-- An expression that takes the numbers from `first` on. -/
abbrev ExprTaken (variation : Variation) (first : OccurrenceId) :
    Expr → Expr → OccurrenceId → Prop :=
  Takes Expr.occurrences (Expr.Varies variation) first

/-- Arguments and the parenthesis behind them. -/
abbrev ArgumentsTaken (variation : Variation) (first : OccurrenceId) :
    List Expr × Token → List Expr × Token → OccurrenceId → Prop :=
  Takes (Expr.allOccurrences ·.1)
    (fun found other => Expr.AllVary variation found.1 other.1 ∧ variation.tokens found.2 other.2)
    first

/-! ## Parts of expressions -/

theorem hasOperator_varies {token other : Token} (same : variation.tokens token other)
    (level : Precedence) : level.hasOperator other = level.hasOperator token := by
  rw [Precedence.hasOperator, Precedence.hasOperator, variation.kind same]

theorem isSign_varies {token other : Token} (same : variation.tokens token other) :
    other.isSign = token.isSign := by
  rw [Token.isSign, Token.isSign, Variation.hasMark same, Variation.hasMark same]

theorem combine_varies {left left' operator operator' right right'} (level : Precedence)
    (leftVaries : Expr.Varies variation left left') (same : variation.tokens operator operator')
    (rightVaries : Expr.Varies variation right right') :
    (level.combine left operator right).Varies variation
      (level.combine left' operator' right') := by
  cases level with
  | disjunction | conjunction => exact .logical leftVaries same rightVaries
  | equality | comparison | sum | product => exact .binary leftVaries same rightVaries

/-- What is assigned to takes the numbers in front of those of the value. -/
theorem assignment_taken {first middle next : OccurrenceId} {target target' value value' : Expr}
    (before : ExprTaken variation first target target' middle)
    (after : ExprTaken variation middle value value' next) :
    Option.Rel (fun found other => ExprTaken variation first found other next)
      (target.assignment? value) (target'.assignment? value') := by
  rcases before with ⟨numbered, varies⟩
  cases varies with
  | read same name => exact .some ⟨numbered.append after.1, .assign same name after.2⟩
  | get object name => exact .some ⟨numbered.append after.1, .set object name after.2⟩
  | _ => exact .none

theorem allOccurrences_append (earlier arguments : List Expr) :
    Expr.allOccurrences (earlier ++ arguments) =
      Expr.allOccurrences earlier ++ Expr.allOccurrences arguments := by
  induction earlier with
  | nil => rfl
  | cons expr rest induction =>
      rw [List.cons_append, Expr.allOccurrences, Expr.allOccurrences, induction,
        List.append_assoc]

theorem readSuper_varies {keyword keyword' : Token} {here : OccurrenceId}
    (same : variation.tokens keyword keyword') :
    (readSuper keyword : Reading input Expr).Varies variation here (ExprTaken variation here)
      (readSuper keyword' : Reading input' Expr) :=
  varies_expect fun _ _ _ => varies_expect fun _ _ method => varies_freshId fun _ ids =>
    varies_pure ⟨.one, .super ids same method⟩

/-! ## Constructs -/

mutual
theorem readExpr_varies {input input' : List Token} {draft draft' : Draft}
    (ahead : Ahead variation input input' draft draft') :
    (readExpr input draft).Varies variation draft.nextId (ExprTaken variation draft.nextId)
      (readExpr input' draft') := by
  rw [readExpr.eq_def input draft, readExpr.eq_def input' draft']
  refine (readOperation_varies .disjunction ahead).andThen ?_
  rintro target target' ⟨rest, shorter⟩ ⟨rest', shorter'⟩ middle middle' _ taken
    ⟨texts, drafts⟩
  cases texts with
  | nil => exact varies_accept ⟨.nil, drafts⟩ taken
  | @cons equals equals' others others' same texts =>
      dsimp only
      rw [Variation.hasMark same]
      split
      · have smaller : others.length < input.length := by
          simp only [List.length_cons] at shorter
          omega
        refine (readExpr_varies ⟨texts, drafts⟩).within.andThen ?_
        intro value value' rest rest' final final' later found ahead
        have assigned := assignment_taken taken found
        generalize target.assignment? value = assignment at assigned ⊢
        generalize target'.assignment? value' = assignment' at assigned ⊢
        cases assigned with
        | some holds => exact varies_accept ahead holds
        | none =>
            have drafts := ahead.drafts.report .invalidTarget (.cons same texts)
            exact ⟨Nat.le_refl _, ⟨ahead.texts, drafts⟩, taken.1.extend later, taken.2⟩
      · exact varies_accept ⟨.cons same texts, drafts⟩ taken
termination_by input.length * 32 + 16
decreasing_by
  · exact Nat.lt_succ_self _
  · omega

theorem readOperation_varies (level : Precedence) {input input' : List Token}
    {draft draft' : Draft} (ahead : Ahead variation input input' draft draft') :
    (readOperation level input draft).Varies variation draft.nextId
      (ExprTaken variation draft.nextId) (readOperation level input' draft') := by
  rw [readOperation.eq_def level input draft, readOperation.eq_def level input' draft']
  refine (readOperand_varies level ahead).andThen ?_
  intro left left' rest rest' middle middle' _ taken ahead
  have := rest.2
  exact readOperators_varies level ahead taken
termination_by input.length * 32 + 2 * level.rank + 3
decreasing_by all_goals omega

theorem readOperand_varies (level : Precedence) {input input' : List Token}
    {draft draft' : Draft} (ahead : Ahead variation input input' draft draft') :
    (readOperand level input draft).Varies variation draft.nextId
      (ExprTaken variation draft.nextId) (readOperand level input' draft') := by
  rw [readOperand.eq_def level input draft, readOperand.eq_def level input' draft']
  split
  · rename_i next tighter
    have := Precedence.rank_tighter tighter
    exact readOperation_varies next ahead
  · have := level.rank_pos
    exact readSigned_varies ahead
termination_by input.length * 32 + 2 * level.rank + 2
decreasing_by all_goals omega

theorem readOperators_varies (level : Precedence) {input input' : List Token} {left left' : Expr}
    {first : OccurrenceId} {rest : Shorter input} {rest' : Shorter input'} {draft draft' : Draft}
    (ahead : Ahead variation rest.1 rest'.1 draft draft')
    (taken : ExprTaken variation first left left' draft.nextId) :
    (readOperators level input left rest draft).Varies variation draft.nextId
      (ExprTaken variation first) (readOperators level input' left' rest' draft') := by
  rw [readOperators.eq_def level input, readOperators.eq_def level input']
  match rest, rest', ahead with
  | ⟨[], _⟩, ⟨[], _⟩, ⟨_, drafts⟩ => exact varies_accept ⟨.nil, drafts⟩ taken
  | ⟨operator :: others, shorter⟩, ⟨operator' :: others', shorter'⟩, ⟨.cons same texts, drafts⟩ =>
      dsimp only
      rw [hasOperator_varies same]
      split
      · have := level.rank_le
        refine (readOperand_varies level ⟨texts, drafts⟩).onward ?_
        intro right right' after after' middle middle' _ found ahead
        have inner : after.1.length < others.length := after.2
        refine readOperators_varies level ahead ⟨?_, combine_varies level taken.2 same found.2⟩
        rw [combine_occurrences]
        exact taken.1.append found.1
      · exact varies_accept ⟨.cons same texts, drafts⟩ taken
termination_by rest.1.length * 32
decreasing_by
  all_goals
    simp only [List.length_cons, Shorter.trans]
    omega

theorem readSigned_varies {input input' : List Token} {draft draft' : Draft}
    (ahead : Ahead variation input input' draft draft') :
    (readSigned input draft).Varies variation draft.nextId (ExprTaken variation draft.nextId)
      (readSigned input' draft') := by
  rw [readSigned.eq_def input draft, readSigned.eq_def input' draft']
  match input, input', ahead with
  | [], [], ⟨_, drafts⟩ => exact readApplied_varies ⟨.nil, drafts⟩
  | sign :: others, sign' :: others', ⟨.cons same texts, drafts⟩ =>
      dsimp only
      rw [isSign_varies same]
      split
      · refine (readSigned_varies ⟨texts, drafts⟩).within.andThen ?_
        intro right right' _ _ _ _ _ taken ahead
        exact varies_accept ahead ⟨taken.1, .unary same taken.2⟩
      · exact readApplied_varies ⟨.cons same texts, drafts⟩
termination_by input.length * 32 + 2
decreasing_by
  all_goals
    simp only [List.length_cons, List.length_nil]
    omega

theorem readApplied_varies {input input' : List Token} {draft draft' : Draft}
    (ahead : Ahead variation input input' draft draft') :
    (readApplied input draft).Varies variation draft.nextId (ExprTaken variation draft.nextId)
      (readApplied input' draft') := by
  rw [readApplied.eq_def input draft, readApplied.eq_def input' draft']
  refine (readPrimary_varies ahead).andThen ?_
  intro callee callee' rest rest' middle middle' _ taken ahead
  have := rest.2
  exact readApplications_varies ahead taken
termination_by input.length * 32 + 1
decreasing_by all_goals omega

theorem readApplications_varies {input input' : List Token} {callee callee' : Expr}
    {first : OccurrenceId} {rest : Shorter input} {rest' : Shorter input'} {draft draft' : Draft}
    (ahead : Ahead variation rest.1 rest'.1 draft draft')
    (taken : ExprTaken variation first callee callee' draft.nextId) :
    (readApplications input callee rest draft).Varies variation draft.nextId
      (ExprTaken variation first) (readApplications input' callee' rest' draft') := by
  rw [readApplications.eq_def input, readApplications.eq_def input']
  match rest, rest', ahead with
  | ⟨[], _⟩, ⟨[], _⟩, ⟨_, drafts⟩ => exact varies_accept ⟨.nil, drafts⟩ taken
  | ⟨token :: others, shorter⟩, ⟨token' :: others', shorter'⟩, ⟨.cons same texts, drafts⟩ =>
      dsimp only
      rw [Variation.hasMark same, Variation.hasMark same]
      split
      · refine (readArguments_varies ⟨texts, drafts⟩).onward ?_
        intro found found' after after' middle middle' _ arguments ahead
        have inner : after.1.length < others.length := after.2
        exact readApplications_varies ahead
          ⟨taken.1.append arguments.1, .call taken.2 arguments.2.2 arguments.2.1⟩
      split
      · refine (varies_expectFirst ⟨texts, drafts⟩).onward ?_
        rintro name name' after after' middle middle' _ ⟨unchanged, spelled⟩ ahead
        have inner : after.1.length < others.length := after.2
        refine readApplications_varies ahead ⟨?_, .get taken.2 spelled⟩
        rw [unchanged]
        exact taken.1
      · exact varies_accept ⟨.cons same texts, drafts⟩ taken
termination_by rest.1.length * 32
decreasing_by
  all_goals
    simp only [List.length_cons, Shorter.trans]
    omega

theorem readArguments_varies {input input' : List Token} {draft draft' : Draft}
    (ahead : Ahead variation input input' draft draft') :
    (readArguments input draft).Varies variation draft.nextId
      (ArgumentsTaken variation draft.nextId) (readArguments input' draft') := by
  rw [readArguments.eq_def input draft, readArguments.eq_def input' draft']
  match input, input', ahead with
  | [], [], ⟨_, drafts⟩ => exact readArgumentList_varies ⟨.nil, drafts⟩ ⟨.nil, .nil⟩
  | token :: others, token' :: others', ⟨.cons same texts, drafts⟩ =>
      dsimp only
      rw [Variation.hasMark same]
      split
      · exact varies_accept ⟨texts, drafts⟩ ⟨.nil, .nil, same⟩
      · exact readArgumentList_varies ⟨.cons same texts, drafts⟩ ⟨.nil, .nil⟩
termination_by input.length * 32 + 18
decreasing_by
  all_goals
    simp only [List.length_cons, List.length_nil]
    omega

theorem readArgumentList_varies {earlier earlier' : List Expr} {first : OccurrenceId}
    {input input' : List Token} {draft draft' : Draft}
    (ahead : Ahead variation input input' draft draft')
    (taken : Takes Expr.allOccurrences (Expr.AllVary variation) first earlier earlier'
      draft.nextId) :
    (readArgumentList earlier input draft).Varies variation draft.nextId
      (ArgumentsTaken variation first) (readArgumentList earlier' input' draft') := by
  rw [readArgumentList.eq_def earlier input, readArgumentList.eq_def earlier' input']
  have full : maximumArity ≤ earlier'.length ↔ maximumArity ≤ earlier.length := by
    rw [taken.2.length]
  have reported := ahead.drafts.reportIf full .tooManyArguments ahead.texts
  have unchanged := draft.reportIf_nextId (maximumArity ≤ earlier.length)
    ⟨.tooManyArguments, input⟩
  dsimp only
  rw [← unchanged] at taken ⊢
  refine (readExpr_varies ⟨ahead.texts, reported⟩).andThen ?_
  rintro argument argument' ⟨rest, shorter⟩ ⟨rest', shorter'⟩ middle middle' _ found
    ⟨texts, drafts⟩
  have several : Takes Expr.allOccurrences (Expr.AllVary variation) first
      (earlier ++ [argument]) (earlier' ++ [argument']) middle.nextId := by
    refine ⟨?_, taken.2.append (.cons found.2 .nil)⟩
    rw [allOccurrences_append, Expr.allOccurrences, Expr.allOccurrences, List.append_nil]
    exact taken.1.append found.1
  cases texts with
  | nil => exact varies_reject ⟨rfl, .nil⟩ drafts
  | @cons token token' others others' same texts =>
      dsimp only
      rw [Variation.hasMark same, Variation.hasMark same]
      split
      · have smaller : others.length < input.length := by
          simp only [List.length_cons] at shorter
          omega
        exact (readArgumentList_varies ⟨texts, drafts⟩ several).within
      split
      · exact varies_accept ⟨texts, drafts⟩ ⟨several.1, several.2, same⟩
      · exact varies_reject ⟨rfl, .cons same texts⟩ drafts
termination_by input.length * 32 + 17
decreasing_by all_goals omega

theorem readPrimary_varies {input input' : List Token} {draft draft' : Draft}
    (ahead : Ahead variation input input' draft draft') :
    (readPrimary input draft).Varies variation draft.nextId (ExprTaken variation draft.nextId)
      (readPrimary input' draft') := by
  rw [readPrimary.eq_def input draft, readPrimary.eq_def input' draft']
  match input, input', ahead with
  | [], [], ⟨_, drafts⟩ => exact varies_reject ⟨rfl, .nil⟩ drafts
  | token :: others, token' :: others', ⟨.cons same texts, drafts⟩ =>
      dsimp only
      rw [variation.kind same]
      split
      · exact varies_accept ⟨texts, drafts⟩ ⟨.nil, .literal⟩
      · exact varies_accept ⟨texts, drafts⟩ ⟨.nil, .literal⟩
      · exact varies_accept ⟨texts, drafts⟩ ⟨.nil, .literal⟩
      · exact varies_accept ⟨texts, drafts⟩ ⟨.nil, .literal⟩
      · exact varies_accept ⟨texts, drafts⟩ ⟨.nil, .literal⟩
      · exact ⟨Nat.le_succ _, ⟨texts, drafts.afterId⟩, .one, .this drafts.first same⟩
      · exact ⟨Nat.le_succ _, ⟨texts, drafts.afterId⟩, .one, .read drafts.first same⟩
      · exact readSuper_varies same _ _ _ _ rfl ⟨texts, drafts⟩
      · refine (readExpr_varies ⟨texts, drafts⟩).within.andThen ?_
        intro inner inner' rest rest' middle middle' _ taken ahead
        exact varies_expect (fun _ _ _ => varies_pure ⟨taken.1, .group taken.2⟩) _ _ _ _ rfl ahead
      · exact varies_reject ⟨rfl, .cons same texts⟩ drafts
termination_by input.length * 32
decreasing_by
  simp only [List.length_cons]
  omega
end

end Grammar

end Lox
