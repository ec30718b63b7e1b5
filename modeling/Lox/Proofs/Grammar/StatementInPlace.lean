import Lox.Proofs.Grammar.ExpressionInPlace
/-! Statements and programs, read in place. An expression is expected behind the last token of
a row only where that token is a sign, a parenthesis or a word with which no value starts. -/

namespace Lox

namespace Grammar

open Parsed Reading

variable {row : Row} {earlier : List (Blame row)} {input : List Token}

/-! ## Parts of statements -/

theorem expr_follows :
    (Reading.expr : Reading input Expr).Follows earlier row.Awaits AnyRest row.expr :=
  follows_follow fun _ _ suffix awaits => readExpr_follows suffix awaits

theorem expr?_follows (ending : TokenKind) :
    (Reading.expr? ending : Reading input (Option Expr)).Follows earlier row.Awaits AnyRest
      (row.expr? ending) :=
  follows_ifNext (follows_pure _ fun _ _ => trivial)
    (expr_follows.bind fun _ => follows_pure _ fun _ => id)

theorem exprStatement_follows :
    (Reading.exprStatement : Reading input Stmt).Follows earlier row.Awaits row.Awaits
      row.exprStatement :=
  expr_follows.bind fun _ => follows_expect (by simp) rfl fun _ => follows_pure _ fun _ => id

theorem variableEnd_follows {before : List Token → Prop} (name : Token) (initial : Option Expr) :
    (do
      let _ ← Reading.expect (.mark .semicolon) .variableEnd
      return .var name initial : Reading input Stmt).Follows earlier before row.Awaits
      (do
        let _ ← Moving.expect (.mark .semicolon) .variableEnd
        return .var name initial) :=
  follows_expect (by simp) rfl fun _ => follows_pure _ fun _ => id

theorem variableStatement_follows {before : List Token → Prop} :
    (Reading.variableStatement : Reading input Stmt).Follows earlier before row.Awaits
      row.variableStatement :=
  follows_expectName (by simp) fun name =>
    follows_skip rfl (fun _ => (expr_follows.map some).bind (variableEnd_follows name))
      ((follows_pure none fun _ => id).bind (variableEnd_follows name))

theorem printStatement_follows :
    (Reading.printStatement : Reading input Stmt).Follows earlier row.Awaits AnyRest
      row.printStatement :=
  expr_follows.bind fun _ => follows_expect (by simp) rfl fun _ =>
    follows_pure _ fun _ _ => trivial

theorem returnStatement_follows (keyword : Token) :
    (Reading.returnStatement keyword : Reading input Stmt).Follows earlier row.Awaits AnyRest
      (row.returnStatement keyword) :=
  (expr?_follows _).bind fun _ => follows_expect (by simp) rfl fun _ =>
    follows_pure _ fun _ _ => trivial

theorem forInitializer_follows :
    (Reading.forInitializer : Reading input (Option Stmt)).Follows earlier row.Awaits row.Awaits
      row.forInitializer :=
  follows_skip rfl (fun _ => follows_pure _ fun _ => id)
    (follows_skip rfl (fun _ => variableStatement_follows.map _) (exprStatement_follows.map _))

theorem superclass?_follows {before : List Token → Prop} :
    (Reading.superclass? : Reading input (Option Expr)).Follows earlier before AnyRest
      row.superclass? :=
  follows_skip rfl
    (fun _ => follows_expectName (by simp) fun _ => follows_freshId fun _ =>
      follows_pure _ fun _ => id)
    (follows_pure _ fun _ _ => trivial)

theorem readParameterList_follows (before : List Token) {input : List Token} {draft : Draft}
    (suffix : input <:+ row.sentence) :
    (readParameterList before input draft).Follows earlier input draft AnyRest
      (do
        let found ← row.parameterList before
        let _ ← Moving.expect (.mark .rightParen) .parametersEnd
        return found) := by
  rw [readParameterList.eq_def, Row.parameterList.eq_def]
  simp only [bind_assoc]
  refine .looked (.reported rfl suffix ?_)
  simp only [decide_eq_true_eq]
  refine (expectFirst_follows (by simp) suffix).andThen ?_
  rintro parameter ⟨rest, shorter⟩ middle remainder -
  have inside := remainder.trans suffix
  cases rest with
  | nil => exact .kept inside (by simp) (.lacking (by simp) inside (by simp))
  | cons token others =>
      dsimp only
      split
      · rename_i comma
        have smaller : others.length < input.length := by
          simp only [List.length_cons] at shorter
          omega
        have further : (readParameterList (before ++ [parameter]) others middle).Follows earlier
            others middle AnyRest _ :=
          readParameterList_follows (before ++ [parameter]) ((List.suffix_cons ..).trans inside)
        exact .skipped inside ((token.alike_mark _).trans comma) further.within
      rename_i noComma
      refine .keptOther inside (Token.unlike_mark noComma) ?_
      split
      · rename_i closing
        exact .found inside ((token.alike_mark _).trans closing)
          (.done (.drop token others shorter) trivial)
      · exact .lacking (by simp) inside (by simp_all [Token.alike_mark])
termination_by input.length

theorem readParameters_follows {input : List Token} {draft : Draft}
    (suffix : input <:+ row.sentence) :
    (readParameters input draft).Follows earlier input draft AnyRest row.parameters := by
  rw [readParameters.eq_def, Row.parameters]
  refine .looked ?_
  cases input with
  | nil =>
      rw [Cursor.shows_nil, if_neg Bool.false_ne_true]
      exact readParameterList_follows [] suffix
  | cons token others =>
      rw [Cursor.shows_cons suffix, Token.alike_mark]
      dsimp only
      split
      · rename_i closing
        rw [pure_bind]
        exact .found suffix ((token.alike_mark _).trans closing)
          (.done (.tail token others) trivial)
      · exact readParameterList_follows [] suffix

theorem readExpr_nil (draft : Draft) : readExpr [] draft =
    .reject ⟨.missing .expression, []⟩ (Nat.le_refl _) draft := by
  simp [readExpr, readOperation, readOperand, readSigned, readApplied, readPrimary,
    Precedence.tighter?, andThen]

theorem expressionStatement_follows {input : List Token} {draft : Draft}
    (suffix : input <:+ row.sentence) (awaits : row.Awaits input) :
    ((readExpr input draft).andThen fun value => do
      let _ ← Reading.expect (.mark .semicolon) .expressionEnd
      return .expression value).Follows earlier input draft AnyRest row.exprStatement := by
  exact (readExpr_follows suffix awaits).andReading suffix fun _ =>
    follows_expect (by simp) rfl fun _ => follows_pure _ fun _ _ => trivial

end Grammar

/-! ## Recovery -/

/-- A declaration that has been passed is accepted, with or without its statement. -/
def Passed.accepted {input : List Token} (passed : Passed input) :
    Parsed (Option Stmt) input :=
  .accept passed.statement? passed.rest passed.draft

namespace Moving

variable {row : Row} {earlier : List (Blame row)} {α : Type}

/-- Reading that cannot end with an error. -/
def whole (moving : StateT (Cursor row) Option α) : Moving row α :=
  (do return .ok (← moving) : StateT (Cursor row) Option (Except (Blame row) α))

theorem run_whole (moving : StateT (Cursor row) Option α) (cursor : Cursor row) :
    (whole moving).run.run cursor =
      (moving.run cursor).map fun found => (.ok found.1, found.2) := by
  show (moving.run cursor).bind _ = _
  cases moving.run cursor <;> rfl

theorem recovered_follows {first : Token} {others : List Token} {draft : Draft}
    {parsed : Parsed Stmt (first :: others)} {moving : Moving row Stmt}
    (suffix : first :: others <:+ row.sentence)
    (follows : parsed.Follows earlier (first :: others) draft AnyRest moving) :
    parsed.recovered.accepted.Follows earlier (first :: others) draft AnyRest
      (whole (do row.recovered (← moving.run))) := by
  cases parsed with
  | accept statement rest after =>
      refine ⟨follows.passes, trivial, fun free => ?_⟩
      have moved : moving.run.run (row.cursor earlier (first :: others) draft) =
          if row.Stuck after.errors then none
          else some (.ok statement, row.cursor earlier rest.1 after) := follows.yields free
      rw [run_whole]
      show ((moving.run.run _).bind _).map _ = if row.Stuck after.errors then none
        else some (Except.ok (some statement), row.cursor earlier rest.1 after)
      rw [moved]
      split <;> rfl
  | reject error inside after =>
      have place : error.rest <:+ row.sentence := follows.passes.remainder.trans suffix
      refine ⟨follows.passes.trans (.record place), trivial, fun free => ?_⟩
      have moved : moving.run.run (row.cursor earlier (first :: others) draft) =
          if row.Stuck (after.errors ++ [error]) then none
          else some (.error (row.blame error), row.cursor earlier error.rest after) :=
        follows.yields free
      have recovers : ((row.cursor earlier error.rest after).record (row.blame error)).recover =
          row.cursor earlier (recover error.rest) (after.report error) := by
        rw [Cursor.record_cursor, Cursor.recover_cursor place]
      rw [run_whole]
      show ((moving.run.run _).bind _).map _ = if row.Stuck (after.errors ++ [error]) then none
        else some (Except.ok none, row.cursor earlier (recover error.rest) (after.report error))
      rw [moved, ← recovers]
      split <;> rfl

end Moving

namespace Grammar

open Parsed Reading

variable {row : Row} {earlier : List (Blame row)}

/-! ## Constructs -/

theorem unlike_keyword {kind : TokenKind} {word : Keyword} (other : kind ≠ .keyword word) :
    kind.alike (.keyword word) = false :=
  Bool.eq_false_iff.mpr fun alike => other (TokenKind.alike_keyword.mp alike)

mutual
theorem passDeclaration_follows {first : Token} {others : List Token} {draft : Draft}
    (suffix : first :: others <:+ row.sentence) :
    (passDeclaration first others draft).accepted.Follows earlier (first :: others) draft AnyRest
      (Moving.whole row.declaration) := by
  rw [passDeclaration.eq_def, Row.declaration.eq_def]
  exact Moving.recovered_follows suffix (readDeclaration_follows suffix)
termination_by (others.length + 1) * 16 + 6

theorem readDeclaration_follows {first : Token} {others : List Token} {draft : Draft}
    (suffix : first :: others <:+ row.sentence) :
    (readDeclaration first others draft).Follows earlier (first :: others) draft AnyRest
      row.declared := by
  rw [readDeclaration.eq_def, Row.declared.eq_def]
  have inside : others <:+ row.sentence := (List.suffix_cons ..).trans suffix
  dsimp only
  split
  · rename_i kind
    exact .skipped suffix (by rw [kind]; rfl)
      (readClass_follows (first :: others) (.tail first others) draft inside trivial)
  · rename_i kind
    have routine : (readRoutine .function others draft).Follows earlier others draft AnyRest
        (row.routine .function) := readRoutine_follows .function inside
    refine .keptOther suffix (by rw [kind]; rfl) (.skipped suffix (by rw [kind]; rfl) ?_)
    exact routine.within.andReading inside fun _ => follows_pure _ fun _ => id
  · rename_i kind
    refine .keptOther suffix (by rw [kind]; rfl)
      (.keptOther suffix (by rw [kind]; rfl) (.skipped suffix (by rw [kind]; rfl) ?_))
    have variableStatement : (Reading.variableStatement : Reading (first :: others) Stmt).Follows
        earlier AnyRest row.Awaits row.variableStatement := variableStatement_follows
    exact (variableStatement (.tail first others) draft inside trivial).mono fun _ _ => trivial
  · rename_i notClass notFunction notVariable
    exact .keptOther suffix (unlike_keyword notClass)
      (.keptOther suffix (unlike_keyword notFunction)
        (.keptOther suffix (unlike_keyword notVariable)
          (readStatement_follows suffix Row.awaits_cons)))
termination_by (others.length + 1) * 16 + 5

theorem readClass_follows (input : List Token) :
    (readClass input).Follows earlier AnyRest AnyRest row.classDeclaration := by
  rw [readClass.eq_def, Row.classDeclaration.eq_def]
  have methods : (Reading.follow fun rest draft => readMethods rest.1 draft :
      Reading input (List Routine)).Follows earlier row.Awaits AnyRest row.methods :=
    follows_follow fun rest draft suffix _ => by
      have := rest.2
      exact readMethods_follows suffix
  exact follows_expectName (by simp) fun name => superclass?_follows.bind fun superclass =>
    follows_expect (by simp) rfl fun _ => methods.bind fun found => follows_pure _ fun _ => id
termination_by input.length * 16
decreasing_by omega

theorem readMethods_follows {input : List Token} {draft : Draft}
    (suffix : input <:+ row.sentence) :
    (readMethods input draft).Follows earlier input draft AnyRest row.methods := by
  rw [readMethods.eq_def, Row.methods.eq_def]
  refine .looked ?_
  match input, suffix with
  | [], suffix =>
      rw [Cursor.shows_nil, Cursor.atEnd_nil, if_pos (by simp)]
      exact .lacking (by simp) suffix (by simp)
  | token :: others, suffix =>
      rw [Cursor.shows_cons suffix, Cursor.atEnd_cons suffix, Token.alike_mark, Bool.or_false]
      dsimp only
      split
      · rename_i closing
        exact .found suffix ((token.alike_mark _).trans closing)
          (.done (.tail token others) trivial)
      · refine (readRoutine_follows .method suffix).andThen ?_
        intro method rest middle remainder _
        have smaller := rest.2
        have more : (readMethods rest.1 middle).Follows earlier rest.1 middle AnyRest
            row.methods := readMethods_follows (remainder.trans suffix)
        exact more.within.andReading (remainder.trans suffix) fun _ => follows_pure _ fun _ => id
termination_by input.length * 16 + 3
decreasing_by all_goals omega

theorem readRoutine_follows (role : BodyRole) {input : List Token} {draft : Draft}
    (suffix : input <:+ row.sentence) :
    (readRoutine role input draft).Follows earlier input draft AnyRest
      (row.routine role) := by
  rw [readRoutine.eq_def, Row.routine.eq_def]
  have parameters : (Reading.follow fun rest draft => readParameters rest.1 draft :
      Reading input (List Token)).Follows earlier row.Awaits AnyRest row.parameters :=
    follows_follow fun _ _ suffix _ => readParameters_follows suffix
  have block : (Reading.follow fun rest draft => readBlock rest.1 draft :
      Reading input (List Stmt)).Follows earlier row.Awaits AnyRest row.block :=
    follows_follow fun rest draft suffix _ => by
      have := rest.2
      exact readBlock_follows suffix
  exact (expectFirst_follows (by simp) suffix).andReading suffix fun _ =>
    follows_expect (by simp) rfl fun _ => parameters.bind fun _ =>
    follows_expect (by simp) rfl fun _ => block.bind fun _ => follows_pure _ fun _ => id
termination_by input.length * 16 + 2
decreasing_by omega

theorem readBlock_follows {input : List Token} {draft : Draft}
    (suffix : input <:+ row.sentence) :
    (readBlock input draft).Follows earlier input draft AnyRest row.block := by
  rw [readBlock.eq_def, Row.block.eq_def]
  refine .looked ?_
  match input, suffix with
  | [], suffix =>
      rw [Cursor.shows_nil, Cursor.atEnd_nil, if_pos (by simp)]
      exact .lacking (by simp) suffix (by simp)
  | token :: others, suffix =>
      rw [Cursor.shows_cons suffix, Cursor.atEnd_cons suffix, Token.alike_mark, Bool.or_false]
      dsimp only
      split
      · rename_i closing
        exact .found suffix ((token.alike_mark _).trans closing)
          (.done (.tail token others) trivial)
      · have declared : (passDeclaration token others draft).accepted.Follows earlier
            (token :: others) draft AnyRest (Moving.whole row.declaration) :=
          passDeclaration_follows suffix
        generalize passDeclaration token others draft = passed at declared ⊢
        rcases passed with ⟨statement?, rest, middle⟩
        have smaller := rest.2
        have more : (readBlock rest.1 middle).Follows earlier rest.1 middle AnyRest
            row.block := readBlock_follows (declared.passes.remainder.trans suffix)
        exact declared.sequence (more.within.andReading
          (declared.passes.remainder.trans suffix) fun _ => follows_pure _ fun _ => id)
termination_by input.length * 16 + 7
decreasing_by
  · simp only [List.length_cons]
    omega
  · omega

theorem readStatement_follows {input : List Token} {draft : Draft}
    (suffix : input <:+ row.sentence) (awaits : row.Awaits input) :
    (readStatement input draft).Follows earlier input draft AnyRest row.statement := by
  rw [readStatement.eq_def, Row.statement.eq_def]
  match input, suffix, awaits with
  | [], suffix, awaits =>
      have value : ((readExpr [] draft).andThen _).Follows earlier [] draft AnyRest
          row.exprStatement := expressionStatement_follows suffix awaits
      rw [readExpr_nil] at value
      exact .kept suffix (by simp) (.kept suffix (by simp) (.kept suffix (by simp)
        (.kept suffix (by simp) (.kept suffix (by simp) (.kept suffix (by simp) value)))))
  | first :: others, suffix, awaits =>
      have inside : others <:+ row.sentence := (List.suffix_cons ..).trans suffix
      dsimp only
      split
      · rename_i kind
        exact .skipped suffix (by rw [kind]; rfl) (readFor_follows (first :: others)
          (.tail first others) draft inside trivial)
      · rename_i kind
        exact .keptOther suffix (by rw [kind]; rfl) (.skipped suffix (by rw [kind]; rfl)
          (readConditional_follows (first :: others) (.tail first others) draft inside trivial))
      · rename_i kind
        exact .keptOther suffix (by rw [kind]; rfl) (.keptOther suffix (by rw [kind]; rfl)
          (.skipped suffix (by rw [kind]; rfl) (readLoop_follows (first :: others)
            (.tail first others) draft inside trivial)))
      · rename_i kind
        refine .keptOther suffix (by rw [kind]; rfl) (.keptOther suffix (by rw [kind]; rfl)
          (.keptOther suffix (by rw [kind]; rfl) (.skipped suffix (by rw [kind]; rfl) ?_)))
        exact returnStatement_follows first (.tail first others) draft inside
          (Row.awaits_behind suffix (by rw [kind]; rfl))
      · rename_i kind
        refine .keptOther suffix (by rw [kind]; rfl) (.keptOther suffix (by rw [kind]; rfl)
          (.keptOther suffix (by rw [kind]; rfl) (.keptOther suffix (by rw [kind]; rfl)
            (.skipped suffix (by rw [kind]; rfl) ?_))))
        have body : (readBlock others draft).Follows earlier others draft AnyRest row.block :=
          readBlock_follows inside
        exact body.within.andReading inside fun _ => follows_pure _ fun _ => id
      · rename_i kind
        refine .keptOther suffix (by rw [kind]; rfl) (.keptOther suffix (by rw [kind]; rfl)
          (.keptOther suffix (by rw [kind]; rfl) (.keptOther suffix (by rw [kind]; rfl)
            (.keptOther suffix (by rw [kind]; rfl) (.skipped suffix (by rw [kind]; rfl) ?_)))))
        exact printStatement_follows (.tail first others) draft inside
          (Row.awaits_behind suffix (by rw [kind]; rfl))
      · rename_i notFor notIf notWhile notReturn notBlock notPrint
        exact .keptOther suffix (unlike_keyword notFor)
          (.keptOther suffix (unlike_keyword notIf)
            (.keptOther suffix (unlike_keyword notWhile)
              (.keptOther suffix (unlike_keyword notReturn)
                (.keptOther suffix
                  (Token.unlike_mark fun block => notBlock (Token.hasMark_iff.mp block))
                  (.keptOther suffix (unlike_keyword notPrint)
                    (expressionStatement_follows suffix awaits))))))
termination_by input.length * 16 + 4
decreasing_by
  all_goals
    simp only [List.length_cons]
    omega

theorem readFor_follows (input : List Token) :
    (readFor input).Follows earlier AnyRest AnyRest row.forStatement := by
  rw [readFor.eq_def, Row.forStatement.eq_def]
  have body : (Reading.follow fun rest draft => readStatement rest.1 draft :
      Reading input Stmt).Follows earlier row.Awaits AnyRest row.statement :=
    follows_follow fun rest draft suffix awaits => by
      have := rest.2
      exact readStatement_follows suffix awaits
  exact follows_expect (by simp) rfl fun _ => forInitializer_follows.bind fun _ =>
    (expr?_follows _).bind fun _ => follows_expect (by simp) rfl fun _ =>
    (expr?_follows _).bind fun _ => follows_expect (by simp) rfl fun _ =>
    body.bind fun _ => follows_pure _ fun _ => id
termination_by input.length * 16
decreasing_by omega

theorem readConditional_follows (input : List Token) :
    (readConditional input).Follows earlier AnyRest AnyRest row.conditional := by
  rw [readConditional.eq_def, Row.conditional.eq_def]
  have branch : (Reading.follow fun rest draft => readStatement rest.1 draft :
      Reading input Stmt).Follows earlier row.Awaits AnyRest row.statement :=
    follows_follow fun rest draft suffix awaits => by
      have := rest.2
      exact readStatement_follows suffix awaits
  exact follows_expect (by simp) rfl fun _ => expr_follows.bind fun _ =>
    follows_expect (by simp) rfl fun _ => branch.bind fun _ =>
    follows_skip rfl (fun _ => branch.bind fun _ => follows_pure _ fun _ => id)
      (follows_pure _ fun _ => id)
termination_by input.length * 16
decreasing_by omega

theorem readLoop_follows (input : List Token) :
    (readLoop input).Follows earlier AnyRest AnyRest row.loop := by
  rw [readLoop.eq_def, Row.loop.eq_def]
  have body : (Reading.follow fun rest draft => readStatement rest.1 draft :
      Reading input Stmt).Follows earlier row.Awaits AnyRest row.statement :=
    follows_follow fun rest draft suffix awaits => by
      have := rest.2
      exact readStatement_follows suffix awaits
  exact follows_expect (by simp) rfl fun _ => expr_follows.bind fun _ =>
    follows_expect (by simp) rfl fun _ => body.bind fun _ => follows_pure _ fun _ => id
termination_by input.length * 16
decreasing_by omega
end

/-! ## Programs -/

theorem passDeclaration_passes {first : Token} {others : List Token} {draft : Draft}
    (suffix : first :: others <:+ row.sentence) :
    Passes row.sentence (first :: others) draft (passDeclaration first others draft).rest.1
      (passDeclaration first others draft).draft :=
  (@passDeclaration_follows row [] first others draft suffix).passes

theorem declaration_yields {first : Token} {others : List Token} {draft : Draft}
    (suffix : first :: others <:+ row.sentence) :
    row.Yields draft.errors (passDeclaration first others draft).draft.errors
      (row.declaration (row.cursor earlier (first :: others) draft))
      ((passDeclaration first others draft).statement?,
        row.cursor earlier (passDeclaration first others draft).rest.1
          (passDeclaration first others draft).draft) := by
  intro free
  have passes : (passDeclaration first others draft).accepted.Follows earlier (first :: others)
      draft AnyRest (Moving.whole row.declaration) := passDeclaration_follows suffix
  have follows := passes.yields free
  rw [Moving.run_whole] at follows
  generalize passDeclaration first others draft = passed at follows ⊢
  by_cases stuck : row.Stuck passed.draft.errors
  · rw [if_pos stuck]
    exact Option.map_eq_none_iff.mp (follows.trans (if_pos stuck))
  · rw [if_neg stuck]
    rcases Option.map_eq_some_iff.mp (follows.trans (if_neg stuck)) with ⟨found, moved, same⟩
    rcases found with ⟨statement?, after⟩
    cases same
    exact moved

theorem program_nil (draft : Draft) :
    row.program (row.cursor earlier [] draft) = some ([], row.cursor earlier [] draft) := by
  refine (congrFun (Row.program.eq_def row) _).trans ?_
  show (if (row.cursor earlier [] draft).atEnd then _ else _ :
    StateT (Cursor row) Option (List Stmt)).run _ = _
  rw [if_pos Cursor.atEnd_nil]
  rfl

theorem program_cons {first : Token} {others : List Token} {draft : Draft}
    (suffix : first :: others <:+ row.sentence) :
    row.program (row.cursor earlier (first :: others) draft) =
      (row.declaration (row.cursor earlier (first :: others) draft)).bind fun passed =>
        (row.program passed.2).map fun more => (passed.1.toList ++ more.1, more.2) := by
  refine (congrFun (Row.program.eq_def row) _).trans ?_
  show (if (row.cursor earlier (first :: others) draft).atEnd then _ else _ :
    StateT (Cursor row) Option (List Stmt)).run _ = _
  rw [if_neg (by simp [Cursor.atEnd_cons suffix])]
  show (row.declaration (row.cursor earlier (first :: others) draft)).bind _ = _
  cases row.declaration (row.cursor earlier (first :: others) draft) with
  | none => rfl
  | some passed =>
      show (row.program passed.2).bind _ = (row.program passed.2).map _
      cases row.program passed.2 <;> rfl

/-- Reading declarations in place up to the end does what reading them from the list does. -/
structure ProgramFollows {row : Row} (earlier : List (Blame row)) (input : List Token)
    (draft : Draft) : Prop where
  passes : Passes row.sentence input draft [] (readProgram input draft).2
  yields : row.Yields draft.errors (readProgram input draft).2.errors
    (row.program (row.cursor earlier input draft))
    ((readProgram input draft).1, row.cursor earlier [] (readProgram input draft).2)

theorem readProgram_follows {input : List Token} {draft : Draft}
    (suffix : input <:+ row.sentence) : ProgramFollows earlier input draft := by
  match input, suffix with
  | [], _ =>
      have nothing : readProgram [] draft = ([], draft) := by rw [readProgram]
      refine ⟨by rw [nothing]; exact .refl, fun free => ?_⟩
      rw [nothing]
      exact (program_nil draft).trans (if_neg free).symm
  | first :: others, suffix =>
      have declared := @passDeclaration_passes row first others draft suffix
      have found := @declaration_yields row earlier first others draft suffix
      generalize passing : passDeclaration first others draft = passed at declared found
      rcases passed with ⟨statement?, rest, middle⟩
      have smaller := rest.2
      have more : ProgramFollows earlier rest.1 middle :=
        readProgram_follows (declared.remainder.trans suffix)
      have several : readProgram (first :: others) draft =
          (statement?.toList ++ (readProgram rest.1 middle).1, (readProgram rest.1 middle).2) := by
        rw [readProgram, passing]
      refine ⟨by rw [several]; exact declared.trans more.passes, fun free => ?_⟩
      rw [several, program_cons suffix, found free]
      by_cases stuck : row.Stuck middle.errors
      · rw [if_pos stuck, if_pos (stuck.mono more.passes.subset)]
        rfl
      · rw [if_neg stuck]
        show (row.program (row.cursor earlier rest.1 middle)).map _ = _
        rw [more.yields stuck]
        split <;> rfl
termination_by input.length
decreasing_by exact smaller

end Grammar

end Lox
