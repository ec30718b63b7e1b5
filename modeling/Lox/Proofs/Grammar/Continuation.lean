import Lox.Proofs.Grammar.InPlace
/-! Parsing behind a sentence. A sentence is read up to where it ends, and nothing of what
stands behind it counts but an `else`. Whatever is wrong further on, the sentence keeps its
tree, and what is behind it is parsed as it would be alone. -/

namespace Lox

namespace Grammar

variable {tokens left : List Token} {first next : OccurrenceId} {errors : List GrammarError}

/-- A declaration in front of a program is read as the first of its declarations. -/
theorem Declaration.precedes {stmt : Stmt} (declared : Declaration true tokens first stmt next)
    (without : NoElse left) :
    readProgram (tokens ++ left) ⟨first, errors⟩ =
      (stmt :: (readProgram left ⟨next, errors⟩).1, (readProgram left ⟨next, errors⟩).2) := by
  rcases declared.starts with ⟨head, rest, rfl, _⟩
  rcases declared.completes head (rest ++ left) left errors rfl without with ⟨shorter, accepted⟩
  rw [List.cons_append, readProgram, passDeclaration, accepted]
  rfl

theorem Declarations.precede {stmts : List Stmt}
    (several : Declarations true tokens first stmts next) (without : NoElse left) :
    readProgram (tokens ++ left) ⟨first, errors⟩ =
      (stmts ++ (readProgram left ⟨next, errors⟩).1, (readProgram left ⟨next, errors⟩).2) := by
  induction stmts generalizing tokens first with
  | nil =>
      cases several
      rfl
  | cons stmt rest induction =>
      cases several with
      | cons declared others =>
          rw [List.append_assoc, declared.precedes (others.noElse without), induction others]
          rfl

/-- Behind a program that is read without an error another one is read as it is alone. -/
theorem readProgram_behind {firstId : OccurrenceId}
    (clean : (readProgram tokens (.start firstId)).2.errors = []) (without : NoElse left) :
    readProgram (tokens ++ left) (.start firstId) =
      ((readProgram tokens (.start firstId)).1 ++
          (readProgram left (.start (readProgram tokens (.start firstId)).2.nextId)).1,
        (readProgram left (.start (readProgram tokens (.start firstId)).2.nextId)).2) :=
  ((readProgram_tree clean).mpr ⟨rfl, rfl⟩).precede without

end Grammar

open Grammar

theorem sentence_behind {before : List Token} (inside : ∀ token ∈ before, token.isEnd = false)
    (after : List Token) : sentence (before ++ after) = before ++ sentence after :=
  List.takeWhile_append_of_pos (by simpa using inside)

theorem noElse_sentence {after : List Token} (without : NoElse after) :
    NoElse (sentence after) := by
  cases after with
  | nil => exact without
  | cons token others =>
      rw [sentence, List.takeWhile_cons]
      split
      · exact without
      · intro other member
        cases member

/-- Tokens in front that do not end the input change the final token only where nothing
follows. -/
theorem finalToken_behind {before after : List Token}
    (inside : ∀ token ∈ before, token.isEnd = false) (occupied : after ≠ []) :
    finalToken (before ++ after) = finalToken after := by
  have none_before : before.find? Token.isEnd = none := by simpa using inside
  have last : (before ++ after).getLast? = after.getLast? := by
    rw [List.getLast?_append, List.getLast?_eq_some_getLast occupied, Option.some_or]
  rw [finalToken, finalToken, List.find?_append, none_before, Option.none_or,
    List.getLastD_eq_getLast?, last, List.getLastD_eq_getLast?]

section

variable {before after : List Token} {final : Token} {firstId : OccurrenceId}

/-- Where nothing is wrong, parsing in place does not look for the end in vain. -/
theorem parseInPlace_of_clean (inside : ∀ token ∈ before, token.isEnd = false)
    (clean : (readProgram before (.start firstId)).2.errors = []) :
    parseInPlace before firstId =
      some ⟨(readProgram before (.start firstId)).1,
        (readProgram before (.start firstId)).2.nextId, []⟩ := by
  rw [parseInPlace_eq, parse_opened inside, clean, if_neg]
  · rfl
  · exact fun endless => List.not_mem_nil endless.2

/-- The tokens behind a sentence are parsed as they are alone. -/
theorem parse_behind (inside : ∀ token ∈ before, token.isEnd = false)
    (clean : (readProgram before (.start firstId)).2.errors = []) (without : NoElse after)
    (occupied : after ≠ []) :
    let alone := parse after (readProgram before (.start firstId)).2.nextId
    parse (before ++ after) firstId =
      ⟨(readProgram before (.start firstId)).1 ++ alone.statements, alone.nextId, alone.errors,
        alone.final⟩ := by
  intro alone
  rw [parse, sentence_behind inside, finalToken_behind inside occupied,
    readProgram_behind clean (noElse_sentence without)]
  rfl

/-- However malformed the tokens behind a sentence are, it keeps its statements, and they are
parsed as they are alone, from the occurrence number that the sentence leaves: with the same
statements, the same diagnostics and the same next number, and without an end exactly if they
are alone. -/
theorem parse_behind_sentence (inside : ∀ token ∈ before, token.isEnd = false)
    (ended : final.isEnd = true) {statements : List Stmt} {nextId : OccurrenceId}
    (accepted : parseInPlace (before ++ [final]) firstId = some ⟨statements, nextId, []⟩)
    (without : ∀ token ∈ after.head?, token.kind ≠ .keyword .elseWord) :
    parseInPlace (before ++ after) firstId =
      (parseInPlace after nextId).map fun alone =>
        ⟨statements ++ alone.statements, alone.nextId, alone.diagnostics⟩ := by
  rw [parseInPlace_closed inside ended, parse_closed inside ended, Option.some_inj,
    ParseInPlace.mk.injEq] at accepted
  rcases accepted with ⟨rfl, rfl, unreported⟩
  have clean := List.map_eq_nil_iff.mp unreported
  by_cases occupied : after = []
  · subst occupied
    rw [List.append_nil, parseInPlace_of_clean inside clean]
    simp [parseInPlace]
  · rw [parseInPlace_eq (before ++ after), parseInPlace_eq after,
      parse_behind inside clean without occupied]
    -- What makes parsing endless, its errors and its final token, stands behind the sentence.
    rw [apply_ite (Option.map _)]
    rfl

/-- A closing brace that nothing opens is reported behind `nil;` as it is alone. -/
theorem parse_behind_sentence_strayBrace :
    parseInPlace ([⟨.keyword .nilWord, "nil", 1⟩, ⟨.mark .semicolon, ";", 1⟩] ++ [.endOfInput 1])
        7 = some ⟨[.expression (.literal .nil)], 7, []⟩ ∧
      parseInPlace ([⟨.keyword .nilWord, "nil", 1⟩, ⟨.mark .semicolon, ";", 1⟩] ++
          [⟨.mark .rightBrace, "\x7d", 2⟩, .endOfInput 2]) 7 =
        (parseInPlace [⟨.mark .rightBrace, "\x7d", 2⟩, .endOfInput 2] 7).map fun alone =>
          ⟨.expression (.literal .nil) :: alone.statements, alone.nextId, alone.diagnostics⟩ := by
  have inside : ∀ token ∈ ([⟨.keyword .nilWord, "nil", 1⟩, ⟨.mark .semicolon, ";", 1⟩] :
      List Token), token.isEnd = false := by simp [Token.isEnd]
  have derived : Derives .expression [⟨.keyword .nilWord, "nil", 1⟩] 7 (.literal .nil) 7 :=
    .expression_of_primary (.literal rfl)
  have stated : Declaration true [⟨.keyword .nilWord, "nil", 1⟩, ⟨.mark .semicolon, ";", 1⟩] 7
      (.expression (.literal .nil)) 7 := .statement (.expression (.mk derived rfl))
  have read := (Declarations.cons stated .nil).completes.2 []
  rw [List.append_nil] at read
  have accepted : parseInPlace
      ([⟨.keyword .nilWord, "nil", 1⟩, ⟨.mark .semicolon, ";", 1⟩] ++ [.endOfInput 1]) 7 =
        some ⟨[.expression (.literal .nil)], 7, []⟩ := by
    rw [parseInPlace_closed inside rfl, parse_closed inside rfl, Draft.start, read]
    rfl
  exact ⟨accepted, parse_behind_sentence inside rfl accepted (by simp)⟩

end

end Lox
