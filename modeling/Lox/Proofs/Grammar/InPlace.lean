import Lox.Proofs.Grammar.Sentence
import Lox.Proofs.Grammar.StatementInPlace
/-! Parsing any list of tokens. Where a token ends the input, parsing ends there and is
parsing of the sentence in front of it. Where none does, parsing does the same and blames the
last token instead, unless that token is an opening parenthesis behind which an expression is
expected: then parsing never ends. -/

namespace Lox

theorem Token.not_hasMark_of_isEnd {token : Token} (ended : token.isEnd = true) (mark : Mark) :
    ¬ token.hasMark mark = true := by
  intro marked
  rw [Token.hasMark_iff] at marked
  simp [Token.isEnd, marked] at ended

/-! ## Rows and lists -/

namespace Row

variable {row : Row}

theorem start_eq (firstId : OccurrenceId) :
    Cursor.start row firstId = row.cursor [] row.sentence (.start firstId) := by
  simp [Cursor.start, cursor, Draft.start]

theorem program_follows (row : Row) (firstId : OccurrenceId) :
    @Grammar.ProgramFollows row [] row.sentence (.start firstId) :=
  Grammar.readProgram_follows (List.suffix_refl row.sentence)

theorem read_eq (firstId : OccurrenceId) :
    row.read firstId =
      if row.Stuck (readProgram row.sentence (.start firstId)).2.errors then none
      else some ((readProgram row.sentence (.start firstId)).1,
        row.cursor [] [] (readProgram row.sentence (.start firstId)).2) := by
  rw [Row.read, start_eq]
  exact (row.program_follows firstId).yields (by simp [Stuck, Draft.start])

/-- The errors of a program are found further on each time, those behind which it can be read
on apart. -/
theorem foundBetween (row : Row) (firstId : OccurrenceId) :
    FoundBetween row.sentence row.sentence []
      (readProgram row.sentence (.start firstId)).2.errors := by
  rcases (row.program_follows firstId).passes.errors with ⟨found, errors, between⟩
  rw [errors]
  exact between

theorem not_stuck_of_isEnd (ended : row.final.isEnd = true) (errors : List GrammarError) :
    ¬ row.Stuck errors :=
  fun stuck => Token.not_hasMark_of_isEnd ended _ stuck.1

/-- An error is blamed on the token in front of which it is found. -/
theorem diagnostic_blame {error : GrammarError} (inside : error.rest <:+ row.sentence) :
    (row.blame error).diagnostic = .grammar error.fault (error.rest.headD row.final) := by
  rcases error with ⟨fault, rest⟩
  cases rest with
  | nil => rfl
  | cons token others =>
      simp only [Blame.diagnostic, blame, getElem_placeOf inside, List.headD_cons]

end Row

/-- Parsing these tokens in place never ends: an expression is missing at the end, and the
last token is an opening parenthesis. -/
def Parse.Endless (parse : Parse) : Prop :=
  parse.final.hasMark .leftParen = true ∧ ⟨.missing .expression, []⟩ ∈ parse.errors

instance (parse : Parse) : Decidable parse.Endless :=
  inferInstanceAs (Decidable (_ ∧ _))

theorem parse_nil (firstId : OccurrenceId) :
    parse [] firstId = ⟨[], firstId, [], .endOfInput 1⟩ := by
  simp [parse, sentence, readProgram, Draft.start, finalToken]

/-- Every error is found in front of tokens of the sentence. -/
theorem suffix_of_mem_errors {tokens : List Token} {firstId : OccurrenceId} {error : GrammarError}
    (member : error ∈ (parse tokens firstId).errors) : error.rest <:+ sentence tokens := by
  by_cases occupied : tokens = []
  · subst occupied
    simp [parse_nil] at member
  · exact ((Row.ofList tokens occupied).foundBetween firstId).inside error member

/-- Parsing in place is parsing, or it never ends. -/
theorem parseInPlace_eq (tokens : List Token) (firstId : OccurrenceId) :
    parseInPlace tokens firstId =
      if (parse tokens firstId).Endless then none
      else some ⟨(parse tokens firstId).statements, (parse tokens firstId).nextId,
        (parse tokens firstId).diagnostics⟩ := by
  by_cases occupied : tokens = []
  · subst occupied
    simp [parseInPlace, parse_nil, Parse.Endless, Parse.diagnostics]
  · have final : (parse tokens firstId).final = (Row.ofList tokens occupied).final :=
      (Row.ofList tokens occupied).final_eq.symm
    have diagnostics : ((readProgram (sentence tokens) (.start firstId)).2.errors.map
        (Row.ofList tokens occupied).blame).map Blame.diagnostic =
          (parse tokens firstId).diagnostics := by
      rw [List.map_map, Parse.diagnostics]
      refine List.map_congr_left fun error member => ?_
      rw [Parse.blamed, final]
      exact Row.diagnostic_blame (suffix_of_mem_errors member)
    have endless : (parse tokens firstId).Endless ↔
        (Row.ofList tokens occupied).Stuck (parse tokens firstId).errors := by
      rw [Parse.Endless, Row.Stuck, final]
    rw [parseInPlace, dif_pos occupied, Row.read_eq, ← diagnostics]
    by_cases stuck : (Row.ofList tokens occupied).Stuck (parse tokens firstId).errors
    · rw [if_pos (endless.mpr stuck)]
      exact congrArg (Option.map _) (if_pos stuck)
    · rw [if_neg (mt endless.mp stuck)]
      exact congrArg (Option.map _) (if_neg stuck)

/-! ## Tokens that end the input -/

section

variable {before others : List Token} {final : Token}

theorem finalToken_closed (inside : ∀ token ∈ before, token.isEnd = false)
    (ended : final.isEnd = true) : finalToken (before ++ final :: others) = final := by
  have none_before : before.find? Token.isEnd = none := by simpa using inside
  rw [finalToken, List.find?_append, none_before]
  simp [ended]

theorem parse_closed (inside : ∀ token ∈ before, token.isEnd = false)
    (ended : final.isEnd = true) (firstId : OccurrenceId) :
    parse (before ++ final :: others) firstId =
      ⟨(readProgram before (.start firstId)).1, (readProgram before (.start firstId)).2.nextId,
        (readProgram before (.start firstId)).2.errors, final⟩ := by
  rw [parse, Grammar.sentence_closed inside ended, finalToken_closed inside ended]

theorem parse_opened (inside : ∀ token ∈ before, token.isEnd = false) (firstId : OccurrenceId) :
    parse before firstId =
      ⟨(readProgram before (.start firstId)).1, (readProgram before (.start firstId)).2.nextId,
        (readProgram before (.start firstId)).2.errors, before.getLastD (.endOfInput 1)⟩ := by
  have whole : sentence before = before := List.takeWhile_eq_self_iff.mpr (by simpa using inside)
  have last : finalToken before = before.getLastD (.endOfInput 1) := by
    have none_before : before.find? Token.isEnd = none := by simpa using inside
    rw [finalToken, none_before, Option.getD_none]
  rw [parse, whole, last]

/-- Where a token ends the input, parsing in place is parsing. -/
theorem parseInPlace_closed (inside : ∀ token ∈ before, token.isEnd = false)
    (ended : final.isEnd = true) (firstId : OccurrenceId) :
    parseInPlace (before ++ final :: others) firstId =
      some ⟨(parse (before ++ final :: others) firstId).statements,
        (parse (before ++ final :: others) firstId).nextId,
        (parse (before ++ final :: others) firstId).diagnostics⟩ := by
  rw [parseInPlace_eq, if_neg]
  rw [parse_closed inside ended]
  exact fun endless => Token.not_hasMark_of_isEnd ended _ endless.1

end

/-! ## Tokens that do not end the input -/

/-- The same fault, blamed on this token if it was blamed on the end of the input. -/
def Diagnostic.relocate (last : Token) : Diagnostic → Diagnostic
  | .grammar fault blamed => .grammar fault (if blamed.isEnd then last else blamed)
  | other => other

section

variable {tokens : List Token} {final : Token}

theorem relocate_blamed (inside : ∀ token ∈ tokens, token.isEnd = false)
    (ended : final.isEnd = true) {error : GrammarError} (found : error.rest <:+ tokens)
    (last : Token) :
    Diagnostic.relocate last (.grammar error.fault (error.rest.headD final)) =
      .grammar error.fault (error.rest.headD last) := by
  rcases error with ⟨fault, rest⟩
  cases rest with
  | nil => simp [Diagnostic.relocate, ended]
  | cons token others =>
      have plain := inside token (found.subset List.mem_cons_self)
      simp [Diagnostic.relocate, plain]

/-- Only the end of the input is blamed on the token that ends it. -/
theorem rest_eq_nil_of_blamed (inside : ∀ token ∈ tokens, token.isEnd = false)
    (ended : final.isEnd = true) {error : GrammarError} (found : error.rest <:+ tokens)
    (blamed : error.rest.headD final = final) : error.rest = [] := by
  rcases error with ⟨fault, rest⟩
  cases rest with
  | nil => rfl
  | cons token others =>
      have plain := inside token (found.subset List.mem_cons_self)
      rw [List.headD_cons] at blamed
      rw [blamed, ended] at plain
      cases plain

/-- The errors of the tokens alone are those in front of a token that ends them. -/
theorem suffix_of_mem_program (inside : ∀ token ∈ tokens, token.isEnd = false)
    {firstId : OccurrenceId} {error : GrammarError}
    (member : error ∈ (readProgram tokens (.start firstId)).2.errors) :
    error.rest <:+ tokens := by
  have suffix := @suffix_of_mem_errors (tokens ++ [.endOfInput 1]) firstId error
  rw [parse_closed inside rfl, Grammar.sentence_closed inside rfl] at suffix
  exact suffix member

/-- Parsing that never ends, told from the diagnostics behind a token that ends the input. -/
theorem endless_iff (inside : ∀ token ∈ tokens, token.isEnd = false) (ended : final.isEnd = true)
    (firstId : OccurrenceId) :
    (parse tokens firstId).Endless ↔
      (∃ last ∈ tokens.getLast?, last.hasMark .leftParen = true) ∧
        .grammar (.missing .expression) final ∈ (parse (tokens ++ [final]) firstId).diagnostics := by
  have opening : (tokens.getLastD (.endOfInput 1)).hasMark .leftParen = true ↔
      ∃ last ∈ tokens.getLast?, last.hasMark .leftParen = true := by
    rw [List.getLastD_eq_getLast?]
    cases tokens.getLast? with
    | none => simp [Token.hasMark, Token.endOfInput]
    | some last => simp
  rw [parse_closed inside ended, parse_opened inside, Parse.Endless, opening, Parse.diagnostics,
    List.mem_map]
  refine and_congr_right fun _ => ⟨fun member => ⟨_, member, rfl⟩, ?_⟩
  rintro ⟨error, member, same⟩
  rcases Diagnostic.grammar.inj same with ⟨fault, blamed⟩
  have rest := rest_eq_nil_of_blamed inside ended (suffix_of_mem_program inside member) blamed
  rcases error with ⟨_, _⟩
  cases fault
  cases rest
  exact member

theorem diagnostics_opened (inside : ∀ token ∈ tokens, token.isEnd = false)
    (ended : final.isEnd = true) (firstId : OccurrenceId) {last : Token}
    (lastToken : last ∈ tokens.getLast?) :
    (parse tokens firstId).diagnostics =
      (parse (tokens ++ [final]) firstId).diagnostics.map (Diagnostic.relocate last) := by
  have known : tokens.getLastD (.endOfInput 1) = last := by
    rw [List.getLastD_eq_getLast?, Option.mem_def.mp lastToken, Option.getD_some]
  rw [parse_closed inside ended, parse_opened inside, known, Parse.diagnostics, Parse.diagnostics,
    List.map_map]
  refine List.map_congr_left fun error member => ?_
  exact (relocate_blamed inside ended (suffix_of_mem_program inside member) last).symm

end

/-- The end of the input is found without a token for it, except behind an opening parenthesis
at which an expression is missing: there parsing never ends. Otherwise only the errors at the
end are blamed on another token. -/
theorem parse_without_end {tokens : List Token} {final : Token} (firstId : OccurrenceId)
    (inside : ∀ token ∈ tokens, token.isEnd = false) (ended : final.isEnd = true) :
    ∃ closed, parseInPlace (tokens ++ [final]) firstId = some closed ∧
      if (∃ last ∈ tokens.getLast?, last.hasMark .leftParen = true) ∧
          .grammar (.missing .expression) final ∈ closed.diagnostics then
        parseInPlace tokens firstId = none
      else
        ∃ opened, parseInPlace tokens firstId = some opened ∧
          opened.statements = closed.statements ∧ opened.nextId = closed.nextId ∧
          opened.diagnostics.map Diagnostic.message = closed.diagnostics.map Diagnostic.message ∧
          ∀ last ∈ tokens.getLast?,
            opened.diagnostics = closed.diagnostics.map (Diagnostic.relocate last) := by
  refine ⟨_, parseInPlace_closed inside ended firstId, ?_⟩
  rw [parseInPlace_eq tokens]
  have endless := endless_iff inside ended firstId
  by_cases trapped : (parse tokens firstId).Endless
  · rw [if_pos (endless.mp trapped), if_pos trapped]
  · rw [if_neg (mt endless.mpr trapped), if_neg trapped]
    refine ⟨_, rfl, ?_, ?_, ?_, fun last member => diagnostics_opened inside ended firstId member⟩
    · rw [parse_closed inside ended, parse_opened inside]
    · rw [parse_closed inside ended, parse_opened inside]
    · rw [parse_closed inside ended, parse_opened inside, Parse.diagnostics, Parse.diagnostics,
        List.map_map, List.map_map]
      rfl

/-- Behind a single opening parenthesis parsing never ends. -/
theorem parse_without_end_parenthesis :
    (∀ token ∈ [(⟨.mark .leftParen, "(", 1⟩ : Token)], token.isEnd = false) ∧
      (Token.endOfInput 1).isEnd = true ∧
      parseInPlace [⟨.mark .leftParen, "(", 1⟩] 0 = none := by
  have inside : ∀ token ∈ [(⟨.mark .leftParen, "(", 1⟩ : Token)], token.isEnd = false := by
    simp [Token.isEnd]
  rcases parse_without_end 0 inside (rfl : (Token.endOfInput 1).isEnd = true) with
    ⟨closed, found, result⟩
  rw [parseInPlace_closed inside rfl] at found
  cases found
  have missing : (parse ([⟨.mark .leftParen, "(", 1⟩] ++ [.endOfInput 1]) 0).diagnostics =
      [.grammar (.missing .expression) (.endOfInput 1)] := by decide +kernel
  rw [if_pos ⟨⟨_, rfl, rfl⟩, by rw [missing]; exact List.mem_singleton.mpr rfl⟩] at result
  exact ⟨inside, rfl, result⟩

/-! ## Progress -/

section

variable {row : Row}

theorem Cursor.eq_cursor (cursor : Cursor row) (inside : cursor.position ≤ row.sentence.length) :
    cursor = row.cursor cursor.errors (row.sentence.drop cursor.position)
      ⟨cursor.nextId, []⟩ := by
  have position : row.sentence.length - (row.sentence.length - cursor.position) =
      cursor.position := by omega
  simp [Row.cursor, position]

/-- In front of the end a declaration takes at least one token, whether it can be read or
not. -/
theorem declaration_advances (ended : row.final.isEnd = true) (cursor : Cursor row)
    (ahead : cursor.position < row.sentence.length) :
    ∃ statement? after, row.declaration cursor = some (statement?, after) ∧
      cursor.position < after.position ∧ after.position ≤ row.sentence.length := by
  have split := List.drop_eq_getElem_cons ahead
  generalize row.sentence[cursor.position] = first at split
  generalize row.sentence.drop (cursor.position + 1) = others at split
  have suffix : first :: others <:+ row.sentence := split ▸ List.drop_suffix ..
  have here : cursor = row.cursor cursor.errors (first :: others) ⟨cursor.nextId, []⟩ :=
    split ▸ cursor.eq_cursor (Nat.le_of_lt ahead)
  have length : row.sentence.length - cursor.position = others.length + 1 := by
    rw [← List.length_cons, ← split, List.length_drop]
  have yields := @Grammar.declaration_yields row cursor.errors first others ⟨cursor.nextId, []⟩
    suffix (by simp [Row.Stuck])
  rw [← here, if_neg (row.not_stuck_of_isEnd ended _)] at yields
  have shorter := (passDeclaration first others ⟨cursor.nextId, []⟩).rest.2
  refine ⟨_, _, yields, ?_, Nat.sub_le ..⟩
  simp only [Cursor.position_cursor, List.length_cons] at shorter ⊢
  omega

/-- In a row with a token that ends the input, the places in front of it are those of the
sentence. -/
theorem Row.placeOf_closed (closed : row.sentence.length < row.tokens.size) (rest : List Token) :
    (row.placeOf rest).val = row.sentence.length - rest.length := by
  simp only [placeOf]
  omega

/-- The errors that end declarations are blamed on places further on each time, up to the
end. -/
theorem pairwise_blames (closed : row.sentence.length < row.tokens.size)
    {errors : List GrammarError} {start left : List Token}
    (between : FoundBetween row.sentence start left errors) :
    ((errors.map row.blame).filter (!·.fault.isReportOnly)).Pairwise fun error later =>
      later.place.val < row.sentence.length → error.place.val < later.place.val := by
  rw [List.pairwise_filter, List.pairwise_map]
  refine between.ordered.imp_of_mem ?_
  intro error later member _ further aborts aborts' before
  have inside := (between.inside error member).length_le
  rw [Row.blame, Row.placeOf_closed closed] at before ⊢
  rw [Row.blame, Row.placeOf_closed closed]
  rcases further (by simpa [GrammarError.Aborts, Row.blame] using aborts)
    (by simpa [GrammarError.Aborts, Row.blame] using aborts') with shorter | nothing
  · omega
  · rw [nothing, List.length_nil] at before
    omega

end

/-- Where a token ends the input, however the tokens in front of it go wrong, reading stops at
its place and what stands behind it does not count. Each declaration that starts in front of
it takes a token. The errors that end declarations are blamed on one place after the other;
only the last place, that of the end, may be blamed again. -/
theorem reading_advances {before others : List Token} {final : Token} (firstId : OccurrenceId)
    (inside : ∀ token ∈ before, token.isEnd = false) (ended : final.isEnd = true)
    {row : Row} (tokens : row.tokens.toList = before ++ final :: others) :
    (∃ statements after, row.read firstId = some (statements, after) ∧
      after.position = before.length ∧
      (∀ error ∈ after.errors, error.place.val ≤ before.length) ∧
      (after.errors.filter (!·.fault.isReportOnly)).Pairwise fun error later =>
        later.place.val < before.length → error.place.val < later.place.val) ∧
    parseInPlace (before ++ final :: others) firstId =
      parseInPlace (before ++ [final]) firstId ∧
    ∀ cursor : Cursor row, cursor.position < before.length →
      ∃ statement? after, row.declaration cursor = some (statement?, after) ∧
        cursor.position < after.position ∧ after.position ≤ before.length := by
  have whole : row.sentence = before := by
    rw [Row.sentence, tokens, Grammar.sentence_closed inside ended]
  have last : row.final.isEnd = true := by
    rw [Row.final_eq, tokens, finalToken_closed inside ended, ended]
  have closed : row.sentence.length < row.tokens.size := by
    have size := congrArg List.length tokens
    simp only [Array.length_toList, List.length_append, List.length_cons] at size
    rw [whole]
    omega
  refine ⟨?_, ?_, ?_⟩
  · have between := row.foundBetween firstId
    refine ⟨_, _, by rw [Row.read_eq, if_neg (row.not_stuck_of_isEnd last _)], ?_, ?_, ?_⟩
    · simp [whole]
    · intro error member
      rcases List.mem_map.mp member with ⟨found, _, rfl⟩
      rw [Row.blame, Row.placeOf_closed closed, whole]
      exact Nat.sub_le ..
    · simpa [whole, Row.cursor] using pairwise_blames closed between
  · rw [parseInPlace_closed inside ended, parseInPlace_closed inside ended,
      parse_closed inside ended, parse_closed inside ended]
  · rw [← whole]
    exact declaration_advances last

/-- A closing brace, with which nothing starts, in front of the end, and a parenthesis behind
it. -/
def strayBrace : Row :=
  .ofList [⟨.mark .rightBrace, "\x7d", 1⟩, .endOfInput 1, ⟨.mark .leftParen, "(", 1⟩] (by simp)

theorem reading_advances_strayBrace :
    (∀ token ∈ [(⟨.mark .rightBrace, "\x7d", 1⟩ : Token)], token.isEnd = false) ∧
      (Token.endOfInput 1).isEnd = true ∧
      strayBrace.tokens.toList =
        [⟨.mark .rightBrace, "\x7d", 1⟩] ++ .endOfInput 1 :: [⟨.mark .leftParen, "(", 1⟩] ∧
      ∃ (statements : List Stmt) (after : Cursor strayBrace),
        strayBrace.read 0 = some (statements, after) ∧ after.position = 1 := by
  have inside : ∀ token ∈ [(⟨.mark .rightBrace, "\x7d", 1⟩ : Token)], token.isEnd = false := by
    simp [Token.isEnd]
  have tokens : strayBrace.tokens.toList =
      [⟨.mark .rightBrace, "\x7d", 1⟩] ++ .endOfInput 1 :: [⟨.mark .leftParen, "(", 1⟩] := rfl
  rcases reading_advances 0 inside rfl tokens with ⟨⟨statements, after, read, position, _⟩, _⟩
  exact ⟨inside, rfl, tokens, statements, after, read, position⟩

end Lox
