import Lox.Proofs.Grammar.InPlace
import Lox.Proofs.Grammar.StatementGuidance
/-! Syntax errors are reported at the earliest token. Those errors apart after which a sentence
is read on, there is one exactly when the tokens form no sentence of the grammar without its
limits, and the first one is blamed on the first token with which no sentence goes on. -/

namespace Lox

namespace Grammar

/-! ## Programs -/

theorem Step.suffix {before after : Prospect} (step : Step before after) :
    after.2 <:+ before.2 := by
  cases step with
  | token _ => exact List.suffix_cons ..
  | rule | seq | first _ | second _ | present _ | absent _ | more _ | none _ =>
      exact List.suffix_refl _

theorem Leads.suffix {before after : Prospect} (leads : Leads before after) :
    after.2 <:+ before.2 := by
  induction leads with
  | refl => exact List.suffix_refl _
  | tail _ step suffix => exact step.suffix.trans suffix

/-- Declarations up to the token that ends the input. -/
def wholeProgram : List Pattern :=
  [.many (.rule .declaration), .token [.endOfInput]]

/-- What comes of reading a program, with these errors. -/
inductive ProgramGuided (input : List Token) (found : List GrammarError) : Prop
  | takes : firstAborting found = none →
      Leads (wholeProgram, input) ([.token [.endOfInput]], []) → ProgramGuided input found
  | halts {error left} : firstAborting found = some error →
      Leads (wholeProgram, input) (left, error.rest) → Bars (ahead error.rest) left →
      ProgramGuided input found

theorem bars_end {token : Token} (plain : token.isEnd = false) :
    Bars token.kind [.token [.endOfInput]] := by
  show token.kind.among [.endOfInput] = false
  rw [TokenKind.among_singleton]
  cases kind : token.kind <;> simp_all [Token.isEnd, TokenKind.alike]

theorem readProgram_guided {input : List Token} {draft : Draft} :
    ∃ found, (readProgram input draft).2.errors = draft.errors ++ found ∧
      ((∀ token ∈ input, token.isEnd = false) → ProgramGuided input found) := by
  cases input with
  | nil =>
      rw [readProgram]
      exact ⟨[], (List.append_nil _).symm, fun _ => .takes rfl (.single (.none rfl))⟩
  | cons first others =>
      have declared : (passDeclaration first others draft).accepted.Guided [.rule .declaration]
          (first :: others) draft := passDeclaration_guided
      generalize passing : passDeclaration first others draft = passed at declared
      rcases passed with ⟨statement?, rest, middle⟩
      have smaller := rest.2
      have several : (readProgram (first :: others) draft).2 = (readProgram rest.1 middle).2 := by
        rw [readProgram, passing]
      rcases @readProgram_guided rest.1 middle with ⟨later, errors', guided⟩
      rw [several]
      have starts : first.isEnd = false → Leads (wholeProgram, first :: others)
          (.rule .declaration :: wholeProgram, first :: others) :=
        fun plain => .single (.more (.inr (bars_end plain)))
      cases declared with
      | @takes _ _ _ found errors clean leads =>
          refine ⟨found ++ later, by rw [errors', errors, List.append_assoc], fun inside => ?_⟩
          have way := (starts (inside first List.mem_cons_self)).trans leads.append
          have same : firstAborting (found ++ later) = firstAborting later := by
            rw [firstAborting_append, clean, Option.none_or]
          cases guided fun token member => inside token (leads.suffix.subset member) with
          | takes clean leads => exact .takes (same.trans clean) (way.trans leads)
          | halts aborts leads bars => exact .halts (same.trans aborts) (way.trans leads) bars
      | @halts _ found error left errors aborts leads bars =>
          have errors : middle.errors = draft.errors ++ found := errors
          refine ⟨found ++ later, by rw [errors', errors, List.append_assoc], fun inside => ?_⟩
          have way := (starts (inside first List.mem_cons_self)).trans leads.append
          refine .halts ?_ way bars.append
          rw [firstAborting_append, aborts, Option.some_or]
termination_by input.length
decreasing_by exact smaller

/-! ## Sentences -/

theorem fits_program : Fits [.rule .program] :=
  ⟨rfl, fun _ among _ => (Bool.false_ne_true among).elim, trivial⟩

theorem leads_program {tokens : List Token} :
    Leads ([.rule .program], tokens) (wholeProgram, tokens) :=
  .head .rule (.single .seq)

section

variable {before : List Token} {final : Token} {found : List GrammarError}

theorem kind_of_isEnd (ended : final.isEnd = true) : final.kind = .endOfInput := by
  cases kind : final.kind <;> simp_all [Token.isEnd]

/-- In front of the token that ends the input, the tokens that are left show what they show
with it. -/
theorem ahead_closed (ended : final.isEnd = true) (rest : List Token) :
    ahead (rest ++ [final]) = ahead rest := by
  cases rest with
  | nil => exact kind_of_isEnd ended
  | cons token rest => rfl

theorem ProgramGuided.sentence (ended : final.isEnd = true) (guided : ProgramGuided before found)
    (clean : firstAborting found = none) : LooseSentence (before ++ [final]) := by
  cases guided with
  | takes _ leads =>
      rcases Leads.exact (leads_program.trans leads) fits_program with ⟨_, taken, exactly⟩
      have tokens : before = taken := exactly.tokens.trans (List.append_nil taken)
      refine yields_singleton.mp (tokens ▸ exactly.sound [final] (yields_singleton.mpr ?_))
      exact .token (by rw [kind_of_isEnd ended]; rfl)
  | halts aborts _ _ => exact absurd (clean.symm.trans aborts) (Option.some_ne_none _).symm

/-- The first error divides the tokens: those in front of it are the start of a sentence, and
with the next one they are not. -/
theorem ProgramGuided.divides (ended : final.isEnd = true) (guided : ProgramGuided before found)
    {error : GrammarError} (aborts : firstAborting found = some error) :
    ∃ taken, before = taken ++ error.rest ∧ Viable taken ∧
      ¬ LooseSentence (before ++ [final]) ∧ ¬ Viable (taken ++ [error.rest.headD final]) := by
  cases guided with
  | takes clean _ => exact absurd (clean.symm.trans aborts) (Option.some_ne_none _).symm
  | @halts other left first leads bars =>
      cases first.symm.trans aborts
      rcases Leads.halted (leads_program.trans leads) bars fits_program with
        ⟨taken, tokens, ⟨more, yields⟩, none⟩
      refine ⟨taken, tokens, ⟨more, yields_singleton.mp yields⟩, fun sentence => ?_, ?_⟩
      · refine none (error.rest ++ [final]) (ahead_closed ended error.rest) ?_
        rw [← List.append_assoc, ← tokens]
        exact yields_singleton.mpr sentence
      · rintro ⟨more, sentence⟩
        refine none (error.rest.headD final :: more) ?_ (yields_singleton.mpr ?_)
        · cases error.rest with
          | nil => exact kind_of_isEnd ended
          | cons token rest => rfl
        · rwa [List.append_assoc] at sentence

end

/-- Every sentence of the grammar is one of the grammar without its limits. -/
theorem Sentence.loose {tokens : List Token} {final : Token}
    (inside : ∀ token ∈ tokens, token.isEnd = false) (ended : final.isEnd = true)
    (sentence : Sentence tokens) : LooseSentence (tokens ++ [final]) := by
  rcases @readProgram_guided tokens (.start 0) with ⟨found, errors, guided⟩
  have clean : [] = found := (readProgram_clean_iff.mpr sentence).symm.trans errors
  exact (guided inside).sentence ended (clean ▸ rfl)

theorem Viable.of_prefix {front tokens : List Token} (viable : Viable tokens)
    (inFront : front <+: tokens) : Viable front := by
  rcases inFront with ⟨back, rfl⟩
  rcases viable with ⟨more, sentence⟩
  exact ⟨back ++ more, by rwa [← List.append_assoc]⟩

end Grammar

open Grammar

/-- Where a token ends the input, an error that ends a declaration is reported exactly when the
tokens form no sentence of the grammar without its limits. The first such error is blamed on the
first place up to which the tokens are not the start of any sentence. -/
theorem reading_blames_earliest {before : List Token} {final : Token} (firstId : OccurrenceId)
    (inside : ∀ token ∈ before, token.isEnd = false) (ended : final.isEnd = true)
    {row : Row} (tokens : row.tokens.toList = before ++ [final]) :
    ∃ statements after, row.read firstId = some (statements, after) ∧
      ((∃ error ∈ after.errors, error.fault.isReportOnly = false) ↔
        ¬ LooseSentence (before ++ [final])) ∧
      ∀ error, after.errors.find? (!·.fault.isReportOnly) = some error →
        ¬ Viable ((before ++ [final]).take (error.place.val + 1)) ∧
        ∀ earlier < error.place.val, Viable ((before ++ [final]).take (earlier + 1)) := by
  have whole : row.sentence = before := by
    rw [Row.sentence, tokens, sentence_closed inside ended]
  have last : row.final.isEnd = true := by
    rw [Row.final_eq, tokens, finalToken_closed inside ended, ended]
  have closed : row.sentence.length < row.tokens.size := by
    have size := congrArg List.length tokens
    simp only [Array.length_toList, List.length_append, List.length_cons] at size
    rw [whole]
    omega
  rcases @readProgram_guided before (.start firstId) with ⟨found, errors, guided⟩
  have guided := guided inside
  have read := row.read_eq firstId
  rw [if_neg (row.not_stuck_of_isEnd last _), whole] at read
  have errors : (readProgram before (.start firstId)).2.errors = found := errors
  have all : (row.cursor [] [] (readProgram before (.start firstId)).2).errors =
      found.map row.blame := by
    simp [Row.cursor, errors]
  have aborting : ((found.map row.blame).find? fun error => !error.fault.isReportOnly) =
      (firstAborting found).map row.blame := List.find?_map ..
  have some_aborts : (∃ error ∈ found.map row.blame, error.fault.isReportOnly = false) ↔
      ∃ error, firstAborting found = some error := by
    rw [← Option.isSome_iff_exists, ← Option.isSome_map, ← aborting, List.find?_isSome]
    simp
  refine ⟨_, _, read, ?_, ?_⟩
  · rw [all, some_aborts]
    constructor
    · rintro ⟨error, aborts⟩
      rcases guided.divides ended aborts with ⟨_, _, _, none, _⟩
      exact none
    · intro none
      by_contra clean
      exact none (guided.sentence ended (by simpa [Option.eq_none_iff_forall_ne_some] using clean))
  · rw [all, aborting]
    intro blame found_blame
    rcases Option.map_eq_some_iff.mp found_blame with ⟨error, aborts, rfl⟩
    rcases guided.divides ended aborts with ⟨taken, split, viable, _, none⟩
    have place : (row.blame error).place.val = taken.length := by
      rw [Row.blame, Row.placeOf_closed closed, whole, split]
      simp
    have next : (before ++ [final]).take (taken.length + 1) =
        taken ++ [error.rest.headD final] := by
      rw [split, List.append_assoc, List.take_length_add_append]
      cases error.rest <;> rfl
    rw [place, next]
    refine ⟨none, fun earlier before_place => viable.of_prefix ?_⟩
    rw [split, List.append_assoc, List.take_append_of_le_length (by omega)]
    exact List.take_prefix ..

/-- A sign with nothing behind it. -/
def loneSign : Row :=
  .ofList [⟨.mark .minus, "-", 1⟩, .endOfInput 1] (by simp)

/-- A sentence can start with a sign, but it cannot end with it. -/
theorem reading_blames_earliest_loneSign :
    (∀ token ∈ [(⟨.mark .minus, "-", 1⟩ : Token)], token.isEnd = false) ∧
      (Token.endOfInput 1).isEnd = true ∧
      loneSign.tokens.toList = [⟨.mark .minus, "-", 1⟩] ++ [.endOfInput 1] ∧
      ¬ LooseSentence [⟨.mark .minus, "-", 1⟩, .endOfInput 1] ∧
      ¬ Viable [⟨.mark .minus, "-", 1⟩, .endOfInput 1] ∧ Viable [⟨.mark .minus, "-", 1⟩] := by
  have inside : ∀ token ∈ [(⟨.mark .minus, "-", 1⟩ : Token)], token.isEnd = false := by
    simp [Token.isEnd]
  have tokens : loneSign.tokens.toList = [⟨.mark .minus, "-", 1⟩] ++ [.endOfInput 1] := rfl
  have missing : (readProgram loneSign.sentence (.start 0)).2.errors =
      [⟨.missing .expression, []⟩] := by decide +kernel
  rcases reading_blames_earliest 0 inside rfl tokens with ⟨statements, after, read, none, first⟩
  rw [Row.read_eq, if_neg (Row.not_stuck_of_isEnd (by decide) _)] at read
  cases read
  have blamed : (loneSign.cursor [] [] (readProgram loneSign.sentence (.start 0)).2).errors =
      [loneSign.blame ⟨.missing .expression, []⟩] := by
    simp [Row.cursor, missing]
  rw [blamed] at none first
  rcases first _ rfl with ⟨notViable, viable⟩
  exact ⟨inside, rfl, tokens, none.mp ⟨_, List.mem_singleton.mpr rfl, rfl⟩, notViable,
    viable 0 (by decide)⟩

end Lox
