import Lox.Proofs.Grammar.ExpressionInPlace
import Lox.Proofs.Grammar.Prediction
/-! Readers guided by the table of rules. A construct that is read without an error that ends a
declaration takes the patterns for it, and the first such error is found in front of the token
with which the patterns cannot go on. Whatever is read after an error, the errors found before
stay in front. -/

namespace Lox

/-- The first of the errors behind which a declaration is not read on. -/
def firstAborting (errors : List GrammarError) : Option GrammarError :=
  errors.find? fun error => !error.fault.isReportOnly

theorem firstAborting_append {errors others : List GrammarError} :
    firstAborting (errors ++ others) = (firstAborting errors).or (firstAborting others) :=
  List.find?_append

namespace Grammar

/-! ## Reading on with more behind -/

section

variable {patterns patterns' others : List Pattern} {tokens rest : List Token}

theorem Bars.append {kind : TokenKind} (bars : Bars kind patterns) :
    Bars kind (patterns ++ others) := by
  match patterns, bars with
  | pattern :: later, bars => exact bars

theorem Step.append (step : Step (patterns, tokens) (patterns', rest)) :
    Step (patterns ++ others, tokens) (patterns' ++ others, rest) := by
  cases step with
  | token among => exact .token among
  | rule => exact .rule
  | seq => exact .seq
  | first among => exact .first among
  | second other => exact .second other
  | present reason => exact .present (reason.imp_right Bars.append)
  | absent other => exact .absent other
  | more reason => exact .more (reason.imp_right Bars.append)
  | none other => exact .none other

theorem Leads.append (leads : Leads (patterns, tokens) (patterns', rest)) :
    Leads (patterns ++ others, tokens) (patterns' ++ others, rest) :=
  leads.lift (fun prospect : Prospect => (prospect.1 ++ others, prospect.2)) fun _ _ => Step.append

variable {part : Pattern} {kinds : List TokenKind} {token : Token}

theorem starts_seq_token : (Pattern.seq (.token kinds) part).starts = kinds := by
  simp [Pattern.starts, Pattern.nullable]

theorem leads_token (among : token.kind.among kinds = true) :
    Leads (.token kinds :: others, token :: rest) (others, rest) :=
  .single (.token among)

theorem leads_seq_token (among : token.kind.among kinds = true) :
    Leads (.seq (.token kinds) part :: others, token :: rest) (part :: others, rest) :=
  .head .seq (leads_token among)

theorem leads_optional_token (among : token.kind.among kinds = true) :
    Leads (.optional (.seq (.token kinds) part) :: others, token :: rest) (part :: others, rest) :=
  .head (.present (.inl (by rwa [starts_seq_token])))
    (leads_seq_token among)

theorem leads_many_token (among : token.kind.among kinds = true) :
    Leads (.many (.seq (.token kinds) part) :: others, token :: rest)
      (part :: .many (.seq (.token kinds) part) :: others, rest) :=
  .head (.more (.inl (by rwa [starts_seq_token])))
    (leads_seq_token among)

/-- The alternative that can start with a token of this kind; the last one, if none can. -/
def Pattern.pick (kind : TokenKind) : Pattern → Pattern
  | choice first second => if kind.among first.starts then first else second.pick kind
  | other => other

theorem leads_pick (pattern : Pattern) :
    Leads (pattern :: others, tokens) (pattern.pick (ahead tokens) :: others, tokens) := by
  induction pattern with
  | choice first second _ picked =>
      unfold Pattern.pick
      split
      · rename_i among
        exact .single (.first among)
      · rename_i other
        exact .head (.second (Bool.eq_false_iff.mpr other)) picked
  | token _ | rule _ | seq _ _ _ _ | optional _ _ | many _ _ => exact .refl

/-- The token is the first one of the alternative that a rule picks. -/
theorem leads_alternative {name chosen : Rule} {kind : TokenKind} (token_kind : token.kind = kind)
    (picked : name.body.pick kind = .rule chosen) (body : chosen.body = .seq (.token [kind]) part) :
    Leads (.rule name :: others, token :: rest) (part :: others, rest) := by
  have among : token.kind.among [kind] = true := by
    rw [TokenKind.among_singleton, token_kind, TokenKind.alike_refl]
  have chosen_next := @leads_pick others (token :: rest) name.body
  rw [ahead, token_kind, picked] at chosen_next
  refine .head .rule (chosen_next.trans (.head .rule ?_))
  rw [body]
  exact leads_seq_token among

end

end Grammar

open Grammar

/-! ## Guided results -/

/-- What comes of reading these patterns from `start` on. -/
inductive Parsed.Guided {α : Type} {input : List Token} (patterns : List Pattern)
    (start : List Token) (draft : Draft) : Parsed α input → Prop
  | takes {value rest after found} :
      after.errors = draft.errors ++ found → firstAborting found = none →
      Leads (patterns, start) ([], rest.1) → Guided patterns start draft (.accept value rest after)
  | halts {parsed found error left} :
      parsed.errors = draft.errors ++ found → firstAborting found = some error →
      Leads (patterns, start) (left, error.rest) → Bars (ahead error.rest) left →
      Guided patterns start draft parsed

namespace Parsed.Guided

variable {α β : Type} {input input' : List Token} {front back patterns patterns' : List Pattern}
  {start start' : List Token} {draft draft' : Draft}

theorem errors {parsed : Parsed α input} (guided : parsed.Guided patterns start draft) :
    ∃ found, parsed.errors = draft.errors ++ found := by
  cases guided with
  | takes errors _ _ => exact ⟨_, errors⟩
  | halts errors _ _ _ => exact ⟨_, errors⟩

theorem within {rest : Shorter input} {parsed : Parsed α rest.1}
    (guided : parsed.Guided patterns start draft) :
    (parsed.within rest).Guided patterns start draft := by
  cases guided with
  | takes errors clean leads => exact .takes errors clean leads
  | halts errors first leads bars =>
      refine .halts ?_ first leads bars
      cases parsed <;> exact errors

/-- The grammar leads to the patterns that are read. -/
theorem led {parsed : Parsed α input} (leads : Leads (patterns, start) (patterns', start'))
    (guided : parsed.Guided patterns' start' draft) : parsed.Guided patterns start draft := by
  cases guided with
  | takes errors clean later => exact .takes errors clean (leads.trans later)
  | halts errors first later bars => exact .halts errors first (leads.trans later) bars

/-- Before the construct is read on, only errors are found that do not end a declaration. -/
theorem redrafted {parsed : Parsed α input} {found : List GrammarError}
    (guided : parsed.Guided patterns start draft') (errors : draft'.errors = draft.errors ++ found)
    (clean : firstAborting found = none) : parsed.Guided patterns start draft := by
  cases guided with
  | takes errors' clean' leads =>
      refine .takes (by rw [errors', errors, List.append_assoc]) ?_ leads
      rw [firstAborting_append, clean, clean', Option.or_none]
  | halts errors' first leads bars =>
      refine .halts (by rw [errors', errors, List.append_assoc]) ?_ leads bars
      rw [firstAborting_append, clean, first, Option.none_or]

theorem sequence_append {value : α} {rest : Shorter input} {between : Draft}
    {parsed : Parsed β input'}
    (first : (accept value rest between).Guided front start draft)
    (second : parsed.Guided back rest.1 between) :
    parsed.Guided (front ++ back) start draft := by
  cases first with
  | takes errors clean leads => exact (second.redrafted errors clean).led leads.append
  | halts errors first leads bars =>
      rcases second.errors with ⟨later, errors'⟩
      have errors : between.errors = _ := errors
      refine .halts (by rw [errors', errors, List.append_assoc]) ?_ leads.append bars.append
      rw [firstAborting_append, first, Option.some_or]

theorem stopped {error : GrammarError} {between : Draft}
    {inside : error.rest.length ≤ input.length} {inside' : error.rest.length ≤ input'.length}
    (first : (reject error inside between : Parsed α input).Guided front start draft) :
    (reject error inside' between : Parsed β input').Guided (front ++ back) start draft := by
  cases first with
  | halts errors first leads bars => exact .halts errors first leads.append bars.append

theorem andThen_append {parsed : Parsed α input} {next : α → Reading input β}
    (first : parsed.Guided front start draft)
    (second : ∀ value rest between, (next value rest between).Guided back rest.1 between) :
    (parsed.andThen next).Guided (front ++ back) start draft := by
  cases parsed with
  | accept value rest between => exact first.sequence_append (second value rest between)
  | reject error inside between => exact first.stopped

theorem sequence {pattern : Pattern} {value : α} {rest : Shorter input} {between : Draft}
    {parsed : Parsed β input'} (first : (accept value rest between).Guided [pattern] start draft)
    (second : parsed.Guided back rest.1 between) :
    parsed.Guided (pattern :: back) start draft :=
  first.sequence_append second

theorem andThen {pattern : Pattern} {parsed : Parsed α input} {next : α → Reading input β}
    (first : parsed.Guided [pattern] start draft)
    (second : ∀ value rest between, (next value rest between).Guided back rest.1 between) :
    (parsed.andThen next).Guided (pattern :: back) start draft :=
  first.andThen_append second

theorem onward {pattern : Pattern} {rest : Shorter input} {parsed : Parsed α rest.1}
    {next : α → Shorter rest.1 → Draft → Parsed β input}
    (first : parsed.Guided [pattern] start draft)
    (second : ∀ value inner between, (next value inner between).Guided back inner.1 between) :
    (parsed.onward rest next).Guided (pattern :: back) start draft := by
  cases parsed with
  | accept value inner between => exact first.sequence_append (second value inner between)
  | reject error inside between => exact first.stopped

theorem numbered {parsed : Parsed α input}
    (guided : parsed.Guided patterns start draft.afterId) : parsed.Guided patterns start draft :=
  guided.redrafted (List.append_nil _).symm rfl

theorem done {value : α} (rest : Shorter input) (leads : Leads (patterns, rest.1) ([], rest.1)) :
    (accept value rest draft).Guided patterns rest.1 draft :=
  .takes (List.append_nil _).symm rfl leads

theorem map {parsed : Parsed α input} (guided : parsed.Guided patterns start draft)
    (image : α → β) :
    (parsed.andThen fun value => (pure (image value) : Reading input β)).Guided patterns start
      draft := by
  rw [← List.append_nil patterns]
  exact guided.andThen_append fun value rest between => .done rest .refl

theorem missing {part : Part} {rest : List Token} {inside : rest.length ≤ input.length}
    {left : List Pattern} (leads : Leads (patterns, start) (left, rest))
    (bars : Bars (ahead rest) left) :
    (reject ⟨.missing part, rest⟩ inside draft : Parsed α input).Guided patterns start draft :=
  .halts rfl rfl leads bars

theorem reported {parsed : Parsed α input} (condition : Prop) [Decidable condition]
    (error : GrammarError) (reportOnly : error.fault.isReportOnly = true)
    (guided : parsed.Guided patterns start (if condition then draft.report error else draft)) :
    parsed.Guided patterns start draft := by
  split at guided
  · exact guided.redrafted rfl (by simp [firstAborting, reportOnly])
  · exact guided

end Parsed.Guided

theorem expectFirst_guided {kind : TokenKind} {part : Part} {input : List Token} {draft : Draft}
    (due : TokenKind.endOfInput.among [kind] = false) :
    (expectFirst kind part input draft).Guided [.token [kind]] input draft := by
  cases input with
  | nil => exact .missing .refl due
  | cons token others =>
      unfold expectFirst
      dsimp only
      split
      · rename_i alike
        exact .led (leads_token (TokenKind.among_singleton.trans alike))
          (.done (.tail token others) .refl)
      · rename_i unlike
        exact .missing .refl (TokenKind.among_singleton.trans (Bool.eq_false_iff.mpr unlike))

namespace Reading

variable {α β : Type} {input : List Token} {front back : List Pattern}

/-- Wherever it starts, the reading is guided by these patterns. -/
def Guided (patterns : List Pattern) (reading : Reading input α) : Prop :=
  ∀ rest draft, (reading rest draft).Guided patterns rest.1 draft

theorem guided_pure (value : α) : (pure value : Reading input α).Guided [] :=
  fun rest _ => .done rest .refl

theorem guided_seq {first second : Pattern} {reading : Reading input α}
    (guided : reading.Guided (first :: second :: back)) :
    reading.Guided (.seq first second :: back) :=
  fun rest draft => (guided rest draft).led (.single .seq)

theorem guided_rule {name : Rule} {reading : Reading input α}
    (guided : reading.Guided (name.body :: back)) : reading.Guided (.rule name :: back) :=
  fun rest draft => (guided rest draft).led (.single .rule)

theorem guided_bind {pattern : Pattern} {reading : Reading input α} {next : α → Reading input β}
    (first : reading.Guided [pattern]) (second : ∀ value, (next value).Guided back) :
    (reading >>= next).Guided (pattern :: back) :=
  fun rest draft => (first rest draft).andThen second

theorem Guided.map {reading : Reading input α} (guided : reading.Guided front) (image : α → β) :
    (image <$> reading).Guided front :=
  fun rest draft => (guided rest draft).map image

theorem guided_follow {construct : (rest : Shorter input) → Draft → Parsed α rest.1}
    (guided : ∀ (rest : Shorter input) draft, (construct rest draft).Guided front rest.1 draft) :
    (follow construct).Guided front :=
  fun rest draft => (guided rest draft).within

theorem guided_freshId {next : OccurrenceId → Reading input β}
    (second : ∀ id, (next id).Guided back) : (freshId >>= next).Guided back :=
  fun rest draft => (second draft.nextId rest draft.afterId).numbered

theorem expect_guided {kind : TokenKind} {part : Part}
    (due : TokenKind.endOfInput.among [kind] = false) :
    (expect kind part : Reading input Token).Guided [.token [kind]] := by
  rintro ⟨rest, shorter⟩ draft
  cases rest with
  | nil => exact .missing .refl due
  | cons token others =>
      unfold expect
      dsimp only
      split
      · rename_i alike
        exact .led (leads_token (TokenKind.among_singleton.trans alike))
          (.done (.drop token others shorter) .refl)
      · rename_i unlike
        exact .missing .refl (TokenKind.among_singleton.trans (Bool.eq_false_iff.mpr unlike))

theorem guided_expect {kind : TokenKind} {part : Part} {next : Token → Reading input β}
    (due : TokenKind.endOfInput.among [kind] = false)
    (second : ∀ token, (next token).Guided back) :
    (expect kind part >>= next).Guided (.token [kind] :: back) :=
  guided_bind (expect_guided due) second

/-- Whether a token of this kind is next decides how to go on. -/
theorem guided_skip? {kind : TokenKind} {next : Option Token → Reading input β}
    {patterns present absent : List Pattern} (due : TokenKind.endOfInput.among [kind] = false)
    (taken : ∀ {token : Token} {rest : List Token}, token.kind.among [kind] = true →
      Leads (patterns, token :: rest) (present, rest))
    (kept : ∀ {rest : List Token}, (ahead rest).among [kind] = false →
      Leads (patterns, rest) (absent, rest))
    (present_guided : ∀ token, (next (some token)).Guided present)
    (absent_guided : (next none).Guided absent) : (skip? kind >>= next).Guided patterns := by
  rintro ⟨rest, shorter⟩ draft
  cases rest with
  | nil => exact .led (kept due) (absent_guided ⟨[], shorter⟩ draft)
  | cons token others =>
      show ((skip? kind ⟨token :: others, shorter⟩ draft).andThen next).Guided ..
      unfold skip?
      dsimp only
      split
      · rename_i alike
        exact .led (taken (TokenKind.among_singleton.trans alike))
          (present_guided token (.drop token others shorter) draft)
      · rename_i unlike
        exact .led (kept (TokenKind.among_singleton.trans (Bool.eq_false_iff.mpr unlike)))
          (absent_guided ⟨token :: others, shorter⟩ draft)

/-- A part that starts with a token of this kind may be left out. -/
theorem guided_skip {kind : TokenKind} {pattern : Pattern} {next : Option Token → Reading input β}
    (due : TokenKind.endOfInput.among [kind] = false)
    (present : ∀ token, (next (some token)).Guided (pattern :: back))
    (absent : (next none).Guided back) :
    (skip? kind >>= next).Guided (.optional (.seq (.token [kind]) pattern) :: back) :=
  guided_skip? due leads_optional_token
    (fun other => .single (.absent ((congrArg _ starts_seq_token).trans other))) present absent

end Reading

end Lox
