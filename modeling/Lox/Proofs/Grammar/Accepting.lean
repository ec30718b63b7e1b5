import Lox.Grammar.Reading
/-! When reading accepts. The results of reading carry lengths; here they are taken
apart into values, lists of tokens and drafts. -/

namespace Lox

namespace Parsed

variable {α β : Type} {input : List Token}

/-- The construct was read, with this tree, and leaves these tokens and this draft. -/
def Accepts (parsed : Parsed α input) (value : α) (rest : List Token) (draft : Draft) : Prop :=
  ∃ shorter, parsed = .accept value ⟨rest, shorter⟩ draft

theorem Accepts.of_eq {parsed : Parsed α input} {value : α} {rest : Shorter input}
    {draft : Draft} (equal : parsed = .accept value rest draft) :
    parsed.Accepts value rest.1 draft :=
  ⟨rest.2, equal⟩

@[simp] theorem accepts_accept {value found : α} {rest : Shorter input} {left : List Token}
    {draft after : Draft} :
    (accept value rest draft).Accepts found left after ↔
      value = found ∧ rest.1 = left ∧ draft = after := by
  constructor
  · rintro ⟨shorter, equal⟩
    cases equal
    exact ⟨rfl, rfl, rfl⟩
  · rintro ⟨rfl, rfl, rfl⟩
    exact ⟨rest.2, rfl⟩

@[simp] theorem accepts_reject {error : GrammarError}
    {inside : error.rest.length ≤ input.length} {draft after : Draft} {found : α}
    {left : List Token} : ¬ (reject error inside draft).Accepts found left after := by
  rintro ⟨_, equal⟩
  cases equal

theorem accepts_andThen {parsed : Parsed α input} {next : α → Reading input β} {found : β}
    {left : List Token} {after : Draft} :
    (parsed.andThen next).Accepts found left after ↔
      ∃ value rest draft, parsed = .accept value rest draft ∧
        (next value rest draft).Accepts found left after := by
  cases parsed with
  | accept value rest draft =>
      constructor
      · intro accepted
        exact ⟨value, rest, draft, rfl, accepted⟩
      · rintro ⟨_, _, _, equal, accepted⟩
        cases equal
        exact accepted
  | reject error inside draft =>
      constructor
      · intro accepted
        exact absurd accepted accepts_reject
      · rintro ⟨_, _, _, equal, _⟩
        cases equal

@[simp] theorem accepts_within {rest : Shorter input} {parsed : Parsed α rest.1} {found : α}
    {left : List Token} {after : Draft} :
    (parsed.within rest).Accepts found left after ↔ parsed.Accepts found left after := by
  cases parsed <;> simp [within, Shorter.trans]

theorem accepts_onward {rest : Shorter input} {parsed : Parsed α rest.1}
    {next : α → Shorter rest.1 → Draft → Parsed β input} {found : β} {left : List Token}
    {after : Draft} :
    (parsed.onward rest next).Accepts found left after ↔
      ∃ value inner draft, parsed = .accept value inner draft ∧
        (next value inner draft).Accepts found left after := by
  cases parsed with
  | accept value inner draft =>
      constructor
      · intro accepted
        exact ⟨value, inner, draft, rfl, accepted⟩
      · rintro ⟨_, _, _, equal, accepted⟩
        cases equal
        exact accepted
  | reject error inside draft =>
      constructor
      · intro accepted
        exact absurd accepted accepts_reject
      · rintro ⟨_, _, _, equal, _⟩
        cases equal

end Parsed

/-! ## Reading on

A construct is accepted when its parts are, one after the other. -/

namespace Parsed

variable {α β : Type} {input : List Token}

theorem Accepts.andThen {parsed : Parsed α input} {next : α → Reading input β} {value : α}
    {middle : List Token} {between : Draft} {found : β} {left : List Token} {after : Draft}
    (first : parsed.Accepts value middle between)
    (second : ∀ shorter, (next value ⟨middle, shorter⟩ between).Accepts found left after) :
    (parsed.andThen next).Accepts found left after := by
  rcases first with ⟨shorter, rfl⟩
  exact second shorter

theorem Accepts.within {rest : Shorter input} {parsed : Parsed α rest.1} {found : α}
    {left : List Token} {after : Draft} (accepted : parsed.Accepts found left after) :
    (parsed.within rest).Accepts found left after :=
  accepts_within.mpr accepted

end Parsed

namespace Reading

variable {α β : Type} {input : List Token} {rest : Shorter input} {draft : Draft}

theorem accepts_bind {reading : Reading input α} {next : α → Reading input β} {value : α}
    {middle : List Token} {between : Draft} {found : β} {left : List Token} {after : Draft}
    (first : (reading rest draft).Accepts value middle between)
    (second : ∀ shorter, (next value ⟨middle, shorter⟩ between).Accepts found left after) :
    ((reading >>= next) rest draft).Accepts found left after :=
  Parsed.Accepts.andThen first second

theorem accepts_pure {value : α} {left : List Token} {shorter : left.length < input.length} :
    ((pure value : Reading input α) ⟨left, shorter⟩ draft).Accepts value left draft :=
  ⟨shorter, rfl⟩

theorem accepts_map {reading : Reading input α} {image : α → β} {value : α} {left : List Token}
    {after : Draft} (accepted : (reading rest draft).Accepts value left after) :
    ((image <$> reading) rest draft).Accepts (image value) left after :=
  accepts_bind accepted fun _ => accepts_pure

theorem accepts_expect {kind : TokenKind} {part : Part} {token : Token} {left : List Token}
    {shorter : (token :: left).length < input.length}
    (kinds : token.kind.alike kind = true) :
    ((expect kind part : Reading input Token) ⟨token :: left, shorter⟩ draft).Accepts token left
      draft := by
  unfold expect
  dsimp only
  rw [if_pos kinds]
  exact ⟨_, rfl⟩

theorem accepts_skip {kind : TokenKind} {token : Token} {left : List Token}
    {shorter : (token :: left).length < input.length}
    (kinds : token.kind.alike kind = true) :
    ((skip? kind : Reading input (Option Token)) ⟨token :: left, shorter⟩ draft).Accepts
      (some token) left draft := by
  unfold skip?
  dsimp only
  rw [if_pos kinds]
  exact ⟨_, rfl⟩

/-- Nothing is skipped where no token of the kind comes next. -/
theorem accepts_skip_none {kind : TokenKind} {left : List Token}
    {shorter : left.length < input.length}
    (others : ∀ token ∈ left.head?, token.kind.alike kind = false) :
    ((skip? kind : Reading input (Option Token)) ⟨left, shorter⟩ draft).Accepts none left
      draft := by
  cases left with
  | nil => exact ⟨_, rfl⟩
  | cons token left =>
      unfold skip?
      dsimp only
      rw [if_neg (by simp [others token rfl])]
      exact ⟨_, rfl⟩

theorem accepts_isNext {kind : TokenKind} {token : Token} {left : List Token}
    {shorter : (token :: left).length < input.length} :
    ((isNext kind : Reading input Bool) ⟨token :: left, shorter⟩ draft).Accepts
      (token.kind.alike kind) (token :: left) draft :=
  ⟨_, rfl⟩

theorem accepts_follow {construct : (rest : Shorter input) → Draft → Parsed α rest.1} {value : α}
    {left : List Token} {after : Draft} (accepted : (construct rest draft).Accepts value left after) :
    (follow construct rest draft).Accepts value left after :=
  accepted.within

end Reading

theorem accepts_expectFirst {kind : TokenKind} {part : Part} {token : Token} {left : List Token}
    {draft : Draft} (kinds : token.kind.alike kind = true) :
    (expectFirst kind part (token :: left) draft).Accepts token left draft := by
  unfold expectFirst
  dsimp only
  rw [if_pos kinds]
  exact ⟨_, rfl⟩

/-! ## Phrases -/

/-- What the tokens of a construct have to do with its value; the numbers are the next
free occurrence numbers before and after it. -/
abbrev Phrase (α : Type) := List Token → OccurrenceId → α → OccurrenceId → Prop

namespace Phrase

variable {α β : Type}

/-- Nothing is taken. -/
def empty (value : α) : Phrase α :=
  fun tokens first found next => tokens = [] ∧ found = value ∧ next = first

/-- One token of this kind. -/
def single (kind : TokenKind) : Phrase Token :=
  fun tokens first found next => tokens = [found] ∧ found.kind.alike kind = true ∧ next = first

/-- A construct and what follows it. -/
def andThen (phrase : Phrase α) (following : α → Phrase β) : Phrase β :=
  fun tokens first found next =>
    ∃ taken others value middle, tokens = taken ++ others ∧
      phrase taken first value middle ∧ following value others middle found next

end Phrase

/-! ## What is accepted is a phrase -/

namespace Parsed

variable {α β : Type} {input : List Token}

/-- Whatever is accepted from these tokens without an error is such a phrase, and there was
no error before. -/
def Finds (parsed : Parsed α input) (tokens : List Token) (draft : Draft) (phrase : Phrase α) :
    Prop :=
  ∀ value left after, parsed.Accepts value left after → after.errors = [] →
    draft.errors = [] ∧ ∃ taken, tokens = taken ++ left ∧
      phrase taken draft.nextId value after.nextId

theorem Finds.mono {parsed : Parsed α input} {tokens : List Token} {draft : Draft}
    {phrase other : Phrase α} (finds : parsed.Finds tokens draft phrase)
    (contained : ∀ taken first value next, phrase taken first value next →
      other taken first value next) : parsed.Finds tokens draft other := by
  intro value left after accepted clean
  rcases finds value left after accepted clean with ⟨before, taken, split, found⟩
  exact ⟨before, taken, split, contained _ _ _ _ found⟩

theorem Finds.andThen {parsed : Parsed α input} {tokens : List Token} {draft : Draft}
    {phrase : Phrase α} {next : α → Reading input β}
    (finds : parsed.Finds tokens draft phrase) (following : α → Phrase β)
    (onward : ∀ value rest draft, (next value rest draft).Finds rest.1 draft (following value)) :
    (parsed.andThen next).Finds tokens draft (phrase.andThen following) := by
  intro found left after accepted clean
  rcases accepts_andThen.mp accepted with ⟨value, rest, middle, equal, accepted⟩
  rcases onward value rest middle found left after accepted clean with
    ⟨middleClean, others, rest_eq, second⟩
  rcases finds value rest.1 middle (.of_eq equal) middleClean with
    ⟨draftClean, taken, tokens_eq, first⟩
  refine ⟨draftClean, taken ++ others, ?_, taken, others, value, middle.nextId, rfl, first, second⟩
  rw [tokens_eq, rest_eq, List.append_assoc]

theorem Finds.within {rest : Shorter input} {parsed : Parsed α rest.1} {tokens : List Token}
    {draft : Draft} {phrase : Phrase α} (finds : parsed.Finds tokens draft phrase) :
    (parsed.within rest).Finds tokens draft phrase := by
  intro value left after accepted clean
  exact finds value left after (accepts_within.mp accepted) clean

theorem Finds.onward {rest : Shorter input} {parsed : Parsed α rest.1} {tokens : List Token}
    {draft : Draft} {phrase : Phrase α} {next : α → Shorter rest.1 → Draft → Parsed β input}
    (finds : parsed.Finds tokens draft phrase) (following : α → Phrase β)
    (goesOn : ∀ value inner draft, (next value inner draft).Finds inner.1 draft (following value)) :
    (parsed.onward rest next).Finds tokens draft (phrase.andThen following) := by
  intro found left after accepted clean
  rcases accepts_onward.mp accepted with ⟨value, inner, middle, equal, accepted⟩
  rcases goesOn value inner middle found left after accepted clean with
    ⟨middleClean, others, inner_eq, second⟩
  rcases finds value inner.1 middle (.of_eq equal) middleClean with
    ⟨draftClean, taken, tokens_eq, first⟩
  refine ⟨draftClean, taken ++ others, ?_, taken, others, value, middle.nextId, rfl, first, second⟩
  rw [tokens_eq, inner_eq, List.append_assoc]

theorem finds_accept {value : α} {rest : Shorter input} {tokens : List Token} {draft : Draft}
    {phrase : Phrase α} (taken : List Token) (split : tokens = taken ++ rest.1)
    (found : phrase taken draft.nextId value draft.nextId) :
    (accept value rest draft).Finds tokens draft phrase := by
  intro other left after accepted clean
  rcases accepts_accept.mp accepted with ⟨rfl, rfl, rfl⟩
  exact ⟨clean, taken, split, found⟩

/-- One more token in front. -/
theorem Finds.after {parsed : Parsed α input} {others : List Token} {draft : Draft}
    {phrase other : Phrase α} {token : Token} (finds : parsed.Finds others draft phrase)
    (contained : ∀ taken first value next, phrase taken first value next →
      other (token :: taken) first value next) :
    parsed.Finds (token :: others) draft other := by
  intro value left after accepted clean
  rcases finds value left after accepted clean with ⟨before, taken, split, found⟩
  exact ⟨before, token :: taken, by rw [split, List.cons_append], contained _ _ _ _ found⟩

/-- What is accepted with a report is not accepted without an error. -/
theorem finds_report {value : α} {rest : Shorter input} {tokens : List Token} {draft : Draft}
    {error : GrammarError} {phrase : Phrase α} {before : Draft} :
    (accept value rest (draft.report error)).Finds tokens before phrase := by
  intro other left after accepted clean
  rcases accepts_accept.mp accepted with ⟨rfl, rfl, rfl⟩
  simp [Draft.report] at clean

/-- Nothing is reported where something is found without an error. -/
theorem Finds.unreported {parsed : Parsed α input} {tokens : List Token} {draft : Draft}
    {phrase : Phrase α} {condition : Prop} [Decidable condition] {error : GrammarError}
    (finds : parsed.Finds tokens (if condition then draft.report error else draft) phrase) :
    parsed.Finds tokens draft
      fun taken first value next => ¬ condition ∧ phrase taken first value next := by
  intro value left after accepted clean
  rcases finds value left after accepted clean with ⟨before, taken, split, found⟩
  by_cases holds : condition
  · simp [holds, Draft.report] at before
  · rw [if_neg holds] at before found
    exact ⟨before, taken, split, holds, found⟩

theorem finds_reject {error : GrammarError} {inside : error.rest.length ≤ input.length}
    {tokens : List Token} {draft after : Draft} {phrase : Phrase α} :
    (reject error inside after).Finds tokens draft phrase :=
  fun _ _ _ accepted => absurd accepted accepts_reject

end Parsed

namespace Reading

variable {α β : Type} {input : List Token}

/-- Whatever the reading accepts without an error is such a phrase. -/
def Finds (reading : Reading input α) (phrase : Phrase α) : Prop :=
  ∀ rest draft, (reading rest draft).Finds rest.1 draft phrase

theorem Finds.mono {reading : Reading input α} {phrase other : Phrase α}
    (finds : reading.Finds phrase)
    (contained : ∀ taken first value next, phrase taken first value next →
      other taken first value next) : reading.Finds other :=
  fun rest draft => (finds rest draft).mono contained

theorem Finds.bind {reading : Reading input α} {phrase : Phrase α}
    {next : α → Reading input β} {following : α → Phrase β} (finds : reading.Finds phrase)
    (onward : ∀ value, (next value).Finds (following value)) :
    (reading >>= next).Finds (phrase.andThen following) :=
  fun rest draft => (finds rest draft).andThen following fun value => onward value

theorem finds_pure (value : α) : (pure value : Reading input α).Finds (.empty value) := by
  intro rest draft
  exact Parsed.finds_accept [] rfl ⟨rfl, rfl, rfl⟩

theorem Finds.map {reading : Reading input α} {phrase : Phrase α} (finds : reading.Finds phrase)
    (image : α → β) :
    (image <$> reading).Finds (phrase.andThen fun value => .empty (image value)) :=
  finds.bind fun value => finds_pure (image value)

theorem finds_follow {construct : (rest : Shorter input) → Draft → Parsed α rest.1}
    {phrase : Phrase α}
    (finds : ∀ rest draft, (construct rest draft).Finds rest.1 draft phrase) :
    (follow construct).Finds phrase :=
  fun rest draft => (finds rest draft).within

theorem finds_expect (kind : TokenKind) (part : Part) :
    (expect kind part : Reading input Token).Finds (.single kind) := by
  rintro ⟨rest, shorter⟩ draft
  cases rest with
  | nil => exact Parsed.finds_reject
  | cons token others =>
      unfold expect
      dsimp only
      split
      · rename_i kinds
        exact Parsed.finds_accept [token] rfl ⟨rfl, kinds, rfl⟩
      · exact Parsed.finds_reject

/-- An optional token belongs to the phrase that it starts. -/
theorem Finds.skip {kind : TokenKind} {next : Option Token → Reading input β} (phrase : Phrase β)
    (present : ∀ token, token.kind.alike kind = true →
      (next (some token)).Finds fun tokens => phrase (token :: tokens))
    (absent : (next none).Finds phrase) : (skip? kind >>= next).Finds phrase := by
  rintro ⟨rest, shorter⟩ draft
  cases rest with
  | nil => exact absent ⟨[], shorter⟩ draft
  | cons token others =>
      show (Parsed.andThen (skip? kind ⟨token :: others, shorter⟩ draft) next).Finds _ _ _
      unfold skip?
      dsimp only
      split
      · rename_i kinds
        exact (present token kinds (.drop token others shorter) draft).after
          fun _ _ _ _ found => found
      · exact absent ⟨token :: others, shorter⟩ draft

theorem finds_isNext (kind : TokenKind) :
    (isNext kind : Reading input Bool).Finds
      fun tokens first _ next => tokens = [] ∧ next = first := by
  rintro ⟨rest, shorter⟩ draft
  cases rest with
  | nil => exact Parsed.finds_accept [] rfl ⟨rfl, rfl⟩
  | cons token others => exact Parsed.finds_accept [] rfl ⟨rfl, rfl⟩

theorem finds_freshId :
    (freshId : Reading input OccurrenceId).Finds
      fun tokens first id next => tokens = [] ∧ id = first ∧ next = first + 1 := by
  intro rest draft value left after accepted clean
  rcases Parsed.accepts_accept.mp accepted with ⟨rfl, rfl, rfl⟩
  exact ⟨clean, [], rfl, rfl, rfl, rfl⟩

end Reading

theorem finds_expectFirst (kind : TokenKind) (part : Part) (input : List Token) (draft : Draft) :
    (expectFirst kind part input draft).Finds input draft (.single kind) := by
  cases input with
  | nil => exact Parsed.finds_reject
  | cons token others =>
      unfold expectFirst
      dsimp only
      split
      · rename_i kinds
        exact Parsed.finds_accept [token] rfl ⟨rfl, kinds, rfl⟩
      · exact Parsed.finds_reject

end Lox
