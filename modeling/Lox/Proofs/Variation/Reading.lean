import Lox.Proofs.Tree.Occurrences
import Lox.Proofs.Variation.Tree
/-! Reading a text and a variant of it. Both readings end alike, with the same number of
tokens taken; what is read takes its occurrence numbers in order, and the two readings
take them in step. Numbers are never taken back, whether something can be read or not. -/

namespace Lox

variable {variation : Variation} {α β : Type} {input input' : List Token}

/-! ## What the two readings have done -/

/-- The same fault, in front of the same place. -/
structure GrammarError.Varies (variation : Variation) (error other : GrammarError) : Prop where
  fault : other.fault = error.fault
  rest : variation.Texts error.rest other.rest

/-- Numbers that are taken from now on are taken in step. -/
structure Draft.Varies (variation : Variation) (draft other : Draft) : Prop where
  ids : ∀ taken, variation.ids (draft.nextId + taken) (other.nextId + taken)
  errors : List.Forall₂ (GrammarError.Varies variation) draft.errors other.errors

namespace Draft.Varies

variable {draft other : Draft}

theorem first (varies : draft.Varies variation other) :
    variation.ids draft.nextId other.nextId :=
  varies.ids 0

theorem afterId (varies : draft.Varies variation other) :
    draft.afterId.Varies variation other.afterId := by
  refine ⟨fun taken => ?_, varies.errors⟩
  have further := varies.ids (1 + taken)
  rw [← Nat.add_assoc, ← Nat.add_assoc] at further
  exact further

theorem report (varies : draft.Varies variation other) (fault : GrammarFault)
    {rest rest' : List Token} (texts : variation.Texts rest rest') :
    (draft.report ⟨fault, rest⟩).Varies variation (other.report ⟨fault, rest'⟩) :=
  ⟨varies.ids, List.rel_append varies.errors (.cons ⟨rfl, texts⟩ .nil)⟩

theorem reportIf (varies : draft.Varies variation other) {condition condition' : Prop}
    [Decidable condition] [Decidable condition'] (alike : condition' ↔ condition)
    (fault : GrammarFault) {rest rest' : List Token} (texts : variation.Texts rest rest') :
    (if condition then draft.report ⟨fault, rest⟩ else draft).Varies variation
      (if condition' then other.report ⟨fault, rest'⟩ else other) := by
  by_cases holds : condition
  · rw [if_pos holds, if_pos (alike.mpr holds)]
    exact varies.report fault texts
  · rw [if_neg holds, if_neg fun holds' => holds (alike.mp holds')]
    exact varies

end Draft.Varies

/-- A report takes no number. -/
theorem Draft.reportIf_nextId (draft : Draft) (condition : Prop) [Decidable condition]
    (error : GrammarError) :
    (if condition then draft.report error else draft).nextId = draft.nextId := by
  split <;> rfl

/-- What lies ahead of the two readings. -/
structure Ahead (variation : Variation) (tokens others : List Token) (draft other : Draft) :
    Prop where
  texts : variation.Texts tokens others
  drafts : draft.Varies variation other

/-! ## Ends of readings

The relation says what is read and which number comes next. -/

namespace Parsed

/-- The two readings end alike, after the number `first`. -/
def Varies (variation : Variation) (first : OccurrenceId) (related : α → α → OccurrenceId → Prop) :
    Parsed α input → Parsed α input' → Prop
  | accept value rest draft, accept value' rest' draft' =>
      first ≤ draft.nextId ∧ Ahead variation rest.1 rest'.1 draft draft' ∧
        related value value' draft.nextId
  | reject error _ draft, reject error' _ draft' =>
      first ≤ draft.nextId ∧ error.Varies variation error' ∧ draft.Varies variation draft'
  | _, _ => False

variable {first : OccurrenceId} {related : α → α → OccurrenceId → Prop}
  {found : β → β → OccurrenceId → Prop}

theorem varies_accept {value value' : α} {rest : Shorter input} {rest' : Shorter input'}
    {draft draft' : Draft} (ahead : Ahead variation rest.1 rest'.1 draft draft')
    (holds : related value value' draft.nextId) :
    (accept value rest draft).Varies variation draft.nextId related (accept value' rest' draft') :=
  ⟨Nat.le_refl _, ahead, holds⟩

theorem varies_reject {error error' : GrammarError}
    {inside : error.rest.length ≤ input.length} {inside' : error'.rest.length ≤ input'.length}
    {draft draft' : Draft} (same : error.Varies variation error')
    (drafts : draft.Varies variation draft') :
    (reject error inside draft : Parsed α input).Varies variation draft.nextId related
      (reject error' inside' draft') :=
  ⟨Nat.le_refl _, same, drafts⟩

theorem Varies.mono {parsed : Parsed α input} {other : Parsed α input'}
    (varies : parsed.Varies variation first related other) {earlier : OccurrenceId}
    (ordered : earlier ≤ first) : parsed.Varies variation earlier related other := by
  cases parsed with
  | accept value rest draft =>
      cases other with
      | accept _ _ _ => exact ⟨Nat.le_trans ordered varies.1, varies.2⟩
      | reject _ _ _ => exact varies.elim
  | reject error inside draft =>
      cases other with
      | accept _ _ _ => exact varies.elim
      | reject _ _ _ => exact ⟨Nat.le_trans ordered varies.1, varies.2⟩

theorem Varies.andThen {parsed : Parsed α input} {other : Parsed α input'}
    {next : α → Reading input β} {next' : α → Reading input' β}
    (before : parsed.Varies variation first related other)
    (after : ∀ value value' (rest : Shorter input) (rest' : Shorter input') draft draft',
      first ≤ draft.nextId → related value value' draft.nextId →
      Ahead variation rest.1 rest'.1 draft draft' →
      (next value rest draft).Varies variation draft.nextId found (next' value' rest' draft')) :
    (parsed.andThen next).Varies variation first found (other.andThen next') := by
  cases parsed with
  | accept value rest draft =>
      cases other with
      | accept value' rest' draft' =>
          rcases before with ⟨later, ahead, known⟩
          exact (after value value' rest rest' draft draft' later known ahead).mono later
      | reject _ _ _ => exact before.elim
  | reject error inside draft =>
      cases other with
      | accept _ _ _ => exact before.elim
      | reject _ _ _ => exact before

theorem Varies.within {rest : Shorter input} {rest' : Shorter input'} {parsed : Parsed α rest.1}
    {other : Parsed α rest'.1} (varies : parsed.Varies variation first related other) :
    (parsed.within rest).Varies variation first related (other.within rest') := by
  cases parsed with
  | accept value inner draft =>
      cases other with
      | accept _ _ _ => exact varies
      | reject _ _ _ => exact varies.elim
  | reject error inside draft =>
      cases other with
      | accept _ _ _ => exact varies.elim
      | reject _ _ _ => exact varies

theorem Varies.onward {rest : Shorter input} {rest' : Shorter input'} {parsed : Parsed α rest.1}
    {other : Parsed α rest'.1} {next : α → Shorter rest.1 → Draft → Parsed β input}
    {next' : α → Shorter rest'.1 → Draft → Parsed β input'}
    (before : parsed.Varies variation first related other)
    (after : ∀ value value' (inner : Shorter rest.1) (inner' : Shorter rest'.1) draft draft',
      first ≤ draft.nextId → related value value' draft.nextId →
      Ahead variation inner.1 inner'.1 draft draft' →
      (next value inner draft).Varies variation draft.nextId found (next' value' inner' draft')) :
    (parsed.onward rest next).Varies variation first found (other.onward rest' next') := by
  cases parsed with
  | accept value inner draft =>
      cases other with
      | accept value' inner' draft' =>
          rcases before with ⟨later, ahead, known⟩
          exact (after value value' inner inner' draft draft' later known ahead).mono later
      | reject _ _ _ => exact before.elim
  | reject error inside draft =>
      cases other with
      | accept _ _ _ => exact before.elim
      | reject _ _ _ => exact before

end Parsed

/-- The value takes the numbers from `first` on, and the other value varies it. -/
def Takes (numbers : α → List OccurrenceId) (varies : α → α → Prop) (first : OccurrenceId)
    (value other : α) (next : OccurrenceId) : Prop :=
  Numbered first next (numbers value) ∧ varies value other

/-- No number is taken. -/
def TakesNone (varies : α → α → Prop) (first : OccurrenceId) (value other : α)
    (next : OccurrenceId) : Prop :=
  next = first ∧ varies value other

/-! ## Steps of readings -/

namespace Reading

variable {here : OccurrenceId} {related : α → α → OccurrenceId → Prop}
  {found : β → β → OccurrenceId → Prop}

/-- Where the same lies ahead of the two readings and `here` is the next number, they end
alike. -/
def Varies (variation : Variation) (here : OccurrenceId) (related : α → α → OccurrenceId → Prop)
    (reading : Reading input α) (other : Reading input' α) : Prop :=
  ∀ (rest : Shorter input) (rest' : Shorter input') draft draft', draft.nextId = here →
    Ahead variation rest.1 rest'.1 draft draft' →
    (reading rest draft).Varies variation here related (other rest' draft')

theorem varies_pure {value value' : α} (holds : related value value' here) :
    (pure value : Reading input α).Varies variation here related
      (pure value' : Reading input' α) := by
  rintro rest rest' draft draft' rfl ahead
  exact Parsed.varies_accept ahead holds

theorem Varies.bind {reading : Reading input α} {other : Reading input' α}
    {next : α → Reading input β} {next' : α → Reading input' β}
    (before : reading.Varies variation here related other)
    (after : ∀ value value' later, here ≤ later → related value value' later →
      (next value).Varies variation later found (next' value')) :
    (reading >>= next).Varies variation here found (other >>= next') := by
  intro rest rest' draft draft' known ahead
  refine (before rest rest' draft draft' known ahead).andThen ?_
  intro value value' rest rest' draft draft' later holds ahead
  exact after value value' _ later holds rest rest' draft draft' rfl ahead

theorem Varies.map {reading : Reading input α} {other : Reading input' α}
    (varies : reading.Varies variation here related other) (image : α → β)
    (holds : ∀ value value' next, related value value' next →
      found (image value) (image value') next) :
    (image <$> reading).Varies variation here found (image <$> other) :=
  varies.bind fun value value' next _ known => varies_pure (holds value value' next known)

theorem varies_follow {construct : (rest : Shorter input) → Draft → Parsed α rest.1}
    {construct' : (rest : Shorter input') → Draft → Parsed α rest.1}
    (varies : ∀ (rest : Shorter input) (rest' : Shorter input') draft draft',
      draft.nextId = here → Ahead variation rest.1 rest'.1 draft draft' →
      (construct rest draft).Varies variation here related (construct' rest' draft')) :
    (follow construct).Varies variation here related (follow construct') :=
  fun rest rest' draft draft' known ahead => (varies rest rest' draft draft' known ahead).within

theorem varies_expect {kind : TokenKind} {part : Part} {next : Token → Reading input β}
    {next' : Token → Reading input' β}
    (after : ∀ token other, variation.tokens token other →
      (next token).Varies variation here found (next' other)) :
    (expect kind part >>= next).Varies variation here found (expect kind part >>= next') := by
  have single : (expect kind part : Reading input Token).Varies variation here
      (TakesNone variation.tokens here) (expect kind part : Reading input' Token) := by
    rintro ⟨rest, shorter⟩ ⟨rest', shorter'⟩ draft draft' rfl ⟨texts, drafts⟩
    cases texts with
    | nil => exact Parsed.varies_reject ⟨rfl, .nil⟩ drafts
    | @cons token other rest rest' same texts =>
        unfold expect
        dsimp only
        rw [Variation.alike same]
        split
        · exact Parsed.varies_accept ⟨texts, drafts⟩ ⟨rfl, same⟩
        · exact Parsed.varies_reject ⟨rfl, .cons same texts⟩ drafts
  refine single.bind ?_
  rintro token other _ _ ⟨rfl, same⟩
  exact after token other same

theorem varies_skip {kind : TokenKind} {next : Option Token → Reading input β}
    {next' : Option Token → Reading input' β}
    (present : ∀ token other, variation.tokens token other →
      (next (some token)).Varies variation here found (next' (some other)))
    (absent : (next none).Varies variation here found (next' none)) :
    (skip? kind >>= next).Varies variation here found (skip? kind >>= next') := by
  have single : (skip? kind : Reading input (Option Token)).Varies variation here
      (TakesNone (Option.Rel variation.tokens) here)
      (skip? kind : Reading input' (Option Token)) := by
    rintro ⟨rest, shorter⟩ ⟨rest', shorter'⟩ draft draft' rfl ⟨texts, drafts⟩
    cases texts with
    | nil => exact Parsed.varies_accept ⟨.nil, drafts⟩ ⟨rfl, .none⟩
    | @cons token other rest rest' same texts =>
        unfold skip?
        dsimp only
        rw [Variation.alike same]
        split
        · exact Parsed.varies_accept ⟨texts, drafts⟩ ⟨rfl, .some same⟩
        · exact Parsed.varies_accept ⟨.cons same texts, drafts⟩ ⟨rfl, .none⟩
  refine single.bind ?_
  rintro _ _ _ _ ⟨rfl, same | _⟩
  · exact present _ _ same
  · exact absent

theorem varies_isNext {kind : TokenKind} {next : Bool → Reading input β}
    {next' : Bool → Reading input' β}
    (after : ∀ answer, (next answer).Varies variation here found (next' answer)) :
    (isNext kind >>= next).Varies variation here found (isNext kind >>= next') := by
  have single : (isNext kind : Reading input Bool).Varies variation here (TakesNone Eq here)
      (isNext kind : Reading input' Bool) := by
    rintro ⟨rest, shorter⟩ ⟨rest', shorter'⟩ draft draft' rfl ⟨texts, drafts⟩
    cases texts with
    | nil => exact Parsed.varies_accept ⟨.nil, drafts⟩ ⟨rfl, rfl⟩
    | cons same texts =>
        exact Parsed.varies_accept ⟨.cons same texts, drafts⟩ ⟨rfl, (Variation.alike same _).symm⟩
  refine single.bind ?_
  rintro answer _ _ _ ⟨rfl, rfl⟩
  exact after answer

theorem varies_freshId {next : OccurrenceId → Reading input β}
    {next' : OccurrenceId → Reading input' β}
    (after : ∀ other, variation.ids here other →
      (next here).Varies variation (here + 1) found (next' other)) :
    (freshId >>= next).Varies variation here found (freshId >>= next') := by
  rintro rest rest' draft draft' rfl ahead
  exact (after draft'.nextId ahead.drafts.first rest rest' draft.afterId draft'.afterId rfl
    ⟨ahead.texts, ahead.drafts.afterId⟩).mono (Nat.le_succ _)

end Reading

theorem varies_expectFirst {kind : TokenKind} {part : Part} {draft draft' : Draft}
    (ahead : Ahead variation input input' draft draft') :
    (expectFirst kind part input draft).Varies variation draft.nextId
      (TakesNone variation.tokens draft.nextId) (expectFirst kind part input' draft') := by
  rcases ahead with ⟨texts, drafts⟩
  cases texts with
  | nil => exact Parsed.varies_reject ⟨rfl, .nil⟩ drafts
  | cons same texts =>
      unfold expectFirst
      dsimp only
      rw [Variation.alike same]
      split
      · exact Parsed.varies_accept ⟨texts, drafts⟩ ⟨rfl, same⟩
      · exact Parsed.varies_reject ⟨rfl, .cons same texts⟩ drafts

end Lox
