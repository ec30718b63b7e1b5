import Lox.Proofs.Grammar.Cursor
/-! Reading in place follows reading from a list. What a construct takes and the errors that
are found in it are followed at the same time: the errors that end a declaration are found
further on each time. -/

namespace Lox

/-! ## Where errors are found -/

/-- The later remainder is shorter, unless nothing is left. -/
def Further (later earlier : List Token) : Prop :=
  later.length < earlier.length ∨ later = []

theorem Further.of_suffix {later middle earlier : List Token} (suffix : later <:+ middle)
    (further : Further middle earlier) : Further later earlier := by
  rcases further with shorter | rfl
  · exact .inl (Nat.lt_of_le_of_lt suffix.length_le shorter)
  · exact .inr (List.suffix_nil.mp suffix)

theorem skipPast_suffix (skipped : Token) (rest : List Token) : skipPast skipped rest <:+ rest := by
  induction rest generalizing skipped with
  | nil => exact List.suffix_refl _
  | cons token rest induction =>
      unfold skipPast
      split
      · exact List.suffix_refl _
      · exact (induction token).trans (List.suffix_cons ..)

theorem recover_suffix (rest : List Token) : recover rest <:+ rest := by
  cases rest with
  | nil => exact List.suffix_refl _
  | cons offending rest => exact (skipPast_suffix offending rest).trans (List.suffix_cons ..)

theorem recover_further (rest : List Token) : Further (recover rest) rest := by
  cases rest with
  | nil => exact .inr rfl
  | cons offending rest => exact .inl (length_recover_lt (Nat.le_refl _) (Nat.succ_pos _))

/-- The error ends the declaration in which it is found. -/
def GrammarError.Aborts (error : GrammarError) : Prop :=
  error.fault.isReportOnly = false

/-- These errors are found on the way from `start` to `left`. -/
structure FoundBetween (sentence start left : List Token) (found : List GrammarError) : Prop where
  inside : ∀ error ∈ found, error.rest <:+ sentence
  behind : ∀ error ∈ found, error.Aborts → error.rest <:+ start
  before : ∀ error ∈ found, error.Aborts → Further left error.rest
  ordered : found.Pairwise fun error later =>
    error.Aborts → later.Aborts → Further later.rest error.rest

namespace FoundBetween

variable {sentence start middle left : List Token} {found others : List GrammarError}

theorem nil : FoundBetween sentence start left [] :=
  ⟨by simp, by simp, by simp, .nil⟩

theorem append (first : FoundBetween sentence start middle found)
    (second : FoundBetween sentence middle left others) (before : middle <:+ start)
    (after : left <:+ middle) : FoundBetween sentence start left (found ++ others) where
  inside := by
    intro error member
    rcases List.mem_append.mp member with member | member
    · exact first.inside error member
    · exact second.inside error member
  behind := by
    intro error member aborts
    rcases List.mem_append.mp member with member | member
    · exact first.behind error member aborts
    · exact (second.behind error member aborts).trans before
  before := by
    intro error member aborts
    rcases List.mem_append.mp member with member | member
    · exact (first.before error member aborts).of_suffix after
    · exact second.before error member aborts
  ordered := by
    rw [List.pairwise_append]
    refine ⟨first.ordered, second.ordered, fun error member later member' aborts aborts' => ?_⟩
    exact (first.before error member aborts).of_suffix (second.behind later member' aborts')

/-- A fault that is only reported may be found anywhere. -/
theorem reported {error : GrammarError} (fault : error.fault.isReportOnly = true)
    (inside : error.rest <:+ sentence) : FoundBetween sentence start start [error] := by
  have stays : ¬ error.Aborts := by simp [GrammarError.Aborts, fault]
  exact ⟨by simpa using inside, by simp [stays], by simp [stays], by simp⟩

/-- After an error that ends a declaration, reading goes on further on. -/
theorem recorded {error : GrammarError} (inside : start <:+ sentence) (rest : error.rest = start) :
    FoundBetween sentence start (recover start) [error] := by
  subst rest
  exact ⟨by simpa using inside, by simp, by simpa using fun _ => recover_further _, by simp⟩

end FoundBetween

/-- Reading has gone from `start`, with this draft, to `left`, with that draft. -/
structure Passes (sentence start : List Token) (draft : Draft) (left : List Token)
    (after : Draft) : Prop where
  remainder : left <:+ start
  errors : ∃ found, after.errors = draft.errors ++ found ∧ FoundBetween sentence start left found

namespace Passes

variable {sentence start middle left : List Token} {draft between after : Draft}

theorem refl : Passes sentence start draft start draft :=
  ⟨List.suffix_refl _, [], (List.append_nil _).symm, .nil⟩

theorem trans (first : Passes sentence start draft middle between)
    (second : Passes sentence middle between left after) :
    Passes sentence start draft left after := by
  rcases first with ⟨before, found, errors, one⟩
  rcases second with ⟨further, others, later, two⟩
  exact ⟨further.trans before, found ++ others, by rw [later, errors, List.append_assoc],
    one.append two before further⟩

theorem token {token : Token} {others : List Token} :
    Passes sentence (token :: others) draft others draft :=
  ⟨List.suffix_cons .., [], (List.append_nil _).symm, .nil⟩

theorem afterId : Passes sentence start draft start draft.afterId :=
  ⟨List.suffix_refl _, [], (List.append_nil _).symm, .nil⟩

theorem report {error : GrammarError} (fault : error.fault.isReportOnly = true)
    (inside : error.rest <:+ sentence) :
    Passes sentence start draft start (draft.report error) :=
  ⟨List.suffix_refl _, [error], rfl, .reported fault inside⟩

theorem record {error : GrammarError} (inside : error.rest <:+ sentence) :
    Passes sentence error.rest draft (recover error.rest) (draft.report error) :=
  ⟨recover_suffix _, [error], rfl, .recorded inside rfl⟩

theorem subset (passes : Passes sentence start draft left after) :
    draft.errors ⊆ after.errors := by
  rcases passes.errors with ⟨found, errors, _⟩
  rw [errors]
  exact List.subset_append_left ..

end Passes

/-! ## Where reading never ends

An expression that is expected behind the last token of a row starts with that token. -/

/-- The tokens with which a single value starts. -/
def TokenKind.startsValue : TokenKind → Bool
  | .keyword .falseWord | .keyword .trueWord | .keyword .nilWord | .keyword .thisWord
  | .keyword .superWord | .number _ | .string _ | .identifier => true
  | _ => false

theorem TokenKind.startsValue_of_alike {left right : TokenKind}
    (alike : left.alike right = true) : left.startsValue = right.startsValue := by
  cases left <;> cases right <;> simp_all [TokenKind.alike, startsValue]

namespace Row

variable {row : Row}

/-- An expression may be expected in front of these tokens: when they are none, the last one
of the row is not taken for a value. -/
def Awaits (row : Row) (rest : List Token) : Prop :=
  rest = [] → row.final.kind.startsValue = false

theorem awaits_cons {token : Token} {others : List Token} : row.Awaits (token :: others) := by
  simp [Awaits]

/-- Behind a token with which no value starts. -/
theorem awaits_behind {token : Token} {others : List Token}
    (suffix : token :: others <:+ row.sentence) (plain : token.kind.startsValue = false) :
    row.Awaits others := by
  rintro rfl
  by_cases closed : row.sentence.length < row.tokens.size
  · have ends := row.isEnd_final_of_lt closed
    cases kind : row.final.kind <;> simp_all [Token.isEnd, TokenKind.startsValue]
  · have place : row.placeOf [] = row.placeOf [token] := by
      simp only [placeOf, List.length_nil, List.length_singleton, Fin.mk.injEq]
      omega
    have same : row.final = token := by
      simp only [final, place, getElem_placeOf suffix]
    rw [same, plain]

/-- Once these errors have been found, reading never ends: an expression is expected behind an
opening parenthesis that is the last token in view. -/
def Stuck (row : Row) (errors : List GrammarError) : Prop :=
  row.final.hasMark .leftParen = true ∧ ⟨.missing .expression, []⟩ ∈ errors

instance (row : Row) (errors : List GrammarError) : Decidable (row.Stuck errors) :=
  inferInstanceAs (Decidable (_ ∧ _))

theorem Stuck.mono {errors later : List GrammarError} (stuck : row.Stuck errors)
    (subset : errors ⊆ later) : row.Stuck later :=
  ⟨stuck.1, subset stuck.2⟩

/-- What is computed while `earlier` errors grow to `later` ones. -/
def Yields {τ : Type} (row : Row) (earlier later : List GrammarError) (found : Option τ)
    (value : τ) : Prop :=
  ¬ row.Stuck earlier → found = if row.Stuck later then none else some value

end Row

/-! ## Runs -/

namespace Moving

variable {row : Row} {α β : Type} {moving : Moving row α} {next : α → Moving row β}
  {cursor : Cursor row}

theorem run_bind_none (never : moving.run.run cursor = none) :
    (moving >>= next).run.run cursor = none := by
  show (moving.run.run cursor).bind _ = none
  rw [never]
  rfl

theorem run_bind_ok {value : α} {after : Cursor row}
    (ends : moving.run.run cursor = some (.ok value, after)) :
    (moving >>= next).run.run cursor = (next value).run.run after := by
  show (moving.run.run cursor).bind _ = _
  rw [ends]
  rfl

theorem run_bind_error {blame : Blame row} {after : Cursor row}
    (ends : moving.run.run cursor = some (.error blame, after)) :
    (moving >>= next).run.run cursor = some (.error blame, after) := by
  show (moving.run.run cursor).bind _ = _
  rw [ends]
  rfl

theorem run_take : take.run.run cursor = some (.ok cursor.advance.passed, cursor.advance) := rfl

theorem run_skip? (kind : TokenKind) : (skip? kind).run.run cursor =
    if cursor.shows kind then some (.ok (some cursor.advance.passed), cursor.advance)
    else some (.ok none, cursor) := by
  show (if cursor.shows kind then some <$> take else pure none : Moving row (Option Token)).run.run
    cursor = _
  split <;> rfl

theorem run_expect (kind : TokenKind) (part : Part) : (expect kind part).run.run cursor =
    if cursor.shows kind then some (.ok cursor.advance.passed, cursor.advance)
    else some (.error ⟨.missing part, cursor.place⟩, cursor) := by
  show (if cursor.shows kind then take else fail part : Moving row Token).run.run cursor = _
  split <;> rfl

theorem run_reportIf (condition : Bool) (fault : GrammarFault) (place : Fin row.tokens.size) :
    (reportIf condition fault place).run.run cursor =
      some (.ok (), if condition then cursor.record ⟨fault, place⟩ else cursor) := by
  rw [reportIf]
  split <;> rfl

end Moving

/-! ## Following -/

namespace Parsed

variable {α : Type} {input : List Token}

/-- The tokens that are left, whether the construct could be read or not. -/
def left (parsed : Parsed α input) : List Token :=
  match parsed with
  | accept _ rest _ => rest.1
  | reject error _ _ => error.rest

def draft (parsed : Parsed α input) : Draft :=
  match parsed with
  | accept _ _ draft => draft
  | reject _ _ draft => draft

/-- All errors, with the one that ended the reading. -/
def errors (parsed : Parsed α input) : List GrammarError :=
  match parsed with
  | accept _ _ draft => draft.errors
  | reject error _ draft => draft.errors ++ [error]

theorem subset_errors (parsed : Parsed α input) : parsed.draft.errors ⊆ parsed.errors := by
  cases parsed with
  | accept _ _ _ => exact List.Subset.refl _
  | reject _ _ _ => exact List.subset_append_left ..

/-- The same end in a row. -/
def inRow {row : Row} (earlier : List (Blame row)) (parsed : Parsed α input) :
    Except (Blame row) α × Cursor row :=
  match parsed with
  | accept value rest draft => (.ok value, row.cursor earlier rest.1 draft)
  | reject error _ draft => (.error (row.blame error), row.cursor earlier error.rest draft)

/-- What holds of the tokens that are left behind a construct; an error ends the declaration. -/
def Settles (after : List Token → Prop) (parsed : Parsed α input) : Prop :=
  match parsed with
  | accept _ rest _ => after rest.1
  | reject error _ _ => error.Aborts

/-- Reading in place, from the cursor in front of `start`, does what reading from the list
does, or never ends. -/
structure Follows {row : Row} (earlier : List (Blame row)) (start : List Token) (draft : Draft)
    (after : List Token → Prop) (parsed : Parsed α input) (moving : Moving row α) : Prop where
  passes : Passes row.sentence start draft parsed.left parsed.draft
  settles : parsed.Settles after
  yields : row.Yields draft.errors parsed.errors
    (moving.run.run (row.cursor earlier start draft)) (parsed.inRow earlier)

end Parsed

namespace Parsed.Follows

variable {row : Row} {earlier : List (Blame row)} {α β : Type} {input : List Token}
  {start : List Token} {draft : Draft} {after middle : List Token → Prop}

theorem mono {parsed : Parsed α input} {moving : Moving row α}
    (follows : parsed.Follows earlier start draft after moving)
    (weaker : ∀ rest, after rest → middle rest) :
    parsed.Follows earlier start draft middle moving := by
  refine ⟨follows.passes, ?_, follows.yields⟩
  have settled := follows.settles
  cases parsed with
  | accept value rest draft => exact weaker rest.1 settled
  | reject error inside draft => exact settled

/-- The result of a construct does not depend on the construct that encloses it. -/
theorem within {rest : Shorter input} {parsed : Parsed α rest.1} {moving : Moving row α}
    (follows : parsed.Follows earlier start draft after moving) :
    (parsed.within rest).Follows earlier start draft after moving := by
  cases parsed with
  | accept value inner draft => exact ⟨follows.passes, follows.settles, follows.yields⟩
  | reject error inside draft => exact ⟨follows.passes, follows.settles, follows.yields⟩

/-- What is computed first may take tokens and numbers; then the rest of the construct
follows. -/
theorem preceded {parsed : Parsed α input} {moving moving' : Moving row α}
    {start' : List Token} {draft' : Draft}
    (passes : Passes row.sentence start draft start' draft')
    (follows : parsed.Follows earlier start' draft' after moving')
    (ends : row.Stuck draft'.errors → row.Stuck draft.errors)
    (same : moving.run.run (row.cursor earlier start draft) =
      moving'.run.run (row.cursor earlier start' draft')) :
    parsed.Follows earlier start draft after moving := by
  refine ⟨passes.trans follows.passes, follows.settles, fun free => ?_⟩
  rw [same]
  exact follows.yields fun stuck => free (ends stuck)

theorem sequence {input' : List Token} {value : α} {rest : Shorter input} {between : Draft}
    {parsed : Parsed β input'} {moving : Moving row α} {next : α → Moving row β}
    (first : (accept value rest between).Follows earlier start draft middle moving)
    (second : parsed.Follows earlier rest.1 between after (next value)) :
    parsed.Follows earlier start draft after (moving >>= next) := by
  refine ⟨first.passes.trans second.passes, second.settles, fun free => ?_⟩
  have moved : moving.run.run (row.cursor earlier start draft) =
      if row.Stuck between.errors then none
      else some (.ok value, row.cursor earlier rest.1 between) := first.yields free
  by_cases stuck : row.Stuck between.errors
  · rw [if_pos stuck] at moved
    rw [Moving.run_bind_none moved,
      if_pos ((stuck.mono second.passes.subset).mono parsed.subset_errors)]
  · rw [if_neg stuck] at moved
    rw [Moving.run_bind_ok moved]
    exact second.yields stuck

theorem stopped {input' : List Token} {error : GrammarError} {between : Draft}
    {inside : error.rest.length ≤ input.length} {inside' : error.rest.length ≤ input'.length}
    {moving : Moving row α} {next : α → Moving row β}
    (first : (reject error inside between : Parsed α input).Follows earlier start draft middle
      moving) :
    (reject error inside' between : Parsed β input').Follows earlier start draft after
      (moving >>= next) := by
  refine ⟨first.passes, first.settles, fun free => ?_⟩
  have moved : moving.run.run (row.cursor earlier start draft) =
      if row.Stuck (between.errors ++ [error]) then none
      else some (.error (row.blame error), row.cursor earlier error.rest between) :=
    first.yields free
  show _ = if row.Stuck (between.errors ++ [error]) then none
    else some (Except.error (row.blame error), row.cursor earlier error.rest between)
  by_cases stuck : row.Stuck (between.errors ++ [error])
  · rw [if_pos stuck] at moved ⊢
    exact Moving.run_bind_none moved
  · rw [if_neg stuck] at moved ⊢
    exact Moving.run_bind_error moved

theorem andThen {parsed : Parsed α input} {next : α → Reading input β} {moving : Moving row α}
    {next' : α → Moving row β} (first : parsed.Follows earlier start draft middle moving)
    (second : ∀ value rest between, rest.1 <:+ start → middle rest.1 →
      (next value rest between).Follows earlier rest.1 between after (next' value)) :
    (parsed.andThen next).Follows earlier start draft after (moving >>= next') := by
  cases parsed with
  | accept value rest between =>
      exact first.sequence (second value rest between first.passes.remainder first.settles)
  | reject error inside between => exact first.stopped

theorem onward {rest : Shorter input} {parsed : Parsed α rest.1}
    {next : α → Shorter rest.1 → Draft → Parsed β input} {moving : Moving row α}
    {next' : α → Moving row β} (first : parsed.Follows earlier start draft middle moving)
    (second : ∀ value inner between, inner.1 <:+ start → middle inner.1 →
      (next value inner between).Follows earlier inner.1 between after (next' value)) :
    (parsed.onward rest next).Follows earlier start draft after (moving >>= next') := by
  cases parsed with
  | accept value inner between =>
      exact first.sequence (second value inner between first.passes.remainder first.settles)
  | reject error inside between => exact first.stopped

/-! ### Steps -/

theorem done {value : α} (rest : Shorter input) (holds : after rest.1) :
    (accept value rest draft).Follows earlier rest.1 draft after (pure value) :=
  ⟨.refl, holds, fun free => (if_neg free).symm⟩

theorem missing {part : Part} {inside : start.length ≤ input.length}
    (known : ¬ row.Stuck [⟨.missing part, start⟩]) :
    (reject ⟨.missing part, start⟩ inside draft : Parsed α input).Follows earlier start draft after
      (Moving.fail part) := by
  refine ⟨.refl, rfl, fun free => ?_⟩
  have free' : ¬ row.Stuck (draft.errors ++ [⟨.missing part, start⟩]) := by
    rintro ⟨last, member⟩
    rcases List.mem_append.mp member with member | member
    · exact free ⟨last, member⟩
    · exact known ⟨last, member⟩
  exact (if_neg free').symm

theorem looked {parsed : Parsed α input} {next : Cursor row → Moving row α}
    (follows : parsed.Follows earlier start draft after (next (row.cursor earlier start draft))) :
    parsed.Follows earlier start draft after (get >>= next) :=
  follows.preceded .refl id rfl

theorem took {parsed : Parsed α input} {token : Token} {others : List Token}
    {next : Token → Moving row α} (suffix : token :: others <:+ row.sentence)
    (follows : parsed.Follows earlier others draft after (next token)) :
    parsed.Follows earlier (token :: others) draft after (Moving.take >>= next) := by
  refine follows.preceded .token id (Moving.run_bind_ok ?_)
  rw [Moving.run_take, Cursor.advance_cons suffix, Cursor.passed_cursor suffix]

theorem numbered {parsed : Parsed α input} {next : OccurrenceId → Moving row α}
    (follows : parsed.Follows earlier start draft.afterId after (next draft.nextId)) :
    parsed.Follows earlier start draft after (Moving.freshId >>= next) :=
  follows.preceded .afterId id rfl

theorem skipped {parsed : Parsed α input} {token : Token} {others : List Token}
    {kind : TokenKind} {next : Option Token → Moving row α}
    (suffix : token :: others <:+ row.sentence) (alike : token.kind.alike kind = true)
    (follows : parsed.Follows earlier others draft after (next (some token))) :
    parsed.Follows earlier (token :: others) draft after (Moving.skip? kind >>= next) := by
  refine follows.preceded .token id (Moving.run_bind_ok ?_)
  rw [Moving.run_skip?, if_pos (by rw [Cursor.shows_cons suffix, alike]),
    Cursor.advance_cons suffix, Cursor.passed_cursor suffix]

theorem kept {parsed : Parsed α input} {kind : TokenKind} {next : Option Token → Moving row α}
    (suffix : start <:+ row.sentence)
    (differs : ∀ token ∈ start.head?, token.kind.alike kind = false)
    (follows : parsed.Follows earlier start draft after (next none)) :
    parsed.Follows earlier start draft after (Moving.skip? kind >>= next) := by
  refine follows.preceded .refl id (Moving.run_bind_ok ?_)
  rw [Moving.run_skip?, if_neg]
  cases start with
  | nil => simp
  | cons token others => simp [Cursor.shows_cons suffix, differs token rfl]

theorem keptOther {parsed : Parsed α input} {token : Token} {others : List Token}
    {kind : TokenKind} {next : Option Token → Moving row α}
    (suffix : token :: others <:+ row.sentence) (unlike : token.kind.alike kind = false)
    (follows : parsed.Follows earlier (token :: others) draft after (next none)) :
    parsed.Follows earlier (token :: others) draft after (Moving.skip? kind >>= next) :=
  follows.kept suffix (by simpa using unlike)

/-- The token that has to come next has come. -/
theorem found {parsed : Parsed α input} {token : Token} {others : List Token}
    {kind : TokenKind} {part : Part} {next : Token → Moving row α}
    (suffix : token :: others <:+ row.sentence) (alike : token.kind.alike kind = true)
    (follows : parsed.Follows earlier others draft after (next token)) :
    parsed.Follows earlier (token :: others) draft after (Moving.expect kind part >>= next) := by
  refine follows.preceded .token id (Moving.run_bind_ok ?_)
  rw [Moving.run_expect, if_pos (by rw [Cursor.shows_cons suffix, alike]),
    Cursor.advance_cons suffix, Cursor.passed_cursor suffix]

theorem lacking {kind : TokenKind} {part : Part} {inside : start.length ≤ input.length}
    {next : Token → Moving row α} (known : part ≠ .expression) (suffix : start <:+ row.sentence)
    (differs : ∀ token ∈ start.head?, token.kind.alike kind = false) :
    (reject ⟨.missing part, start⟩ inside draft : Parsed α input).Follows earlier start draft after
      (Moving.expect kind part >>= next) := by
  have free : ¬ row.Stuck [⟨.missing part, start⟩] := by
    simp [Row.Stuck, Ne.symm known]
  refine (missing free).preceded .refl id (Moving.run_bind_error ?_)
  have absent : ¬ (row.cursor earlier start draft).shows kind = true := by
    cases start with
    | nil => simp
    | cons token others => simp [Cursor.shows_cons suffix, differs token rfl]
  rw [Moving.run_expect, if_neg absent]

/-- A fault that is only reported, in front of these tokens. -/
theorem reported {parsed : Parsed α input} {condition : Bool} {fault : GrammarFault}
    {rest : List Token} {next : Unit → Moving row α} (reportOnly : fault.isReportOnly = true)
    (inside : rest <:+ row.sentence)
    (follows : parsed.Follows earlier start
      (if condition then draft.report ⟨fault, rest⟩ else draft) after (next ())) :
    parsed.Follows earlier start draft after
      (Moving.reportIf condition fault (row.placeOf rest) >>= next) := by
  cases condition with
  | false => exact follows.preceded .refl id (Moving.run_bind_ok (Moving.run_reportIf ..))
  | true =>
      refine follows.preceded (.report reportOnly inside) ?_ (Moving.run_bind_ok ?_)
      · rintro ⟨last, member⟩
        refine ⟨last, (List.mem_append.mp member).resolve_right fun same => ?_⟩
        rcases GrammarError.mk.inj (List.mem_singleton.mp same) with ⟨rfl, -⟩
        exact absurd reportOnly (by decide)
      · rw [Moving.run_reportIf, if_pos rfl, ← Cursor.record_cursor]
        rfl

end Parsed.Follows

/-! ## Following a reading -/

/-- Nothing is said of the tokens that are left. -/
abbrev AnyRest : List Token → Prop :=
  fun _ => True

theorem expectFirst_follows {row : Row} {earlier : List (Blame row)} {kind : TokenKind}
    {part : Part} {input : List Token} {draft : Draft} (known : part ≠ .expression)
    (suffix : input <:+ row.sentence) :
    (expectFirst kind part input draft).Follows earlier input draft
      (fun rest => kind.startsValue = false → row.Awaits rest) (Moving.expect kind part) := by
  rw [← bind_pure (Moving.expect kind part)]
  cases input with
  | nil => exact .lacking known suffix (by simp)
  | cons token others =>
      unfold expectFirst
      dsimp only
      split
      · rename_i alike
        refine .found suffix alike (.done (.tail token others) fun plain => ?_)
        exact Row.awaits_behind suffix ((TokenKind.startsValue_of_alike alike).trans plain)
      · exact .lacking known suffix (by simp_all)

namespace Reading

variable {row : Row} {earlier : List (Blame row)} {α β : Type} {input : List Token}
  {before after middle : List Token → Prop}

/-- Wherever the tokens that are left satisfy `before`, the reading is followed. -/
def Follows (earlier : List (Blame row)) (before after : List Token → Prop)
    (reading : Reading input α) (moving : Moving row α) : Prop :=
  ∀ rest draft, rest.1 <:+ row.sentence → before rest.1 →
    (reading rest draft).Follows earlier rest.1 draft after moving

theorem Follows.bind {reading : Reading input α} {next : α → Reading input β}
    {moving : Moving row α} {next' : α → Moving row β}
    (first : reading.Follows earlier before middle moving)
    (second : ∀ value, (next value).Follows earlier middle after (next' value)) :
    (reading >>= next).Follows earlier before after (moving >>= next') := by
  intro rest draft suffix holds
  refine (first rest draft suffix holds).andThen ?_
  intro value inner between remainder settled
  exact second value inner between (remainder.trans suffix) settled

theorem Follows.weaken {reading : Reading input α} {moving : Moving row α}
    (follows : reading.Follows earlier middle after moving)
    (stronger : ∀ rest, before rest → middle rest) :
    reading.Follows earlier before after moving :=
  fun rest draft suffix holds => follows rest draft suffix (stronger _ holds)

theorem follows_pure (value : α) (known : ∀ rest, before rest → after rest) :
    (pure value : Reading input α).Follows earlier before after (pure value) :=
  fun rest _ _ holds => .done rest (known rest.1 holds)

theorem Follows.map {reading : Reading input α} {moving : Moving row α}
    (follows : reading.Follows earlier before after moving) (image : α → β) :
    (image <$> reading).Follows earlier before after (image <$> moving) :=
  follows.bind fun value => follows_pure (image value) fun _ => id

theorem follows_follow {construct : (rest : Shorter input) → Draft → Parsed α rest.1}
    {moving : Moving row α}
    (follows : ∀ (rest : Shorter input) draft, rest.1 <:+ row.sentence → before rest.1 →
      (construct rest draft).Follows earlier rest.1 draft after moving) :
    (follow construct).Follows earlier before after moving :=
  fun rest draft suffix holds => (follows rest draft suffix holds).within

theorem expect_follows {kind : TokenKind} {part : Part} (known : part ≠ .expression) :
    (expect kind part : Reading input Token).Follows earlier before
      (fun rest => kind.startsValue = false → row.Awaits rest) (Moving.expect kind part) := by
  rintro ⟨rest, shorter⟩ draft suffix -
  rw [← bind_pure (Moving.expect kind part)]
  cases rest with
  | nil => exact .lacking known suffix (by simp)
  | cons token others =>
      unfold expect
      dsimp only
      split
      · rename_i alike
        refine .found suffix alike (.done (.drop token others shorter) fun plain => ?_)
        exact Row.awaits_behind suffix ((TokenKind.startsValue_of_alike alike).trans plain)
      · exact .lacking known suffix (by simp_all)

/-- An expression may be expected behind a token with which no value starts. -/
theorem follows_expect {kind : TokenKind} {part : Part} {next : Token → Reading input β}
    {next' : Token → Moving row β} (known : part ≠ .expression)
    (plain : kind.startsValue = false)
    (second : ∀ token, (next token).Follows earlier row.Awaits after (next' token)) :
    (expect kind part >>= next).Follows earlier before after
      (Moving.expect kind part >>= next') :=
  (expect_follows known).bind fun token =>
    (second token).weaken fun _ awaits => awaits plain

theorem follows_expectName {part : Part} {next : Token → Reading input β}
    {next' : Token → Moving row β} (known : part ≠ .expression)
    (second : ∀ token, (next token).Follows earlier (fun _ => True) after (next' token)) :
    (expect .identifier part >>= next).Follows earlier before after
      (Moving.expect .identifier part >>= next') :=
  (expect_follows known).bind fun token => (second token).weaken fun _ _ => trivial

theorem follows_skip {kind : TokenKind} {next : Option Token → Reading input β}
    {next' : Option Token → Moving row β} (plain : kind.startsValue = false)
    (present : ∀ token, (next (some token)).Follows earlier row.Awaits after (next' (some token)))
    (absent : (next none).Follows earlier before after (next' none)) :
    (skip? kind >>= next).Follows earlier before after (Moving.skip? kind >>= next') := by
  rintro ⟨rest, shorter⟩ draft suffix holds
  cases rest with
  | nil => exact (absent ⟨[], shorter⟩ draft suffix holds).kept suffix (by simp)
  | cons token others =>
      show ((skip? kind ⟨token :: others, shorter⟩ draft).andThen next).Follows ..
      unfold skip?
      dsimp only
      split
      · rename_i alike
        have awaits : row.Awaits others :=
          Row.awaits_behind suffix ((TokenKind.startsValue_of_alike alike).trans plain)
        exact (present token (.drop token others shorter) draft
          ((List.suffix_cons ..).trans suffix) awaits).skipped suffix alike
      · exact (absent ⟨token :: others, shorter⟩ draft suffix holds).kept suffix (by simp_all)

theorem follows_ifNext {kind : TokenKind} {yes no : Reading input β} {yes' no' : Moving row β}
    (present : yes.Follows earlier before after yes')
    (absent : no.Follows earlier before after no') :
    (isNext kind >>= fun answer => if answer then yes else no).Follows earlier before after
      (get >>= fun cursor => if cursor.shows kind then yes' else no') := by
  rintro ⟨rest, shorter⟩ draft suffix holds
  refine .looked ?_
  cases rest with
  | nil =>
      rw [Cursor.shows_nil, if_neg Bool.false_ne_true]
      exact absent ⟨[], shorter⟩ draft suffix holds
  | cons token others =>
      rw [Cursor.shows_cons suffix]
      show (if token.kind.alike kind then yes else no : Reading input β) ⟨token :: others, shorter⟩
        draft |>.Follows ..
      split
      · exact present _ draft suffix holds
      · exact absent _ draft suffix holds

theorem follows_freshId {next : OccurrenceId → Reading input β}
    {next' : OccurrenceId → Moving row β}
    (second : ∀ id, (next id).Follows earlier before after (next' id)) :
    (freshId >>= next).Follows earlier before after (Moving.freshId >>= next') :=
  fun rest draft suffix holds => (second draft.nextId rest draft.afterId suffix holds).numbered

end Reading

/-- A construct and the reading that follows it. -/
theorem Parsed.Follows.andReading {row : Row} {earlier : List (Blame row)} {α β : Type}
    {input start : List Token} {draft : Draft} {middle after : List Token → Prop}
    {parsed : Parsed α input} {next : α → Reading input β} {moving : Moving row α}
    {next' : α → Moving row β} (suffix : start <:+ row.sentence)
    (first : parsed.Follows earlier start draft middle moving)
    (second : ∀ value, (next value).Follows earlier middle after (next' value)) :
    (parsed.andThen next).Follows earlier start draft after (moving >>= next') :=
  first.andThen fun value rest between remainder holds =>
    second value rest between (remainder.trans suffix) holds

end Lox
