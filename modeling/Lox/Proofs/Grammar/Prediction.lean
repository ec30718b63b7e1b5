import Mathlib.Logic.Relation
import Lox.Proofs.Grammar.ExpressionSoundness
import Lox.Proofs.Grammar.Pattern
/-! One token ahead. The kind of the next token decides which way to go through the grammar:
where a part may be left out it is taken if it can start with that token. In the table of
rules this never loses a sentence. Two alternatives start with different tokens, and no token
that can go on a pattern can start what stands behind it, with one exception: an `else` behind
a statement may belong to that statement or to one around it, and taking it for the nearest one
loses nothing, since what is left is the same. -/

namespace Lox

namespace TokenKind

theorem alike_trans {first second third : TokenKind} (one : first.alike second = true)
    (two : second.alike third = true) : first.alike third = true := by
  cases first <;> cases second <;> cases third <;> simp_all [alike]

theorem among_singleton {kind other : TokenKind} : kind.among [other] = kind.alike other := by
  simp [among]

theorem among_append {kind : TokenKind} {front back : List TokenKind} :
    kind.among (front ++ back) = (kind.among front || kind.among back) :=
  List.any_append

theorem among_of_subset {kind : TokenKind} {kinds others : List TokenKind} (subset : kinds ⊆ others)
    (among : kind.among kinds = true) : kind.among others = true := by
  rcases List.any_eq_true.mp among with ⟨other, member, alike⟩
  exact List.any_eq_true.mpr ⟨other, subset member, alike⟩

theorem not_among_of_subset {kind : TokenKind} {kinds others : List TokenKind}
    (subset : kinds ⊆ others) (none : kind.among others = false) : kind.among kinds = false := by
  rw [Bool.eq_false_iff] at none ⊢
  exact fun among => none (among_of_subset subset among)

/-- No kind is like one of both lists. -/
def apart (kinds others : List TokenKind) : Bool :=
  kinds.all fun kind => !kind.among others

theorem not_among_of_apart {kind : TokenKind} {kinds others : List TokenKind}
    (separate : apart kinds others = true) (among : kind.among kinds = true) :
    kind.among others = false := by
  rcases List.any_eq_true.mp among with ⟨other, member, alike⟩
  have unlike := List.all_eq_true.mp separate other member
  rw [Bool.not_eq_true'] at unlike
  rw [Bool.eq_false_iff] at unlike ⊢
  intro found
  rcases List.any_eq_true.mp found with ⟨third, member', alike'⟩
  refine unlike (List.any_eq_true.mpr ⟨third, member', alike_trans ?_ alike'⟩)
  rw [alike_comm, alike]

end TokenKind

namespace Grammar

open TokenKind (apart)

/-! ## Starts and extensions -/

def valueStarts : List TokenKind :=
  valueKinds ++ [.mark .leftParen, .keyword .superWord]

def expressionStarts : List TokenKind :=
  .mark .bang :: .mark .minus :: valueStarts

def statementStarts : List TokenKind :=
  .keyword .forWord :: .keyword .ifWord :: .keyword .whileWord :: .keyword .returnWord ::
    .mark .leftBrace :: .keyword .printWord :: expressionStarts

def declarationStarts : List TokenKind :=
  .keyword .classWord :: .keyword .funWord :: .keyword .varWord :: statementStarts

/-- The kinds of the tokens with which a text of the rule starts. -/
def Rule.starts : Rule → List TokenKind
  | program => declarationStarts ++ [.endOfInput]
  | declaration => declarationStarts
  | classDeclaration => [.keyword .classWord]
  | functionDeclaration => [.keyword .funWord]
  | function | parameters => [.identifier]
  | variableDeclaration => [.keyword .varWord]
  | statement => statementStarts
  | forStatement => [.keyword .forWord]
  | conditional => [.keyword .ifWord]
  | loop => [.keyword .whileWord]
  | returnStatement => [.keyword .returnWord]
  | block => [.mark .leftBrace]
  | printStatement => [.keyword .printWord]
  | expressionStatement | expression | assignment | operation _ | signed | arguments =>
      expressionStarts
  | applied | primary => valueStarts

/-- The marks that apply a value. -/
def applications : List TokenKind :=
  [.mark .leftParen, .mark .dot]

/-- The precedences in the order of their ranks. -/
def precedences : List Precedence :=
  [.product, .sum, .comparison, .equality, .conjunction, .disjunction]

/-- The operators of a precedence and of all tighter ones, and the marks that apply a value. -/
def operationExtensions (level : Precedence) : List TokenKind :=
  (precedences.take level.rank).flatMap Precedence.operators ++ applications

def expressionExtensions : List TokenKind :=
  operationExtensions .disjunction ++ [.mark .equal]

/-- The kinds of the tokens with which a text of the rule that could end may go on. -/
def Rule.extensions : Rule → List TokenKind
  | declaration | statement | forStatement | conditional | loop => [.keyword .elseWord]
  | parameters => [.mark .comma]
  | arguments => expressionExtensions ++ [.mark .comma]
  | expression | assignment => expressionExtensions
  | operation level => operationExtensions level
  | signed | applied => applications
  | program | classDeclaration | functionDeclaration | function | variableDeclaration
  | returnStatement | block | printStatement | expressionStatement | primary => []

abbrev elseKind : TokenKind :=
  .keyword .elseWord

namespace Pattern

/-- No token at all makes up the pattern. -/
def nullable : Pattern → Bool
  | token _ | rule _ => false
  | seq first second => first.nullable && second.nullable
  | choice first second => first.nullable || second.nullable
  | optional _ | many _ => true

def starts : Pattern → List TokenKind
  | token kinds => kinds
  | rule name => name.starts
  | seq first second => first.starts ++ if first.nullable then second.starts else []
  | choice first second => first.starts ++ second.starts
  | optional part | many part => part.starts

def extensions : Pattern → List TokenKind
  | token _ => []
  | rule name => name.extensions
  | seq first second => (if second.nullable then first.extensions else []) ++ second.extensions
  | choice first second => first.extensions ++ second.extensions
  | optional part | many part => part.starts ++ part.extensions

/-- One token ahead decides how to go on in the pattern. Only the branch of a conditional may
start with an `else`, and only it may stand behind what an `else` can go on. -/
def orderly : Pattern → Bool
  | token kinds => !kinds.isEmpty
  | rule _ => true
  | seq first second =>
      first.orderly && second.orderly &&
        (apart first.extensions second.starts || second == elseBranch)
  | choice first second =>
      first.orderly && second.orderly && !first.nullable && !second.nullable &&
        apart first.starts second.starts
  | optional part =>
      part.orderly && !part.nullable && (!elseKind.among part.starts || optional part == elseBranch)
  | many part =>
      part.orderly && !part.nullable && !elseKind.among part.starts &&
        apart part.extensions part.starts

end Pattern

namespace Rule

theorem body_nullable (name : Rule) : name.body.nullable = false := by
  cases name with
  | operation level => cases level <;> rfl
  | _ => rfl

theorem body_starts (name : Rule) : name.body.starts = name.starts := by
  cases name with
  | operation level => cases level <;> rfl
  | _ => rfl

theorem body_extensions (name : Rule) : name.body.extensions ⊆ name.extensions := by
  cases name with
  | operation level => cases level <;> decide
  | _ => decide

theorem body_orderly (name : Rule) : name.body.orderly = true := by
  cases name with
  | operation level => cases level <;> rfl
  | _ => rfl

end Rule

/-! ## Texts and their first tokens -/

/-- The kind of the next token. -/
def ahead : List Token → TokenKind
  | [] => .endOfInput
  | token :: _ => token.kind

theorem ahead_append {front back other : List Token} (same : ahead back = ahead other) :
    ahead (front ++ back) = ahead (front ++ other) := by
  cases front with
  | nil => exact same
  | cons token front => rfl

namespace Pattern

theorem Matches.nullable {pattern : Pattern} {tokens : List Token}
    (matched : pattern.Matches tokens) (empty : tokens = []) : pattern.nullable = true := by
  induction matched with
  | token _ => cases empty
  | @rule name _ _ nullable =>
      have occupied := nullable empty
      rw [name.body_nullable] at occupied
      cases occupied
  | seq _ _ one two =>
      rcases List.append_eq_nil_iff.mp empty with ⟨front, back⟩
      simp [Pattern.nullable, one front, two back]
  | first _ nullable => simp [Pattern.nullable, nullable empty]
  | second _ nullable => simp [Pattern.nullable, nullable empty]
  | absent | present _ _ | none | more _ _ _ _ => rfl

theorem Matches.starts {pattern : Pattern} {tokens rest : List Token} {token : Token}
    (matched : pattern.Matches tokens) (occupied : tokens = token :: rest) :
    token.kind.among pattern.starts = true := by
  induction matched generalizing rest with
  | token among =>
      cases occupied
      exact among
  | @rule name _ _ starts =>
      rw [Pattern.starts, ← name.body_starts]
      exact starts occupied
  | @seq first second front back matched _ one two =>
      rw [Pattern.starts, TokenKind.among_append]
      cases front with
      | nil => simp [matched.nullable rfl, two occupied]
      | cons head front =>
          cases occupied
          simp [one rfl]
  | first _ starts | second _ starts =>
      rw [Pattern.starts, TokenKind.among_append]
      simp [starts occupied]
  | absent | none => cases occupied
  | present _ starts => exact starts occupied
  | @more part front back _ _ one two =>
      cases front with
      | nil => exact two occupied
      | cons head front =>
          cases occupied
          exact one rfl

theorem matches_nil {pattern : Pattern} (nullable : pattern.nullable = true) :
    pattern.Matches [] := by
  induction pattern with
  | token _ | rule _ => cases nullable
  | seq first second one two =>
      rcases Bool.and_eq_true_iff.mp nullable with ⟨nullable, nullable'⟩
      exact .seq (one nullable) (two nullable')
  | choice first second one two =>
      rcases Bool.or_eq_true_iff.mp nullable with nullable | nullable
      · exact .first (one nullable)
      · exact .second (two nullable)
  | optional _ => exact .absent
  | many _ => exact .none

end Pattern

section

variable {pattern part : Pattern} {others : List Pattern} {tokens : List Token}

/-- Either the first pattern has the next token or it has none. -/
theorem Yields.starts (yields : Yields (pattern :: others) tokens) :
    (ahead tokens).among pattern.starts = true ∨
      pattern.nullable = true ∧ Yields others tokens := by
  rcases yields with ⟨front, back, rfl, matched, rest⟩
  cases front with
  | nil => exact .inr ⟨matched.nullable rfl, rest⟩
  | cons token front => exact .inl (matched.starts rfl)

theorem Yields.startsOf (yields : Yields (pattern :: others) tokens)
    (occupied : pattern.nullable = false) : (ahead tokens).among pattern.starts = true := by
  rcases yields.starts with among | ⟨nullable, _⟩
  · exact among
  · rw [occupied] at nullable
    cases nullable

theorem Yields.cons (nullable : pattern.nullable = true) (yields : Yields others tokens) :
    Yields (pattern :: others) tokens :=
  ⟨[], tokens, rfl, Pattern.matches_nil nullable, yields⟩

/-! ## What fits behind a pattern -/

/-- What stands behind the pattern starts with no token that could go on the pattern. If it
starts with an `else`, taking that token for the pattern leaves what there was behind it. -/
def Suits (pattern : Pattern) (others : List Pattern) : Prop :=
  ∀ more, (ahead more).among pattern.extensions = true → Yields others more →
    ahead more = elseKind ∧ Yields (.rule .statement :: others) more.tail

theorem Suits.mono (suits : Suits pattern others)
    (subset : part.extensions ⊆ pattern.extensions) : Suits part others :=
  fun more among => suits more (TokenKind.among_of_subset subset among)

theorem suits_cons (separate : apart pattern.extensions part.starts = true)
    (suits : part.nullable = true → Suits pattern others) : Suits pattern (part :: others) := by
  intro more among yields
  rcases yields.starts with starts | ⟨nullable, rest⟩
  · rw [TokenKind.not_among_of_apart separate among] at starts
    cases starts
  · rcases suits nullable more among rest with ⟨kind, statement⟩
    exact ⟨kind, statement.mono fun _ => .cons nullable⟩

theorem suits_elseBranch (suits : Suits pattern others) :
    Suits pattern (Pattern.elseBranch :: others) := by
  intro more among yields
  rcases yields_optional.mp yields with branch | rest
  · rcases yields_token.mp (yields_seq.mp branch) with ⟨token, rest, rfl, word, statement⟩
    refine ⟨?_, Yields.mono (fun _ => .cons rfl) statement⟩
    simpa [ahead, TokenKind.among, TokenKind.alike_keyword] using word
  · rcases suits more among rest with ⟨kind, statement⟩
    exact ⟨kind, statement.mono fun _ => .cons rfl⟩

/-- In a list of patterns each one is orderly and suits those behind it. -/
def Fits : List Pattern → Prop
  | [] => True
  | pattern :: others => pattern.orderly = true ∧ Suits pattern others ∧ Fits others

theorem Pattern.madeBelow_of_orderly (orderly : pattern.orderly = true) :
    pattern.madeBelow 16 = true := by
  induction pattern with
  | token kinds => exact orderly
  | rule name => exact decide_eq_true name.rank_lt
  | seq first second one two =>
      simp only [Pattern.orderly, Bool.and_eq_true] at orderly
      simp [Pattern.madeBelow, one orderly.1.1, two orderly.1.2]
  | choice first second one two =>
      simp only [Pattern.orderly, Bool.and_eq_true] at orderly
      simp [Pattern.madeBelow, one orderly.1.1.1.1]
  | optional part => rfl
  | many part => rfl

theorem Fits.exists_yields {patterns : List Pattern} (fits : Fits patterns) :
    ∃ tokens, Yields patterns tokens := by
  induction patterns with
  | nil => exact ⟨[], rfl⟩
  | cons pattern others made =>
      rcases fits with ⟨orderly, _, fits⟩
      rcases Pattern.exists_matches_of_madeBelow (fun name _ => name.exists_matches)
        (Pattern.madeBelow_of_orderly orderly) with ⟨front, matched⟩
      rcases made fits with ⟨back, rest⟩
      exact ⟨front ++ back, front, back, rfl, matched, rest⟩

end

/-! ## Reading on -/

/-- The pattern starts with a token of another kind. -/
def Pattern.Bars (kind : TokenKind) : Pattern → Prop
  | token kinds => kind.among kinds = false
  | seq first _ => first.Bars kind
  | _ => False

/-- A token is due, and none of this kind. -/
def Bars (kind : TokenKind) : List Pattern → Prop
  | [] => False
  | pattern :: _ => pattern.Bars kind

theorem Pattern.Bars.not_yields {pattern : Pattern} {others : List Pattern} {tokens : List Token}
    (bars : pattern.Bars (ahead tokens)) : ¬ Yields (pattern :: others) tokens := by
  intro yields
  induction pattern generalizing others with
  | token kinds =>
      rcases yields_token.mp yields with ⟨token, rest, rfl, among, _⟩
      rw [Pattern.Bars, ahead, among] at bars
      cases bars
  | seq first second one _ => exact one bars (yields_seq.mp yields)
  | rule _ | choice _ _ _ _ | optional _ _ | many _ _ => exact bars

theorem Bars.not_yields {patterns : List Pattern} {tokens : List Token}
    (bars : Bars (ahead tokens) patterns) : ¬ Yields patterns tokens := by
  cases patterns with
  | nil => exact bars.elim
  | cons pattern others => exact Pattern.Bars.not_yields bars

/-- What is due, and the tokens that are left. -/
abbrev Prospect := List Pattern × List Token

/-- The first pattern that is due is replaced by what it stands for, or its token is taken. A
part that may be left out is also tried where the next token is not due behind it. -/
inductive Step : Prospect → Prospect → Prop
  | token {kinds others rest} {token : Token} :
      token.kind.among kinds = true →
      Step (.token kinds :: others, token :: rest) (others, rest)
  | rule {name others tokens} : Step (.rule name :: others, tokens) (name.body :: others, tokens)
  | seq {first second others tokens} :
      Step (.seq first second :: others, tokens) (first :: second :: others, tokens)
  | first {first second others tokens} :
      (ahead tokens).among first.starts = true →
      Step (.choice first second :: others, tokens) (first :: others, tokens)
  | second {first second others tokens} :
      (ahead tokens).among first.starts = false →
      Step (.choice first second :: others, tokens) (second :: others, tokens)
  | present {part others tokens} :
      (ahead tokens).among part.starts = true ∨ Bars (ahead tokens) others →
      Step (.optional part :: others, tokens) (part :: others, tokens)
  | absent {part others tokens} :
      (ahead tokens).among part.starts = false →
      Step (.optional part :: others, tokens) (others, tokens)
  | more {part others tokens} :
      (ahead tokens).among part.starts = true ∨ Bars (ahead tokens) others →
      Step (.many part :: others, tokens) (part :: .many part :: others, tokens)
  | none {part others tokens} :
      (ahead tokens).among part.starts = false →
      Step (.many part :: others, tokens) (others, tokens)

theorem Step.fits {before after : Prospect} (step : Step before after) (fits : Fits before.1) :
    Fits after.1 := by
  cases step with
  | token | absent | none => exact fits.2.2
  | rule => exact ⟨Rule.body_orderly _, fits.2.1.mono (Rule.body_extensions _), fits.2.2⟩
  | @seq first second others tokens =>
      rcases fits with ⟨orderly, suits, fits⟩
      simp only [Pattern.orderly, Bool.and_eq_true, Bool.or_eq_true, beq_iff_eq] at orderly
      have front : second.nullable = true → Suits first others := fun nullable =>
        suits.mono (by simp [Pattern.extensions, nullable])
      refine ⟨orderly.1.1, ?_, orderly.1.2, suits.mono (by simp [Pattern.extensions]), fits⟩
      rcases orderly.2 with separate | branch
      · exact suits_cons separate front
      · subst branch
        exact suits_elseBranch (front rfl)
  | first =>
      rcases fits with ⟨orderly, suits, fits⟩
      simp only [Pattern.orderly, Bool.and_eq_true] at orderly
      exact ⟨orderly.1.1.1.1, suits.mono (by simp [Pattern.extensions]), fits⟩
  | second =>
      rcases fits with ⟨orderly, suits, fits⟩
      simp only [Pattern.orderly, Bool.and_eq_true] at orderly
      exact ⟨orderly.1.1.1.2, suits.mono (by simp [Pattern.extensions]), fits⟩
  | present =>
      rcases fits with ⟨orderly, suits, fits⟩
      simp only [Pattern.orderly, Bool.and_eq_true] at orderly
      exact ⟨orderly.1.1, suits.mono (by simp [Pattern.extensions]), fits⟩
  | more =>
      have whole := fits
      rcases fits with ⟨orderly, suits, fits⟩
      simp only [Pattern.orderly, Bool.and_eq_true] at orderly
      exact ⟨orderly.1.1.1,
        suits_cons orderly.2 fun _ => suits.mono (by simp [Pattern.extensions]), whole⟩

/-- Between the two prospects these tokens are taken. What can be made up in the end can be
made up with them, and in front of the same token as now nothing else can. -/
structure Exact (before after : Prospect) (taken : List Token) : Prop where
  tokens : before.2 = taken ++ after.2
  sound : ∀ more, Yields after.1 more → Yields before.1 (taken ++ more)
  complete : ∀ more, ahead more = ahead after.2 → Yields before.1 (taken ++ more) →
    Yields after.1 more

theorem Exact.trans {before middle after : Prospect} {front back : List Token}
    (one : Exact before middle front) (two : Exact middle after back) :
    Exact before after (front ++ back) where
  tokens := by rw [one.tokens, two.tokens, List.append_assoc]
  sound := by
    intro more yields
    rw [List.append_assoc]
    exact one.sound _ (two.sound _ yields)
  complete := by
    intro more same yields
    rw [List.append_assoc] at yields
    refine two.complete more same (one.complete _ ?_ yields)
    rw [two.tokens]
    exact ahead_append same

/-- Where the next token can start a part that may be left out, it does not stand behind it. -/
theorem yields_of_optional {part : Pattern} {others : List Pattern} {more : List Token}
    (fits : Fits (.optional part :: others)) (among : (ahead more).among part.starts = true)
    (yields : Yields others more) : Yields (part :: others) more := by
  rcases fits with ⟨orderly, suits, _⟩
  simp only [Pattern.orderly, Bool.and_eq_true, Bool.or_eq_true, beq_iff_eq,
    Bool.not_eq_true'] at orderly
  have onward : (ahead more).among (Pattern.optional part).extensions = true :=
    TokenKind.among_of_subset (by simp [Pattern.extensions]) among
  rcases suits more onward yields with ⟨kind, statement⟩
  rcases orderly.2 with other | branch
  · rw [kind, other] at among
    cases among
  · cases branch
    cases more with
    | nil => cases kind
    | cons token more =>
        exact yields_seq.mpr (yields_token.mpr ⟨token, more, rfl, among, statement⟩)

theorem not_yields_of_many {part : Pattern} {others : List Pattern} {more : List Token}
    (fits : Fits (.many part :: others)) (among : (ahead more).among part.starts = true) :
    ¬ Yields others more := by
  intro yields
  rcases fits with ⟨orderly, suits, _⟩
  simp only [Pattern.orderly, Bool.and_eq_true, Bool.not_eq_true'] at orderly
  have onward : (ahead more).among (Pattern.many part).extensions = true :=
    TokenKind.among_of_subset (by simp [Pattern.extensions]) among
  have kind := (suits more onward yields).1
  rw [kind, orderly.1.2] at among
  cases among

/-- Both lists of patterns have the same texts that start with the token in view. -/
theorem Exact.of_iff {patterns patterns' : List Pattern} {tokens : List Token}
    (sound : ∀ more, Yields patterns' more → Yields patterns more)
    (complete : ∀ more, ahead more = ahead tokens → Yields patterns more → Yields patterns' more) :
    Exact (patterns, tokens) (patterns', tokens) [] :=
  ⟨rfl, sound, complete⟩

theorem Step.exact {before after : Prospect} (step : Step before after) (fits : Fits before.1) :
    ∃ taken, Exact before after taken := by
  cases step with
  | @token kinds others rest token among =>
      refine ⟨[token], rfl, fun more yields => ?_, fun more _ yields => ?_⟩
      · exact yields_token.mpr ⟨token, more, rfl, among, yields⟩
      · rcases yields_token.mp yields with ⟨_, _, same, _, yields⟩
        cases same
        exact yields
  | rule => exact ⟨[], .of_iff (fun _ => yields_rule.mpr) fun _ _ => yields_rule.mp⟩
  | seq => exact ⟨[], .of_iff (fun _ => yields_seq.mpr) fun _ _ => yields_seq.mp⟩
  | first among =>
      refine ⟨[], .of_iff (fun more yields => yields_choice.mpr (.inl yields)) ?_⟩
      intro more same yields
      have orderly := fits.1
      simp only [Pattern.orderly, Bool.and_eq_true, Bool.not_eq_true'] at orderly
      refine (yields_choice.mp yields).resolve_right fun yields => ?_
      have starts := yields.startsOf orderly.1.2
      rw [same, TokenKind.not_among_of_apart orderly.2 among] at starts
      cases starts
  | second other =>
      refine ⟨[], .of_iff (fun more yields => yields_choice.mpr (.inr yields)) ?_⟩
      intro more same yields
      have orderly := fits.1
      simp only [Pattern.orderly, Bool.and_eq_true, Bool.not_eq_true'] at orderly
      refine (yields_choice.mp yields).resolve_left fun yields => ?_
      have starts := yields.startsOf orderly.1.1.2
      rw [same, other] at starts
      cases starts
  | present reason =>
      refine ⟨[], .of_iff (fun more yields => yields_optional.mpr (.inl yields)) ?_⟩
      intro more same yields
      rcases yields_optional.mp yields with yields | yields
      · exact yields
      · rcases reason with among | bars
        · exact yields_of_optional fits (same ▸ among) yields
        · exact absurd yields (Bars.not_yields (same ▸ bars))
  | absent other =>
      refine ⟨[], .of_iff (fun more yields => yields_optional.mpr (.inr yields)) ?_⟩
      intro more same yields
      have orderly := fits.1
      simp only [Pattern.orderly, Bool.and_eq_true, Bool.not_eq_true'] at orderly
      refine (yields_optional.mp yields).resolve_left fun yields => ?_
      have starts := yields.startsOf orderly.1.2
      rw [same, other] at starts
      cases starts
  | more reason =>
      refine ⟨[], .of_iff (fun more yields => yields_many.mpr (.inl yields)) ?_⟩
      intro more same yields
      refine (yields_many.mp yields).resolve_right ?_
      rcases reason with among | bars
      · exact not_yields_of_many fits (same ▸ among)
      · exact Bars.not_yields (same ▸ bars)
  | none other =>
      refine ⟨[], .of_iff (fun more yields => yields_many.mpr (.inr yields)) ?_⟩
      intro more same yields
      have orderly := fits.1
      simp only [Pattern.orderly, Bool.and_eq_true, Bool.not_eq_true'] at orderly
      refine (yields_many.mp yields).resolve_left fun yields => ?_
      have starts := yields.startsOf orderly.1.1.2
      rw [same, other] at starts
      cases starts

/-- Reading on, step after step. -/
abbrev Leads : Prospect → Prospect → Prop :=
  Relation.ReflTransGen Step

theorem Leads.exact {before after : Prospect} (leads : Leads before after)
    (fits : Fits before.1) : Fits after.1 ∧ ∃ taken, Exact before after taken := by
  induction leads with
  | refl => exact ⟨fits, [], .of_iff (fun _ => id) fun _ _ => id⟩
  | tail _ step reached =>
      rcases reached with ⟨fits, front, one⟩
      rcases step.exact fits with ⟨back, two⟩
      exact ⟨step.fits fits, front ++ back, one.trans two⟩

/-- Where reading on ends in front of a token that is not due, what has been taken is the start
of a text, but not with that token behind it. -/
theorem Leads.halted {patterns patterns' : List Pattern} {tokens rest : List Token}
    (leads : Leads (patterns, tokens) (patterns', rest)) (bars : Bars (ahead rest) patterns')
    (fits : Fits patterns) :
    ∃ taken, tokens = taken ++ rest ∧ (∃ more, Yields patterns (taken ++ more)) ∧
      ∀ more, ahead more = ahead rest → ¬ Yields patterns (taken ++ more) := by
  rcases leads.exact fits with ⟨fits', taken, exactly⟩
  rcases fits'.exists_yields with ⟨more, yields⟩
  refine ⟨taken, exactly.tokens, ⟨more, exactly.sound more yields⟩, fun more same yields => ?_⟩
  have bars' : Bars (ahead more) patterns' := same ▸ bars
  exact bars'.not_yields (exactly.complete more same yields)

end Grammar

end Lox
