import Lox.Proofs.Grammar.ExpressionSoundness
/-! Every expression of the grammar is read, and read as its tree, where no token
behind it would continue it. -/

namespace Lox.Grammar

open Parsed Reading

/-! ## What continues a construct

Each token that can follow an operand has a strength, which is higher the looser it
binds; a construct is continued by the tokens below its limit. -/

def strength? (token : Token) : Option Nat :=
  match token.kind with
  | .mark .leftParen | .mark .dot => some 0
  | .mark .star | .mark .slash => some 1
  | .mark .minus | .mark .plus => some 2
  | .mark .greater | .mark .greaterEqual | .mark .less | .mark .lessEqual => some 3
  | .mark .bangEqual | .mark .equalEqual => some 4
  | .keyword .andWord => some 5
  | .keyword .orWord => some 6
  | .mark .equal => some 7
  | _ => none

def Form.limit : Form → Nat
  | expression => 8
  | operation level => level.rank + 1
  | signed => 1
  | applied => 1
  | primary => 0

/-- Nothing in front of the tokens is continued by them. -/
def Form.EndsAt (form : Form) (left : List Token) : Prop :=
  ∀ token ∈ left.head?, ∀ strength ∈ strength? token, form.limit ≤ strength

theorem Form.EndsAt.mono {form other : Form} {left : List Token} (ends : form.EndsAt left)
    (smaller : other.limit ≤ form.limit) : other.EndsAt left :=
  fun token member strength found => Nat.le_trans smaller (ends token member strength found)

theorem strength?_of_hasOperator {level : Precedence} {token : Token}
    (operates : level.hasOperator token = true) : strength? token = some level.rank := by
  cases level <;>
    simp only [Precedence.hasOperator, Precedence.operators, List.any_cons, List.any_nil,
      Bool.or_false, Bool.or_eq_true, TokenKind.alike_mark, TokenKind.alike_keyword] at operates
  · simp [strength?, operates, Precedence.rank]
  · simp [strength?, operates, Precedence.rank]
  · rcases operates with kind | kind <;> simp [strength?, kind, Precedence.rank]
  · rcases operates with kind | kind | kind | kind <;> simp [strength?, kind, Precedence.rank]
  · rcases operates with kind | kind <;> simp [strength?, kind, Precedence.rank]
  · rcases operates with kind | kind <;> simp [strength?, kind, Precedence.rank]

theorem hasOperator_eq_false {level : Precedence} {token : Token} {left : List Token}
    (ends : (Form.operation level).EndsAt (token :: left)) : level.hasOperator token = false := by
  cases operates : level.hasOperator token with
  | false => rfl
  | true =>
      have := ends token rfl _ (strength?_of_hasOperator operates)
      simp only [Form.limit] at this
      omega

theorem limit_operand (level : Precedence) : (tier level).operand.limit ≤ level.rank := by
  rw [tier_operand]
  split
  · rename_i next tighter
    exact Precedence.rank_tighter tighter
  · exact level.rank_pos

/-- A token that continues nothing ends everything. -/
theorem Form.endsAt_of_strength? {form : Form} {token : Token} {left : List Token}
    (none : strength? token = none) : form.EndsAt (token :: left) := by
  intro other member strength found
  cases member
  rw [none] at found
  cases found

theorem Form.EndsAt.not_hasMark {form : Form} {token : Token} {left : List Token} {mark : Mark}
    {strength : Nat} (ends : form.EndsAt (token :: left)) (low : strength < form.limit)
    (strong : ∀ lexeme line, strength? ⟨.mark mark, lexeme, line⟩ = some strength) :
    ¬ token.hasMark mark = true := by
  intro marked
  rcases token with ⟨kind, lexeme, line⟩
  cases Token.hasMark_iff.mp marked
  have := ends _ rfl strength (strong lexeme line)
  omega

/-! ## First tokens -/

/-- An operand without a sign can start with this token. -/
def startsPrimary (token : Token) : Bool :=
  match token.kind with
  | .number _ | .string _ | .identifier => true
  | .keyword .trueWord | .keyword .falseWord | .keyword .nilWord | .keyword .thisWord
  | .keyword .superWord => true
  | .mark .leftParen => true
  | _ => false

/-- A construct of this form can start with this token. -/
def Form.startsWith (form : Form) (token : Token) : Bool :=
  match form with
  | expression | operation _ | signed => startsPrimary token || token.isSign
  | applied | primary => startsPrimary token

theorem Form.startsWith_of_startsPrimary {form : Form} {token : Token}
    (starts : startsPrimary token = true) : form.startsWith token = true := by
  cases form <;> simp [startsWith, starts]

theorem startsWith_operand {level : Precedence} {token : Token} :
    (tier level).operand.startsWith token = (startsPrimary token || token.isSign) := by
  cases level <;> rfl

theorem startsPrimary_of_literal? {token : Token} {value : Literal}
    (written : literal? token = some value) : startsPrimary token = true := by
  unfold literal? at written
  unfold startsPrimary
  split at written <;> simp_all

theorem not_isSign_of_startsPrimary {token : Token} (starts : startsPrimary token = true) :
    ¬ token.isSign = true := by
  intro signs
  rcases (Bool.or_eq_true ..).mp signs with marked | marked <;>
    simp [startsPrimary, Token.hasMark_iff.mp marked] at starts

theorem Derives.starts {form tokens first tree next}
    (derived : Derives form tokens first tree next) :
    ∃ token others, tokens = token :: others ∧ form.startsWith token = true := by
  induction derived using Derives.rec (motive_2 := fun _ _ _ _ _ => True) with
  | operation _ induction => exact induction
  | operand _ induction =>
      rcases induction with ⟨token, others, rfl, starts⟩
      exact ⟨token, others, rfl, startsWith_operand.symm.trans starts⟩
  | unsigned _ induction =>
      rcases induction with ⟨token, others, rfl, starts⟩
      exact ⟨token, others, rfl, Form.startsWith_of_startsPrimary starts⟩
  | unapplied _ induction => exact induction
  | unary signs _ _ => exact ⟨_, _, rfl, by simp [Form.startsWith, Token.isSign_iff.mpr signs]⟩
  | combine _ _ _ induction | callEmpty _ _ _ induction | call _ _ _ _ _ induction
  | get _ _ _ induction =>
      rcases induction with ⟨token, others, rfl, starts⟩
      exact ⟨token, _, rfl, starts⟩
  | set _ _ _ _ _ induction =>
      rcases induction with ⟨token, others, rfl, starts⟩
      exact ⟨token, _, rfl, Form.startsWith_of_startsPrimary starts⟩
  | literal written => exact ⟨_, _, rfl, startsPrimary_of_literal? written⟩
  | assign kind _ _ _ | this kind | read kind | group kind | super kind =>
      exact ⟨_, _, rfl, Form.startsWith_of_startsPrimary (by simp [startsPrimary, kind])⟩
  | one | more => trivial

theorem DerivesArguments.starts {tokens first arguments next}
    (several : DerivesArguments tokens first arguments next) :
    ∃ token others, tokens = token :: others ∧ Form.expression.startsWith token = true := by
  cases several with
  | one derived => exact derived.starts
  | more derived _ _ =>
      rcases derived.starts with ⟨token, others, rfl, starts⟩
      exact ⟨token, _, rfl, starts⟩

/-! ## Constructs

What completeness says of each form. Constructs that group to the left do not end
where they can be continued; for them it says how reading goes on there. -/

def Form.Completes : Form → Phrase Expr
  | expression => fun tokens first tree next => ∀ left errors, expression.EndsAt left →
      (readExpr (tokens ++ left) ⟨first, errors⟩).Accepts tree left ⟨next, errors⟩
  | operation level => fun tokens first tree next => ∀ left errors,
      (tier level).operand.EndsAt left → ∃ shorter, readOperation level (tokens ++ left) ⟨first, errors⟩ =
        readOperators level (tokens ++ left) tree ⟨left, shorter⟩ ⟨next, errors⟩
  | signed => fun tokens first tree next => ∀ left errors, signed.EndsAt left →
      (readSigned (tokens ++ left) ⟨first, errors⟩).Accepts tree left ⟨next, errors⟩
  | applied => fun tokens first tree next => ∀ left errors,
      ∃ shorter, readApplied (tokens ++ left) ⟨first, errors⟩ =
        readApplications (tokens ++ left) tree ⟨left, shorter⟩ ⟨next, errors⟩
  | primary => fun tokens first tree next => ∀ left errors,
      (readPrimary (tokens ++ left) ⟨first, errors⟩).Accepts tree left ⟨next, errors⟩

section

variable {tokens : List Token} {first next : OccurrenceId} {tree : Expr}

theorem completes_applied (completes : Form.primary.Completes tokens first tree next) :
    Form.applied.Completes tokens first tree next := by
  intro left errors
  rcases completes left errors with ⟨shorter, read⟩
  refine ⟨shorter, ?_⟩
  rw [readApplied, read]
  rfl

/-- Where an application ends it is accepted. -/
theorem accepts_applied (completes : Form.applied.Completes tokens first tree next)
    {left : List Token} (errors : List GrammarError) (ends : Form.applied.EndsAt left) :
    (readApplied (tokens ++ left) ⟨first, errors⟩).Accepts tree left ⟨next, errors⟩ := by
  rcases completes left errors with ⟨shorter, read⟩
  rw [read, readApplications.eq_def]
  cases left with
  | nil => exact ⟨shorter, rfl⟩
  | cons token others =>
      dsimp only
      rw [if_neg (ends.not_hasMark Nat.zero_lt_one fun _ _ => rfl),
        if_neg (ends.not_hasMark Nat.zero_lt_one fun _ _ => rfl)]
      exact ⟨shorter, rfl⟩

theorem completes_signed (derived : Derives .applied tokens first tree next)
    (completes : Form.applied.Completes tokens first tree next) :
    Form.signed.Completes tokens first tree next := by
  intro left errors ends
  have accepted := accepts_applied completes errors ends
  rcases derived.starts with ⟨token, others, rfl, starts⟩
  have unsigned := not_isSign_of_startsPrimary starts
  rw [List.cons_append] at accepted ⊢
  rw [readSigned, if_neg unsigned]
  exact accepted

/-- Where an operation ends it is accepted. -/
theorem accepts_operation {level : Precedence} {left : List Token}
    (completes : (Form.operation level).Completes tokens first tree next)
    (errors : List GrammarError)
    (ends : (Form.operation level).EndsAt left) :
    (readOperation level (tokens ++ left) ⟨first, errors⟩).Accepts tree left ⟨next, errors⟩ := by
  have smaller : (tier level).operand.limit ≤ (Form.operation level).limit :=
    Nat.le_succ_of_le (limit_operand level)
  rcases completes left errors (ends.mono smaller) with ⟨shorter, read⟩
  rw [read, readOperators.eq_def]
  cases left with
  | nil => exact ⟨shorter, rfl⟩
  | cons token others =>
      dsimp only
      rw [if_neg (by simp [hasOperator_eq_false ends])]
      exact ⟨shorter, rfl⟩

/-- An operand is accepted where no tighter operator continues it. -/
theorem accepts_operand {level : Precedence} {left : List Token}
    (completes : (tier level).operand.Completes tokens first tree next) (errors : List GrammarError)
    (ends : (tier level).operand.EndsAt left) :
    (readOperand level (tokens ++ left) ⟨first, errors⟩).Accepts tree left ⟨next, errors⟩ := by
  rw [readOperand]
  split
  · rename_i other tighter
    rw [tier_operand, tighter] at completes ends
    exact accepts_operation completes errors ends
  · rename_i tightest
    rw [tier_operand, tightest] at completes ends
    exact completes left errors ends

theorem completes_operation {level : Precedence}
    (completes : (tier level).operand.Completes tokens first tree next) :
    (Form.operation level).Completes tokens first tree next := by
  intro left errors ends
  rcases accepts_operand completes errors ends with ⟨shorter, read⟩
  refine ⟨shorter, ?_⟩
  rw [readOperation, read]
  rfl

/-- What is complete as an operand is complete as an operation of any precedence. -/
theorem completes_operation_of_signed
    (completes : Form.signed.Completes tokens first tree next) (level : Precedence) :
    (Form.operation level).Completes tokens first tree next := by
  apply completes_operation
  rw [tier_operand]
  split
  · rename_i next tighter
    have := Precedence.rank_tighter tighter
    exact completes_operation_of_signed completes next
  · exact completes
termination_by level.rank

theorem completes_expression
    (completes : (Form.operation .disjunction).Completes tokens first tree next) :
    Form.expression.Completes tokens first tree next := by
  intro left errors ends
  have loose : (Form.operation .disjunction).limit ≤ Form.expression.limit := by decide
  rcases accepts_operation completes errors (ends.mono loose) with ⟨shorter, read⟩
  rw [readExpr, read]
  cases left with
  | nil => exact ⟨shorter, rfl⟩
  | cons token others =>
      simp only [andThen]
      rw [if_neg (ends.not_hasMark (by decide) fun _ _ => rfl)]
      exact ⟨shorter, rfl⟩

end

/-! ## One lemma for each rule -/

/-- An assignment is read as an operation first, and then found to denote a place. -/
theorem accepts_assignment {tokens others : List Token} {equals : Token}
    {first middle next : OccurrenceId} {target value assignment : Expr} {left : List Token}
    {errors : List GrammarError} (derived : Derives .applied tokens first target middle)
    (completes : Form.applied.Completes tokens first target middle)
    (equal : equals.kind = .mark .equal)
    (valued : Form.expression.Completes others middle value next)
    (place : target.assignment? value = some assignment) (ends : Form.expression.EndsAt left) :
    (readExpr (tokens ++ equals :: (others ++ left)) ⟨first, errors⟩).Accepts assignment left
      ⟨next, errors⟩ := by
  have endsAtEquals : (Form.operation .disjunction).EndsAt (equals :: (others ++ left)) := by
    intro token member strength found
    cases member
    simp only [strength?, equal, Option.mem_def, Option.some.injEq] at found
    subst found
    decide
  have operation := completes_operation_of_signed (completes_signed derived completes) .disjunction
  have accepted := accepts_operation operation errors endsAtEquals
  rw [readExpr]
  refine accepted.andThen fun shorter => ?_
  dsimp only
  rw [if_pos (Token.hasMark_iff.mpr equal)]
  refine (valued left errors ends).within.andThen fun _ => ?_
  rw [place]
  exact ⟨_, rfl⟩

theorem completes_combine {level : Precedence} {operator : Token} {tokens others : List Token}
    {first middle next : OccurrenceId} {left right : Expr}
    (completes : (Form.operation level).Completes tokens first left middle)
    (listed : operator.kind ∈ (tier level).operators)
    (operand : (tier level).operand.Completes others middle right next) :
    (Form.operation level).Completes (tokens ++ operator :: others) first
      ((tier level).node left operator right) next := by
  intro rest errors ends
  have operates := mem_operators_iff.mp listed
  have endsAtOperator : (tier level).operand.EndsAt (operator :: (others ++ rest)) := by
    intro token member strength found
    cases member
    rw [strength?_of_hasOperator operates] at found
    cases found
    exact limit_operand level
  rcases completes (operator :: (others ++ rest)) errors endsAtOperator with ⟨shorter, read⟩
  rcases accepts_operand operand errors ends with ⟨inner, accepted⟩
  rw [List.append_assoc, List.cons_append, read, readOperators.eq_def]
  dsimp only
  rw [if_pos operates, accepted, tier_node]
  exact ⟨_, rfl⟩

theorem completes_unary {sign : Token} {tokens : List Token} {first next : OccurrenceId}
    {right : Expr} (signs : sign.isSign = true)
    (completes : Form.signed.Completes tokens first right next) :
    Form.signed.Completes (sign :: tokens) first (.unary sign right) next := by
  intro left errors ends
  rw [List.cons_append, readSigned, if_pos signs]
  exact (completes left errors ends).within.andThen fun _ => accepts_pure

/-- What completeness says of arguments: they are read behind any earlier ones. -/
def CompletesArguments : Phrase (List Expr) :=
  fun tokens first arguments next => ∀ earlier paren left errors,
    paren.kind = .mark .rightParen → earlier.length + arguments.length ≤ maximumArity →
      (readArgumentList earlier (tokens ++ paren :: left) ⟨first, errors⟩).Accepts
        (earlier ++ arguments, paren) left ⟨next, errors⟩

theorem Form.endsAt_of_kind {form : Form} {token : Token} {left : List Token} {kind : TokenKind}
    (equal : token.kind = kind) (weak : ∀ lexeme line, strength? ⟨kind, lexeme, line⟩ = none) :
    form.EndsAt (token :: left) := by
  rcases token with ⟨_, lexeme, line⟩
  cases equal
  exact Form.endsAt_of_strength? (weak lexeme line)

theorem completes_one {tokens : List Token} {first next : OccurrenceId} {argument : Expr}
    (completes : Form.expression.Completes tokens first argument next) :
    CompletesArguments tokens first [argument] next := by
  intro earlier paren left errors ended bounded
  have room : ¬ maximumArity ≤ earlier.length := by
    rw [List.length_singleton] at bounded
    omega
  rw [readArgumentList, if_neg room]
  refine (completes _ errors (Form.endsAt_of_kind ended fun _ _ => rfl)).andThen fun _ => ?_
  have notComma : ¬ paren.hasMark .comma = true := by simp [Token.hasMark, ended]
  dsimp only
  rw [if_neg notComma, if_pos (Token.hasMark_iff.mpr ended)]
  exact ⟨_, rfl⟩

theorem completes_more {comma : Token} {tokens others : List Token}
    {first middle next : OccurrenceId} {argument : Expr} {arguments : List Expr}
    (completes : Form.expression.Completes tokens first argument middle)
    (parted : comma.kind = .mark .comma)
    (several : CompletesArguments others middle arguments next) :
    CompletesArguments (tokens ++ comma :: others) first (argument :: arguments) next := by
  intro earlier paren left errors ended bounded
  rw [List.length_cons] at bounded
  have room : ¬ maximumArity ≤ earlier.length := by omega
  rw [List.append_assoc, List.cons_append, readArgumentList, if_neg room]
  refine (completes _ errors (Form.endsAt_of_kind parted fun _ _ => rfl)).andThen fun _ => ?_
  dsimp only
  rw [if_pos (Token.hasMark_iff.mpr parted)]
  have accepted := several (earlier ++ [argument]) paren left errors ended
    (by rw [List.length_append, List.length_singleton]; omega)
  rw [List.append_assoc, List.singleton_append] at accepted
  exact accepted.within

/-- Where reading goes on behind the arguments of a call. -/
theorem completes_application {start paren : Token} {tokens : List Token} (others : List Token)
    {first middle next : OccurrenceId} {callee : Expr} {arguments : List Expr}
    (completes : Form.applied.Completes tokens first callee middle)
    (started : start.kind = .mark .leftParen)
    (accepted : ∀ left errors, (readArguments (others ++ left) ⟨middle, errors⟩).Accepts
      (arguments, paren) left ⟨next, errors⟩) :
    Form.applied.Completes (tokens ++ start :: others) first (.call callee paren arguments)
      next := by
  intro left errors
  rcases completes (start :: (others ++ left)) errors with ⟨shorter, read⟩
  rcases accepted left errors with ⟨inner, argumentsRead⟩
  rw [List.append_assoc, List.cons_append, read, readApplications.eq_def]
  dsimp only
  rw [if_pos (Token.hasMark_iff.mpr started), argumentsRead]
  exact ⟨_, rfl⟩

theorem completes_get {dot name : Token} {tokens : List Token} {first next : OccurrenceId}
    {object : Expr} (completes : Form.applied.Completes tokens first object next)
    (dotted : dot.kind = .mark .dot) (named : name.kind = .identifier) :
    Form.applied.Completes (tokens ++ [dot, name]) first (.get object name) next := by
  intro left errors
  rcases completes (dot :: name :: left) errors with ⟨shorter, read⟩
  have accepted : (expectFirst .identifier .propertyName (name :: left) ⟨next, errors⟩).Accepts
      name left ⟨next, errors⟩ := accepts_expectFirst (TokenKind.alike_identifier.mpr named)
  rcases accepted with ⟨inner, nameRead⟩
  have notCall : ¬ dot.hasMark .leftParen = true := by simp [Token.hasMark, dotted]
  rw [List.append_assoc, List.cons_append, List.cons_append, List.nil_append, read,
    readApplications.eq_def]
  dsimp only
  rw [if_neg notCall, if_pos (Token.hasMark_iff.mpr dotted), nameRead]
  exact ⟨_, rfl⟩

theorem completes_literal {token : Token} {value : Literal} {first : OccurrenceId}
    (written : literal? token = some value) :
    Form.primary.Completes [token] first (.literal value) first := by
  intro left errors
  rw [List.singleton_append, readPrimary]
  unfold literal? at written
  split at written <;> cases written
  all_goals
    rename_i kind
    rw [kind]
    exact ⟨_, rfl⟩

theorem completes_this {keyword : Token} {first : OccurrenceId}
    (kind : keyword.kind = .keyword .thisWord) :
    Form.primary.Completes [keyword] first (.this first keyword) (first + 1) := by
  intro left errors
  rw [List.singleton_append, readPrimary, kind]
  exact ⟨_, rfl⟩

theorem completes_read {name : Token} {first : OccurrenceId} (kind : name.kind = .identifier) :
    Form.primary.Completes [name] first (.read first name) (first + 1) := by
  intro left errors
  rw [List.singleton_append, readPrimary, kind]
  exact ⟨_, rfl⟩

theorem completes_super {keyword dot method : Token} {first : OccurrenceId}
    (kind : keyword.kind = .keyword .superWord) (dotted : dot.kind = .mark .dot)
    (named : method.kind = .identifier) :
    Form.primary.Completes [keyword, dot, method] first (.super first keyword method)
      (first + 1) := by
  intro left errors
  rw [List.cons_append, List.cons_append, List.singleton_append, readPrimary, kind]
  dsimp only
  unfold readSuper
  refine accepts_bind (accepts_expect (TokenKind.alike_mark.mpr dotted)) fun _ => ?_
  refine accepts_bind (accepts_expect (TokenKind.alike_identifier.mpr named)) fun _ => ?_
  exact ⟨_, rfl⟩

theorem completes_group {start finish : Token} {tokens : List Token}
    {first next : OccurrenceId} {inner : Expr} (started : start.kind = .mark .leftParen)
    (completes : Form.expression.Completes tokens first inner next)
    (finished : finish.kind = .mark .rightParen) :
    Form.primary.Completes (start :: (tokens ++ [finish])) first (.group inner) next := by
  intro left errors
  rw [List.cons_append, List.append_assoc, List.singleton_append, readPrimary, started]
  refine (completes _ errors (Form.endsAt_of_kind finished fun _ _ => rfl)).within.andThen
    fun _ => ?_
  exact accepts_bind (accepts_expect (TokenKind.alike_mark.mpr finished)) fun _ => accepts_pure

/-- Every expression of the grammar is read as its tree. -/
theorem Derives.completes {form tokens first tree next}
    (derived : Derives form tokens first tree next) : form.Completes tokens first tree next := by
  induction derived using Derives.rec (motive_2 := fun tokens first arguments next _ =>
    CompletesArguments tokens first arguments next) with
  | operation _ induction => exact completes_expression induction
  | @assign name equals tokens first value next named equal _ induction =>
      intro left errors ends
      exact accepts_assignment (.unapplied (.read named)) (completes_applied (completes_read named))
        equal induction rfl ends
  | @set dot name equals objectTokens tokens first object middle value next derived dotted named
      equal _ objectInduction induction =>
      intro left errors ends
      have split : objectTokens ++ dot :: name :: equals :: tokens ++ left =
          objectTokens ++ [dot, name] ++ equals :: (tokens ++ left) := by simp
      rw [split]
      exact accepts_assignment (.get derived dotted named)
        (completes_get objectInduction dotted named) equal induction rfl ends
  | operand _ induction => exact completes_operation induction
  | combine _ listed _ leftInduction rightInduction =>
      exact completes_combine leftInduction listed rightInduction
  | unary signs _ induction => exact completes_unary (Token.isSign_iff.mpr signs) induction
  | unsigned derived induction => exact completes_signed derived induction
  | unapplied _ induction => exact completes_applied induction
  | @callEmpty start paren _ _ _ next _ started ended induction =>
      refine completes_application [paren] induction started fun left errors => ?_
      rw [List.singleton_append, readArguments, if_pos (Token.hasMark_iff.mpr ended)]
      exact ⟨_, rfl⟩
  | @call start paren tokens first callee middle others arguments next _ started several bounded
      ended induction argumentsInduction =>
      refine completes_application _ induction started fun left errors => ?_
      have accepted := argumentsInduction [] paren left errors ended (by simpa using bounded)
      rcases several.starts with ⟨token, rest, rfl, starts⟩
      have notParen : ¬ token.hasMark .rightParen = true := by
        intro marked
        have kind := Token.hasMark_iff.mp marked
        simp [Form.startsWith, startsPrimary, Token.isSign, Token.hasMark, kind] at starts
      rw [List.append_assoc, List.singleton_append]
      rw [List.cons_append] at accepted ⊢
      rw [readArguments, if_neg notParen]
      exact accepted
  | get _ dotted named induction => exact completes_get induction dotted named
  | literal written => exact completes_literal written
  | this kind => exact completes_this kind
  | read kind => exact completes_read kind
  | group started _ finished induction => exact completes_group started induction finished
  | super kind dotted named => exact completes_super kind dotted named
  | one _ induction => exact completes_one induction
  | more _ parted _ induction several => exact completes_more induction parted several

/-- An expression is read up to a token that does not continue it. -/
theorem Derives.accepted {tokens left : List Token} {first next : OccurrenceId} {tree : Expr}
    (derived : Derives .expression tokens first tree next) (errors : List GrammarError)
    (ends : Form.expression.EndsAt left) :
    (readExpr (tokens ++ left) ⟨first, errors⟩).Accepts tree left ⟨next, errors⟩ :=
  derived.completes left errors ends

end Lox.Grammar
