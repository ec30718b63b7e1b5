import Lox.Proofs.Grammar.Accepting
import Lox.Proofs.Grammar.Derivation
import Lox.Grammar.Expression
/-! What is read as an expression without an error is an expression of the grammar. -/

namespace Lox

/-! ## Kinds -/

namespace TokenKind

theorem alike_mark {kind : TokenKind} {mark : Mark} : kind.alike (.mark mark) = true ↔
    kind = .mark mark := by
  cases kind <;> simp [alike]

theorem alike_keyword {kind : TokenKind} {word : Keyword} :
    kind.alike (.keyword word) = true ↔ kind = .keyword word := by
  cases kind <;> simp [alike]

theorem alike_identifier {kind : TokenKind} :
    kind.alike .identifier = true ↔ kind = .identifier := by
  cases kind <;> simp [alike]

end TokenKind

theorem Token.hasMark_iff {token : Token} {mark : Mark} :
    token.hasMark mark = true ↔ token.kind = .mark mark := by
  simp [hasMark]

theorem Token.isSign_iff {token : Token} :
    token.isSign = true ↔ token.kind = .mark .bang ∨ token.kind = .mark .minus := by
  rw [isSign, Bool.or_eq_true, hasMark_iff, hasMark_iff]

namespace Grammar

open Parsed

/-! ## Rows -/

theorem mem_operators_iff {level : Precedence} {token : Token} :
    token.kind ∈ (tier level).operators ↔ level.hasOperator token = true := by
  cases level <;> simp [tier, Precedence.hasOperator, Precedence.operators,
    TokenKind.alike_mark, TokenKind.alike_keyword]

/-! ## Places

Only a name on its own reads a variable, and only a property at the very end of the
tokens reads a property; so what can be assigned to can be told from its tree. -/

theorem Derives.of_read {form tokens first tree next}
    (derived : Derives form tokens first tree next) : ∀ {id name}, tree = .read id name →
      tokens = [name] ∧ name.kind = .identifier ∧ id = first ∧ next = first + 1 := by
  induction derived using Derives.rec (motive_2 := fun _ _ _ _ _ => True) with
  | operation _ induction => exact induction
  | operand _ induction => exact induction
  | unsigned _ induction => exact induction
  | unapplied _ induction => exact induction
  | @combine level =>
      intro id name equal
      cases level <;> simp [tier] at equal
  | read named =>
      intro id name equal
      cases equal
      exact ⟨rfl, named, rfl, rfl⟩
  | one | more => trivial
  | _ =>
      intro id name equal
      cases equal

theorem Derives.of_get {form tokens first tree next}
    (derived : Derives form tokens first tree next) : ∀ {object name}, tree = .get object name →
      ∃ objectTokens dot, tokens = objectTokens ++ [dot, name] ∧
        Derives .applied objectTokens first object next ∧ dot.kind = .mark .dot ∧
        name.kind = .identifier := by
  induction derived using Derives.rec (motive_2 := fun _ _ _ _ _ => True) with
  | operation _ induction => exact induction
  | operand _ induction => exact induction
  | unsigned _ induction => exact induction
  | unapplied _ induction => exact induction
  | @combine level =>
      intro object name equal
      cases level <;> simp [tier] at equal
  | get derived dotted named =>
      intro object name equal
      cases equal
      exact ⟨_, _, rfl, derived, dotted, named⟩
  | one | more => trivial
  | _ =>
      intro object name equal
      cases equal

/-- An operation that turns out to denote a place may be assigned to. -/
theorem Derives.assigned {form tokens first target middle} {equals : Token}
    {others value next assignment} (derived : Derives form tokens first target middle)
    (equal : equals.kind = .mark .equal) (valued : Derives .expression others middle value next)
    (place : target.assignment? value = some assignment) :
    Derives .expression (tokens ++ equals :: others) first assignment next := by
  unfold Expr.assignment? at place
  split at place
  · cases place
    rcases derived.of_read rfl with ⟨rfl, named, rfl, rfl⟩
    exact .assign named equal valued
  · cases place
    rcases derived.of_get rfl with ⟨objectTokens, dot, rfl, object, dotted, named⟩
    rw [List.append_assoc]
    exact .set object dotted named equal valued
  · cases place

/-! ## Expressions -/

theorem readSuper_finds {input : List Token} {keyword : Token}
    (kind : keyword.kind = .keyword .superWord) :
    (readSuper keyword : Reading input Expr).Finds
      fun tokens first tree next => Derives .primary (keyword :: tokens) first tree next := by
  unfold readSuper
  refine ((Reading.finds_expect _ _).bind fun _ => (Reading.finds_expect _ _).bind fun method =>
    Reading.finds_freshId.bind fun id => Reading.finds_pure _).mono ?_
  rintro tokens first tree next
    ⟨_, _, dot, _, rfl, ⟨rfl, dotted, rfl⟩, _, _, _, _, rfl, ⟨rfl, named, rfl⟩,
      _, _, _, _, rfl, ⟨rfl, rfl, rfl⟩, rfl, rfl, rfl⟩
  exact .super kind (TokenKind.alike_mark.mp dotted) (TokenKind.alike_identifier.mp named)

/-- What continues a construct whose tree is `left`, up to a construct of another form. -/
def Continuing (before after : Form) (left : Expr) : Phrase Expr :=
  fun others middle tree next => ∀ tokens first, Derives before tokens first left middle →
    Derives after (tokens ++ others) first tree next

theorem Continuing.stop {before after : Form} {left : Expr} {middle : OccurrenceId}
    (contained : ∀ tokens first, Derives before tokens first left middle →
      Derives after tokens first left middle) :
    Continuing before after left [] middle left middle := by
  intro tokens first derived
  rw [List.append_nil]
  exact contained tokens first derived

theorem Continuing.start {before after : Form} {tokens : List Token} {first next : OccurrenceId}
    {tree : Expr}
    (both : Phrase.andThen (Derives before) (Continuing before after) tokens first tree next) :
    Derives after tokens first tree next := by
  rcases both with ⟨taken, others, left, middle, rfl, derived, continued⟩
  exact continued taken first derived

/-- Arguments in parentheses, the first of which is already taken. -/
def ArgumentsAndEnd : Phrase (List Expr × Token) :=
  fun tokens first found next =>
    found.2.kind = .mark .rightParen ∧
      (found.1 = [] ∧ tokens = [found.2] ∧ next = first ∨
        ∃ others, tokens = others ++ [found.2] ∧ DerivesArguments others first found.1 next ∧
          found.1.length ≤ maximumArity)

/-- At least one more argument, and the closing parenthesis. -/
def MoreArguments (earlier : List Expr) : Phrase (List Expr × Token) :=
  fun tokens first found next =>
    found.2.kind = .mark .rightParen ∧ found.1.length ≤ maximumArity ∧
      ∃ others arguments, tokens = others ++ [found.2] ∧ found.1 = earlier ++ arguments ∧
        DerivesArguments others first arguments next

theorem MoreArguments.start {tokens : List Token} {first next : OccurrenceId}
    {found : List Expr × Token} (more : MoreArguments [] tokens first found next) :
    ArgumentsAndEnd tokens first found next := by
  rcases more with ⟨ended, bounded, others, arguments, rfl, rfl, derived⟩
  exact ⟨ended, .inr ⟨others, rfl, derived, bounded⟩⟩

theorem ArgumentsAndEnd.call {others : List Token} {middle next : OccurrenceId}
    {found : List Expr × Token} {tokens : List Token} {first : OccurrenceId} {callee : Expr}
    {start : Token} (arguments : ArgumentsAndEnd others middle found next)
    (derived : Derives .applied tokens first callee middle)
    (started : start.kind = .mark .leftParen) :
    Derives .applied (tokens ++ start :: others) first (.call callee found.2 found.1) next := by
  rcases found with ⟨values, paren⟩
  rcases arguments with ⟨ended, ⟨rfl, rfl, rfl⟩ | ⟨others, rfl, several, bounded⟩⟩
  · exact .callEmpty derived started ended
  · exact .call derived started several bounded ended

mutual
theorem readExpr_finds (input : List Token) (draft : Draft) :
    (readExpr input draft).Finds input draft (Derives .expression) := by
  rw [readExpr]
  refine ((readOperation_finds .disjunction input draft).andThen
    (Continuing (.operation .disjunction) .expression) ?_).mono
      fun _ _ _ _ => Continuing.start
  rintro target ⟨rest, shorter⟩ draft
  cases rest with
  | nil => exact finds_accept [] rfl (Continuing.stop fun _ _ => .operation)
  | cons equals others =>
      dsimp only
      split
      · rename_i marked
        have equal := Token.hasMark_iff.mp marked
        have smaller : others.length < input.length := by
          simp only [List.length_cons] at shorter
          omega
        refine ((readExpr_finds others draft).within.andThen
          (fun value rest middle tree next => rest = [] ∧ next = middle ∧
            target.assignment? value = some tree) ?_).after ?_
        · intro value rest draft
          split
          · rename_i assignment place
            exact finds_accept [] rfl ⟨rfl, rfl, place⟩
          · exact finds_report
        · rintro taken start tree next ⟨_, _, value, _, rfl, valued, rfl, rfl, place⟩
            tokens first derived
          rw [List.append_nil]
          exact derived.assigned equal valued place
      · exact finds_accept [] rfl (Continuing.stop fun _ _ => .operation)
termination_by input.length * 32 + 16
decreasing_by
  · exact Nat.lt_succ_self _
  · omega

theorem readOperation_finds (level : Precedence) (input : List Token) (draft : Draft) :
    (readOperation level input draft).Finds input draft (Derives (.operation level)) := by
  rw [readOperation]
  refine ((readOperand_finds level input draft).andThen
    (Continuing (tier level).operand (.operation level)) ?_).mono
      fun _ _ _ _ => Continuing.start
  rintro left rest draft
  have := rest.2
  refine (readOperators_finds level input left rest draft).mono ?_
  intro others middle tree next continued tokens first derived
  exact continued tokens first (.operand derived)
termination_by input.length * 32 + 2 * level.rank + 3
decreasing_by all_goals omega

theorem readOperand_finds (level : Precedence) (input : List Token) (draft : Draft) :
    (readOperand level input draft).Finds input draft (Derives (tier level).operand) := by
  rw [readOperand]
  split
  · rename_i next tighter
    have := Precedence.rank_tighter tighter
    rw [tier_operand, tighter]
    exact readOperation_finds next input draft
  · rename_i tightest
    have := level.rank_pos
    rw [tier_operand, tightest]
    exact readSigned_finds input draft
termination_by input.length * 32 + 2 * level.rank + 2
decreasing_by all_goals omega

theorem readOperators_finds (level : Precedence) (input : List Token) (left : Expr) :
    ∀ (rest : Shorter input) (draft : Draft),
      (readOperators level input left rest draft).Finds rest.1 draft
        (Continuing (.operation level) (.operation level) left)
  | ⟨[], _⟩, _ => by
      rw [readOperators.eq_def]
      exact finds_accept [] rfl (Continuing.stop fun _ _ derived => derived)
  | ⟨operator :: others, shorter⟩, draft => by
      rw [readOperators.eq_def]
      dsimp only
      split
      · rename_i operates
        have := level.rank_le
        refine ((readOperand_finds level others draft).onward
          (fun right => Continuing (.operation level) (.operation level)
            (level.combine left operator right)) ?_).after ?_
        · intro right after draft
          have := after.2
          exact readOperators_finds level input (level.combine left operator right) _ draft
        · rintro _ middle tree next ⟨taken, rest, right, after, rfl, derived, continued⟩
            tokens first before
          rw [← tier_node] at continued
          have combined :=
            continued _ _ (.combine before (mem_operators_iff.mpr operates) derived)
          rwa [List.append_assoc, List.cons_append] at combined
      · exact finds_accept [] rfl (Continuing.stop fun _ _ derived => derived)
termination_by rest => rest.1.length * 32
decreasing_by
  all_goals
    simp only [List.length_cons, Shorter.drop, Shorter.trans] at *
    omega

theorem readSigned_finds (input : List Token) (draft : Draft) :
    (readSigned input draft).Finds input draft (Derives .signed) := by
  cases input with
  | nil =>
      rw [readSigned]
      exact (readApplied_finds [] draft).mono fun _ _ _ _ => .unsigned
  | cons sign others =>
      rw [readSigned]
      split
      · rename_i signs
        refine ((readSigned_finds others draft).within.andThen _ fun right =>
          Reading.finds_pure _).after ?_
        rintro _ first tree next ⟨taken, _, right, _, rfl, derived, rfl, rfl, rfl⟩
        rw [List.append_nil]
        exact .unary (Token.isSign_iff.mp signs) derived
      · exact (readApplied_finds (sign :: others) draft).mono fun _ _ _ _ => .unsigned
termination_by input.length * 32 + 2
decreasing_by
  all_goals
    simp only [List.length_cons, List.length_nil]
    omega

theorem readApplied_finds (input : List Token) (draft : Draft) :
    (readApplied input draft).Finds input draft (Derives .applied) := by
  rw [readApplied]
  refine ((readPrimary_finds input draft).andThen (Continuing .primary .applied)
    ?_).mono fun _ _ _ _ => Continuing.start
  intro callee rest draft
  have := rest.2
  refine (readApplications_finds input callee rest draft).mono ?_
  intro others middle tree next continued tokens first derived
  exact continued tokens first (.unapplied derived)
termination_by input.length * 32 + 1
decreasing_by all_goals omega

theorem readApplications_finds (input : List Token) (callee : Expr) :
    ∀ (rest : Shorter input) (draft : Draft),
      (readApplications input callee rest draft).Finds rest.1 draft
        (Continuing .applied .applied callee)
  | ⟨[], _⟩, _ => by
      rw [readApplications.eq_def]
      exact finds_accept [] rfl (Continuing.stop fun _ _ derived => derived)
  | ⟨token :: others, shorter⟩, draft => by
      rw [readApplications.eq_def]
      dsimp only
      split
      · rename_i marked
        refine ((readArguments_finds others draft).onward
          (fun found => Continuing .applied .applied (.call callee found.2 found.1))
          ?_).after ?_
        · intro found after draft
          have := after.2
          exact readApplications_finds input (.call callee found.2 found.1) _ draft
        · rintro _ middle tree next ⟨taken, rest, found, after, rfl, applied, continued⟩
            tokens first before
          have called := continued _ _ (applied.call before (Token.hasMark_iff.mp marked))
          rwa [List.append_assoc, List.cons_append] at called
      split
      · rename_i marked
        refine ((finds_expectFirst .identifier .propertyName others draft).onward
          (fun name => Continuing .applied .applied (.get callee name))
          ?_).after ?_
        · intro name after draft
          have := after.2
          exact readApplications_finds input (.get callee name) _ draft
        · rintro _ middle tree next ⟨_, rest, name, _, rfl, ⟨rfl, named, rfl⟩, continued⟩
            tokens first before
          have got := continued _ _ (.get before (Token.hasMark_iff.mp marked)
            (TokenKind.alike_identifier.mp named))
          rwa [List.append_assoc] at got
      · exact finds_accept [] rfl (Continuing.stop fun _ _ derived => derived)
termination_by rest => rest.1.length * 32
decreasing_by
  all_goals
    simp only [List.length_cons, Shorter.drop, Shorter.trans] at *
    omega

theorem readArguments_finds (input : List Token) (draft : Draft) :
    (readArguments input draft).Finds input draft ArgumentsAndEnd := by
  cases input with
  | nil =>
      rw [readArguments]
      exact (readArgumentList_finds [] [] draft).mono fun _ _ _ _ => MoreArguments.start
  | cons token others =>
      rw [readArguments]
      split
      · rename_i marked
        exact finds_accept [token] rfl
          ⟨Token.hasMark_iff.mp marked, .inl ⟨rfl, rfl, rfl⟩⟩
      · exact (readArgumentList_finds [] (token :: others) draft).mono
          fun _ _ _ _ => MoreArguments.start
termination_by input.length * 32 + 18
decreasing_by
  all_goals
    simp only [List.length_cons, List.length_nil]
    omega

theorem readArgumentList_finds (earlier : List Expr) (input : List Token) (draft : Draft) :
    (readArgumentList earlier input draft).Finds input draft (MoreArguments earlier) := by
  rw [readArgumentList]
  refine (Finds.unreported ((readExpr_finds input _).andThen
    (fun argument tokens middle found next => ∀ taken first,
      ¬ maximumArity ≤ earlier.length → Derives .expression taken first argument middle →
        MoreArguments earlier (taken ++ tokens) first found next) ?_)).mono ?_
  · rintro argument ⟨rest, shorter⟩ draft
    cases rest with
    | nil => exact finds_reject
    | cons token others =>
        dsimp only
        split
        · rename_i marked
          have smaller : others.length < input.length := by
            simp only [List.length_cons] at shorter
            omega
          refine (readArgumentList_finds (earlier ++ [argument]) others draft).within.after ?_
          rintro _ middle ⟨_, paren⟩ next ⟨ended, bounded, others, arguments, rfl, rfl, several⟩
            taken first _ derived
          refine ⟨ended, bounded, taken ++ token :: others, argument :: arguments, ?_, ?_, ?_⟩
          · simp
          · simp
          · exact .more derived (Token.hasMark_iff.mp marked) several
        split
        · rename_i marked
          refine finds_accept [token] rfl ?_
          intro taken first free derived
          refine ⟨Token.hasMark_iff.mp marked, ?_, taken, [argument], rfl, rfl, .one derived⟩
          rw [List.length_append, List.length_singleton]
          omega
        · exact finds_reject
  · rintro _ first found next ⟨free, taken, tokens, argument, middle, rfl, derived, continued⟩
    exact continued taken first free derived
termination_by input.length * 32 + 17
decreasing_by all_goals omega

theorem readPrimary_finds (input : List Token) (draft : Draft) :
    (readPrimary input draft).Finds input draft (Derives .primary) := by
  cases input with
  | nil =>
      rw [readPrimary]
      exact finds_reject
  | cons token others =>
      have one {tree : Expr} {after : Draft} (same : after.errors = draft.errors)
          (derived : Derives .primary [token] draft.nextId tree after.nextId) :
          (accept tree (.tail token others) after : Parsed Expr (token :: others)).Finds
            (token :: others) draft (Derives .primary) := by
        intro value left last accepted clean
        rcases accepts_accept.mp accepted with ⟨rfl, rfl, rfl⟩
        exact ⟨same ▸ clean, [token], rfl, derived⟩
      rw [readPrimary]
      split
      all_goals rename_i kind
      · exact one rfl (.literal (by simp [literal?, kind]))
      · exact one rfl (.literal (by simp [literal?, kind]))
      · exact one rfl (.literal (by simp [literal?, kind]))
      · exact one rfl (.literal (by simp [literal?, kind]))
      · exact one rfl (.literal (by simp [literal?, kind]))
      · exact one rfl (.this kind)
      · exact one rfl (.read kind)
      · exact ((readSuper_finds kind) (.tail token others) draft).after fun _ _ _ _ found => found
      · refine ((readExpr_finds others draft).within.andThen _ fun inner =>
          (Reading.finds_expect _ _).bind fun _ => Reading.finds_pure _).after ?_
        rintro _ first tree next ⟨taken, _, inner, _, rfl, derived, _, _, finish, _, rfl,
          ⟨rfl, ended, rfl⟩, rfl, rfl, rfl⟩
        exact .group kind derived (TokenKind.alike_mark.mp ended)
      · exact finds_reject
termination_by input.length * 32
decreasing_by
  simp only [List.length_cons]
  omega
end

end Grammar

end Lox
