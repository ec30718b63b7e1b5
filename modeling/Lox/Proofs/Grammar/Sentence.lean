import Lox.Proofs.Grammar.StatementCompleteness
import Lox.Proofs.Grammar.StatementSoundness
/-! Sentences of the grammar and their trees. The grammar alone leaves open which
conditional an `else` belongs to; every sentence can be derived with each `else` at
the nearest conditional that can take it, and then it has one tree only. -/

namespace Lox.Grammar

/-! ## Numbering

A phrase has a tree from whatever occurrence number it is read. -/

theorem Derives.from {form tokens first tree next} (derived : Derives form tokens first tree next) :
    ∀ start, ∃ other last, Derives form tokens start other last := by
  induction derived using Derives.rec (motive_2 := fun tokens _ arguments _ _ => ∀ start,
    ∃ others last, DerivesArguments tokens start others last ∧
      others.length = arguments.length) with
  | operation _ induction =>
      intro start
      rcases induction start with ⟨_, _, found⟩
      exact ⟨_, _, .operation found⟩
  | assign named equal _ induction =>
      intro start
      rcases induction (start + 1) with ⟨_, _, found⟩
      exact ⟨_, _, .assign named equal found⟩
  | set _ dotted named equal _ objectInduction induction =>
      intro start
      rcases objectInduction start with ⟨_, middle, object⟩
      rcases induction middle with ⟨_, _, found⟩
      exact ⟨_, _, .set object dotted named equal found⟩
  | operand _ induction =>
      intro start
      rcases induction start with ⟨_, _, found⟩
      exact ⟨_, _, .operand found⟩
  | combine _ operates _ leftInduction rightInduction =>
      intro start
      rcases leftInduction start with ⟨_, middle, left⟩
      rcases rightInduction middle with ⟨_, _, right⟩
      exact ⟨_, _, .combine left operates right⟩
  | unary signs _ induction =>
      intro start
      rcases induction start with ⟨_, _, found⟩
      exact ⟨_, _, .unary signs found⟩
  | unsigned _ induction =>
      intro start
      rcases induction start with ⟨_, _, found⟩
      exact ⟨_, _, .unsigned found⟩
  | unapplied _ induction =>
      intro start
      rcases induction start with ⟨_, _, found⟩
      exact ⟨_, _, .unapplied found⟩
  | callEmpty _ started ended induction =>
      intro start
      rcases induction start with ⟨_, _, found⟩
      exact ⟨_, _, .callEmpty found started ended⟩
  | call _ started _ bounded ended calleeInduction induction =>
      intro start
      rcases calleeInduction start with ⟨_, middle, callee⟩
      rcases induction middle with ⟨_, _, several, length⟩
      exact ⟨_, _, .call callee started several (by rw [length]; exact bounded) ended⟩
  | get _ dotted named induction =>
      intro start
      rcases induction start with ⟨_, _, found⟩
      exact ⟨_, _, .get found dotted named⟩
  | literal written => exact fun _ => ⟨_, _, .literal written⟩
  | this kind => exact fun _ => ⟨_, _, .this kind⟩
  | read kind => exact fun _ => ⟨_, _, .read kind⟩
  | group started _ finished induction =>
      intro start
      rcases induction start with ⟨_, _, found⟩
      exact ⟨_, _, .group started found finished⟩
  | super kind dotted named => exact fun _ => ⟨_, _, .super kind dotted named⟩
  | one _ induction =>
      rename_i start
      rcases induction start with ⟨_, _, found⟩
      exact ⟨_, _, .one found, rfl⟩
  | more _ parted _ firstInduction induction =>
      rename_i start
      rcases firstInduction start with ⟨_, middle, found⟩
      rcases induction middle with ⟨_, _, several, length⟩
      exact ⟨_, _, .more found parted several, by rw [List.length_cons, length, List.length_cons]⟩

theorem OptionalExpr.from {tokens first tree? next} (found : OptionalExpr tokens first tree? next)
    (start : OccurrenceId) : ∃ other? last, OptionalExpr tokens start other? last := by
  cases found with
  | none => exact ⟨_, _, .none⟩
  | some derived =>
      rcases derived.from start with ⟨_, _, found⟩
      exact ⟨_, _, .some found⟩

theorem ExpressionStatement.from {tokens first stmt next}
    (found : ExpressionStatement tokens first stmt next) (start : OccurrenceId) :
    ∃ other last, ExpressionStatement tokens start other last := by
  cases found with
  | mk derived ended =>
      rcases derived.from start with ⟨_, _, found⟩
      exact ⟨_, _, .mk found ended⟩

theorem VariableStatement.from {tokens first stmt next}
    (found : VariableStatement tokens first stmt next) (start : OccurrenceId) :
    ∃ other last, VariableStatement tokens start other last := by
  cases found with
  | mk kind named initialized ended =>
      cases initialized with
      | none => exact ⟨_, _, .mk kind named .none ended⟩
      | some equal derived =>
          rcases derived.from start with ⟨_, _, found⟩
          exact ⟨_, _, .mk kind named (.some equal found) ended⟩

theorem LoopInitializer.from {tokens first initializer next}
    (found : LoopInitializer tokens first initializer next) (start : OccurrenceId) :
    ∃ other last, LoopInitializer tokens start other last := by
  cases found with
  | none ended => exact ⟨_, _, .none ended⟩
  | var declared =>
      rcases declared.from start with ⟨_, _, found⟩
      exact ⟨_, _, .var found⟩
  | expression stated =>
      rcases stated.from start with ⟨_, _, found⟩
      exact ⟨_, _, .expression found⟩

theorem Superclass.from {tokens first superclass next}
    (found : Superclass tokens first superclass next) (start : OccurrenceId) :
    ∃ other last, Superclass tokens start other last := by
  cases found with
  | none => exact ⟨_, _, .none⟩
  | some kind named => exact ⟨_, _, .some kind named⟩

/-! ## The nearest conditional -/

/-- An `else` behind a statement that can take one goes to its innermost last conditional. -/
theorem Statement.withElse {takesElse tokens first stmt next}
    (taker : Statement true takesElse tokens first stmt next) (takes : takesElse = true)
    {elseWord : Token} (turns : elseWord.kind = .keyword .elseWord) {elseTakes rest elseBranch last}
    (branch : Statement true elseTakes rest next elseBranch last) :
    ∃ stillTakes whole,
      Statement true stillTakes (tokens ++ elseWord :: rest) first whole last := by
  match taker with
  | .expression _ | .print _ _ _ | .returns _ _ _ | .block _ _ _ => cases takes
  | .loop kind started derived finished body =>
      rcases body.withElse takes turns branch with ⟨_, _, found⟩
      have whole := Statement.loop kind started derived finished found
      exact ⟨_, _, by simpa using whole⟩
  | .forLoop kind started initialized tests ended steps finished body =>
      rcases body.withElse takes turns branch with ⟨_, _, found⟩
      have whole := Statement.forLoop kind started initialized tests ended steps finished found
      exact ⟨_, _, by simpa using whole⟩
  | @Statement.conditional _ _ _ _ _ _ _ _ thenTakesElse _ _ _ kind started derived finished
      thenBranch =>
      by_cases taken : thenTakesElse = true
      · rcases thenBranch.withElse taken turns branch with ⟨_, _, found⟩
        have whole := Statement.conditional kind started derived finished found
        exact ⟨_, _, by simpa using whole⟩
      · have whole := Statement.conditionalElse kind started derived finished thenBranch
          (fun _ => Bool.eq_false_iff.mpr taken) turns branch
        exact ⟨_, _, by simpa using whole⟩
  | .conditionalElse kind started derived finished thenBranch strict earlier elseBranch =>
      rcases elseBranch.withElse takes turns branch with ⟨_, _, found⟩
      have whole := Statement.conditionalElse kind started derived finished thenBranch strict
        earlier found
      exact ⟨_, _, by simpa using whole⟩

mutual
theorem Declaration.nearest {tokens first stmt next} :
    Declaration false tokens first stmt next →
      ∀ start, ∃ other last, Declaration true tokens start other last
  | .classDecl kind named inherits started methods finished, start => by
      rcases inherits.from start with ⟨_, middle, inherits⟩
      rcases methods.nearest middle with ⟨_, _, methods⟩
      exact ⟨_, _, .classDecl kind named inherits started methods finished⟩
  | .function kind routine, start => by
      rcases routine.nearest start with ⟨_, _, routine⟩
      exact ⟨_, _, .function kind routine⟩
  | .var declared, start => by
      rcases declared.from start with ⟨_, _, declared⟩
      exact ⟨_, _, .var declared⟩
  | .statement derived, start => by
      rcases derived.nearest start with ⟨_, _, _, derived⟩
      exact ⟨_, _, .statement derived⟩

theorem Declarations.nearest {tokens first stmts next} :
    Declarations false tokens first stmts next →
      ∀ start, ∃ others last, Declarations true tokens start others last
  | .nil, _ => ⟨_, _, .nil⟩
  | .cons declared several, start => by
      rcases declared.nearest start with ⟨_, middle, declared⟩
      rcases several.nearest middle with ⟨_, _, several⟩
      exact ⟨_, _, .cons declared several⟩

theorem Methods.nearest {tokens first methods next} :
    Methods false tokens first methods next →
      ∀ start, ∃ others last, Methods true tokens start others last
  | .nil, _ => ⟨_, _, .nil⟩
  | .cons method several, start => by
      rcases method.nearest start with ⟨_, middle, method⟩
      rcases several.nearest middle with ⟨_, _, several⟩
      exact ⟨_, _, .cons method several⟩

theorem Function.nearest {tokens first routine next} :
    Function false tokens first routine next →
      ∀ start, ∃ other last, Function true tokens start other last
  | .mk named started listed finished opened body closed, start => by
      rcases body.nearest start with ⟨_, _, body⟩
      exact ⟨_, _, .mk named started listed finished opened body closed⟩

theorem Statement.nearest {takesElse tokens first stmt next} :
    Statement false takesElse tokens first stmt next →
      ∀ start, ∃ takesElse other last, Statement true takesElse tokens start other last
  | .expression stated, start => by
      rcases stated.from start with ⟨_, _, stated⟩
      exact ⟨_, _, _, .expression stated⟩
  | .print kind derived ended, start => by
      rcases derived.from start with ⟨_, _, derived⟩
      exact ⟨_, _, _, .print kind derived ended⟩
  | .returns kind found ended, start => by
      rcases found.from start with ⟨_, _, found⟩
      exact ⟨_, _, _, .returns kind found ended⟩
  | .block opened body closed, start => by
      rcases body.nearest start with ⟨_, _, body⟩
      exact ⟨_, _, _, .block opened body closed⟩
  | .loop kind started derived finished body, start => by
      rcases derived.from start with ⟨_, middle, derived⟩
      rcases body.nearest middle with ⟨_, _, _, body⟩
      exact ⟨_, _, _, .loop kind started derived finished body⟩
  | .forLoop kind started initialized tests ended steps finished body, start => by
      rcases initialized.from start with ⟨_, afterInitial, initialized⟩
      rcases tests.from afterInitial with ⟨_, afterTest, tests⟩
      rcases steps.from afterTest with ⟨_, afterStep, steps⟩
      rcases body.nearest afterStep with ⟨_, _, _, body⟩
      exact ⟨_, _, _, .forLoop kind started initialized tests ended steps finished body⟩
  | .conditional kind started derived finished thenBranch, start => by
      rcases derived.from start with ⟨_, middle, derived⟩
      rcases thenBranch.nearest middle with ⟨_, _, _, thenBranch⟩
      exact ⟨_, _, _, .conditional kind started derived finished thenBranch⟩
  | .conditionalElse kind started derived finished thenBranch _ turns elseBranch, start => by
      rcases derived.from start with ⟨_, middle, derived⟩
      rcases thenBranch.nearest middle with ⟨thenTakesElse, _, afterThen, thenBranch⟩
      rcases elseBranch.nearest afterThen with ⟨_, _, _, elseBranch⟩
      cases thenTakesElse with
      | false =>
          exact ⟨_, _, _, .conditionalElse kind started derived finished thenBranch (fun _ => rfl)
            turns elseBranch⟩
      | true =>
          rcases thenBranch.withElse rfl turns elseBranch with ⟨_, _, thenBranch⟩
          exact ⟨_, _, _, .conditional kind started derived finished thenBranch⟩
end

/-! ## Sentences -/

theorem readProgram_clean_iff {tokens : List Token} {firstId : OccurrenceId} :
    (readProgram tokens (.start firstId)).2.errors = [] ↔ Sentence tokens := by
  constructor
  · intro clean
    exact ⟨_, _, _, (readProgram_finds tokens (.start firstId) clean).2⟩
  · rintro ⟨_, _, _, several⟩
    rcases several.nearest firstId with ⟨statements, next, several⟩
    have read := several.completes.2 []
    rw [Draft.start, read]

/-- A program that is read without an error has one tree, and it is the one that is read. -/
theorem readProgram_tree {tokens : List Token} {firstId : OccurrenceId}
    (clean : (readProgram tokens (.start firstId)).2.errors = []) {statements : List Stmt}
    {next : OccurrenceId} :
    Declarations true tokens firstId statements next ↔
      statements = (readProgram tokens (.start firstId)).1 ∧
        next = (readProgram tokens (.start firstId)).2.nextId := by
  constructor
  · intro several
    have read := several.completes.2 []
    rw [Draft.start, read]
    exact ⟨rfl, rfl⟩
  · rintro ⟨rfl, rfl⟩
    rcases readProgram_clean_iff.mp clean with ⟨_, _, _, several⟩
    rcases several.nearest firstId with ⟨statements, next, several⟩
    have read := several.completes.2 []
    rw [Draft.start, read]
    exact several

theorem sentence_closed {before others : List Token} {final : Token}
    (inside : ∀ token ∈ before, token.isEnd = false) (ended : final.isEnd = true) :
    sentence (before ++ final :: others) = before := by
  unfold sentence
  rw [List.takeWhile_append_of_pos (by simpa using inside)]
  simp [ended]

theorem sentence_append {tokens : List Token} {final : Token} (ended : final.isEnd = true)
    (inside : ∀ token ∈ tokens, token.isEnd = false) : sentence (tokens ++ [final]) = tokens :=
  sentence_closed inside ended

/-! ## A sentence with choices inside of a loop

In `for(;;a)if(b)if(c)d=e-f-g*h;else print i;` the `else` could belong to each conditional, and the
differences could be grouped to each side. -/

namespace Nested

open Token

/-- The operation `e-f-g*h`. -/
def operation : List Token :=
  [ofName "e", ofMark .minus, ofName "f", ofMark .minus, ofName "g", ofMark .star, ofName "h"]

/-- The statement `d=e-f-g*h;`. -/
def assignment : List Token :=
  ofName "d" :: ofMark .equal :: (operation ++ [ofMark .semicolon])

/-- The statement `if(c)d=e-f-g*h;else print i;`. -/
def conditional : List Token :=
  [ofWord .ifWord, ofMark .leftParen, ofName "c", ofMark .rightParen] ++ assignment ++
    [ofWord .elseWord, ofWord .printWord, ofName "i", ofMark .semicolon]

/-- The statement `for(;;a)if(b)if(c)d=e-f-g*h;else print i;`. -/
def tokens : List Token :=
  [ofWord .forWord, ofMark .leftParen, ofMark .semicolon, ofMark .semicolon, ofName "a",
    ofMark .rightParen, ofWord .ifWord, ofMark .leftParen, ofName "b", ofMark .rightParen] ++
    conditional

def difference : Expr :=
  .binary (.binary (.read 4 (ofName "e")) (ofMark .minus) (.read 5 (ofName "f"))) (ofMark .minus)
    (.binary (.read 6 (ofName "g")) (ofMark .star) (.read 7 (ofName "h")))

def choice : Stmt :=
  .conditional (.read 2 (ofName "c")) (.expression (.assign 3 (ofName "d") difference))
    (some (.print (.read 8 (ofName "i"))))

def tree : Stmt :=
  .loop (.literal (.bool true))
    (.block [.conditional (.read 1 (ofName "b")) choice none,
      .expression (.read 0 (ofName "a"))])

theorem read (text : String) (first : OccurrenceId) :
    Derives .signed [ofName text] first (.read first (ofName text)) (first + 1) :=
  .unsigned (.unapplied (.read rfl))

theorem expression (text : String) (first : OccurrenceId) :
    Derives .expression [ofName text] first (.read first (ofName text)) (first + 1) :=
  .expression_of_primary (.read rfl)

theorem operation_derived : Derives (.operation .sum) operation 4 difference 8 := by
  have left : Derives (.operation .sum) [ofName "e", ofMark .minus, ofName "f"] 4
      (.binary (.read 4 (ofName "e")) (ofMark .minus) (.read 5 (ofName "f"))) 6 :=
    .combine ((read "e" 4).operation_of_signed .sum) (.head _)
      ((read "f" 5).operation_of_signed .product)
  have right : Derives (.operation .product) [ofName "g", ofMark .star, ofName "h"] 6
      (.binary (.read 6 (ofName "g")) (ofMark .star) (.read 7 (ofName "h"))) 8 :=
    .combine ((read "g" 6).operation_of_signed .product) (.head _) (read "h" 7)
  exact .combine left (.head _) right

theorem assignment_stated (nearest : Bool) : Statement nearest false assignment 3
    (.expression (.assign 3 (ofName "d") difference)) 8 := by
  have disjunction : Derives (.operation .disjunction) operation 4 difference 8 :=
    .operand (.operand (.operand (.operand operation_derived)))
  have assigned : Derives .expression (ofName "d" :: ofMark .equal :: operation) 3
      (.assign 3 (ofName "d") difference) 8 := .assign rfl rfl (.operation disjunction)
  exact .expression (.mk assigned rfl)

theorem conditional_stated (nearest : Bool) :
    Statement nearest false conditional 2 choice 9 := by
  have elseBranch : Statement nearest false
      [ofWord .printWord, ofName "i", ofMark .semicolon] 8 (.print (.read 8 (ofName "i"))) 9 :=
    .print rfl (expression "i" 8) rfl
  exact .conditionalElse rfl rfl (expression "c" 2) rfl (assignment_stated nearest) (fun _ => rfl)
    rfl elseBranch

theorem tokens_declared (nearest : Bool) : Declarations nearest tokens 0 [tree] 9 := by
  have body : Statement nearest true
      (ofWord .ifWord :: ofMark .leftParen :: ([ofName "b"] ++ ofMark .rightParen :: conditional)) 1
      (.conditional (.read 1 (ofName "b")) choice none) 9 :=
    .conditional rfl rfl (expression "b" 1) rfl (conditional_stated nearest)
  have loop : Statement nearest true tokens 0 tree 9 :=
    .forLoop rfl rfl (.none rfl) .none rfl (.some (expression "a" 0)) rfl body
  have declared : Declarations nearest (tokens ++ []) 0 [tree] 9 := .cons (.statement loop) .nil
  rwa [List.append_nil] at declared

end Nested

/-- A program is accepted exactly if it is a sentence of the grammar. An accepted program
has one tree in which each `else` belongs to the nearest conditional that can take it, and
that tree is what parsing yields. -/
theorem parse_accepts_sentences {tokens : List Token} {final : Token} (firstId : OccurrenceId)
    (ended : final.isEnd = true) (inside : ∀ token ∈ tokens, token.isEnd = false) :
    ((parse (tokens ++ [final]) firstId).diagnostics = [] ↔ Sentence tokens) ∧
    ((parse (tokens ++ [final]) firstId).diagnostics = [] → ∀ statements next,
      Declarations true tokens firstId statements next ↔
        statements = (parse (tokens ++ [final]) firstId).statements ∧
          next = (parse (tokens ++ [final]) firstId).nextId) := by
  have whole := sentence_append ended inside
  have clean : (parse (tokens ++ [final]) firstId).diagnostics = [] ↔
      (readProgram tokens (.start firstId)).2.errors = [] := by
    rw [Parse.diagnostics, List.map_eq_nil_iff, parse, whole]
  constructor
  · rw [clean]
    exact readProgram_clean_iff
  · intro accepted statements next
    rw [parse, whole]
    exact readProgram_tree (clean.mp accepted)

/-- The `else` belongs to the inner conditional, and the differences are grouped to the left. -/
theorem parse_accepts_sentences_nested :
    (parse (Nested.tokens ++ [.endOfInput 1]) 0).diagnostics = [] ∧
      (parse (Nested.tokens ++ [.endOfInput 1]) 0).statements = [Nested.tree] ∧
        (parse (Nested.tokens ++ [.endOfInput 1]) 0).nextId = 9 := by
  have ended : (Token.endOfInput 1).isEnd = true := rfl
  have inside : ∀ token ∈ Nested.tokens, token.isEnd = false := by decide
  rcases parse_accepts_sentences 0 ended inside with ⟨accepted, built⟩
  have clean := accepted.mpr ⟨0, _, 9, Nested.tokens_declared false⟩
  rcases (built clean _ _).mp (Nested.tokens_declared true) with ⟨statements, nextId⟩
  exact ⟨clean, statements.symm, nextId.symm⟩

end Lox.Grammar
