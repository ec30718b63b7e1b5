import Lox.Proofs.Grammar.Derivation
/-! The grammar without its limits, as a table of rules. Any operation may stand in front of
an equals sign, and lists may have any length:

    program      = declaration* END ;
    declaration  = class | "fun" function | variable | statement ;
    class        = "class" NAME ("<" NAME)? "{" function* "}" ;
    function     = NAME "(" parameters? ")" block ;
    variable     = "var" NAME ("=" expression)? ";" ;
    statement    = for | if | while | return | block | print | expression ";" ;
    for          = "for" "(" (";" | variable | expression ";") expression? ";"
                   expression? ")" statement ;
    if           = "if" "(" expression ")" statement ("else" statement)? ;
    while        = "while" "(" expression ")" statement ;
    return       = "return" expression? ";" ;
    block        = "{" declaration* "}" ;
    print        = "print" expression ";" ;
    parameters   = NAME ("," NAME)* ;
    expression   = assignment ;
    assignment   = operation ("=" assignment)? ;
    operation    = operand (OPERATOR operand)* ;      for each of the six precedences
    signed       = ("!" | "-") signed | applied ;
    applied      = primary ("(" arguments? ")" | "." NAME)* ;
    arguments    = expression ("," expression)* ;
    primary      = NUMBER | STRING | "true" | "false" | "nil" | "this" | NAME
                 | "(" expression ")" | "super" "." NAME ;

What is still due behind a part of a sentence is a list of patterns. -/

namespace Lox

/-- One of these kinds is like this one. -/
def TokenKind.among (kind : TokenKind) (kinds : List TokenKind) : Bool :=
  kinds.any kind.alike

namespace Grammar

inductive Rule where
  | program
  | declaration
  | classDeclaration
  | functionDeclaration
  | function
  | variableDeclaration
  | statement
  | forStatement
  | conditional
  | loop
  | returnStatement
  | block
  | printStatement
  | expressionStatement
  | parameters
  | expression
  | assignment
  | operation (level : Precedence)
  | signed
  | applied
  | arguments
  | primary
  deriving DecidableEq

/-- What a rule allows. -/
inductive Pattern where
  | token (kinds : List TokenKind)
  | rule (name : Rule)
  | seq (first second : Pattern)
  | choice (first second : Pattern)
  | optional (part : Pattern)
  | many (part : Pattern)
  deriving DecidableEq

namespace Pattern

def inOrder (first : Pattern) : List Pattern → Pattern
  | [] => first
  | second :: others => seq first (inOrder second others)

def oneOf (first : Pattern) : List Pattern → Pattern
  | [] => first
  | second :: others => choice first (oneOf second others)

def mark (mark : Mark) : Pattern :=
  token [.mark mark]

def word (word : Keyword) : Pattern :=
  token [.keyword word]

def name : Pattern :=
  token [.identifier]

def inParens (part : Pattern) : Pattern :=
  inOrder (mark .leftParen) [part, mark .rightParen]

/-- What stands between the operators of a precedence. -/
def operand (level : Precedence) : Pattern :=
  match level.tighter? with
  | some next => rule (.operation next)
  | none => rule .signed

def elseBranch : Pattern :=
  optional (inOrder (word .elseWord) [rule .statement])

end Pattern

/-- The kinds of the tokens that are a value or a name on their own. -/
def valueKinds : List TokenKind :=
  [.number 0, .string "", .keyword .trueWord, .keyword .falseWord, .keyword .nilWord,
    .keyword .thisWord, .identifier]

open Pattern in
/-- What a rule stands for. -/
def Rule.body : Rule → Pattern
  | program => inOrder (many (rule declaration)) [token [.endOfInput]]
  | declaration =>
      oneOf (rule classDeclaration)
        [rule functionDeclaration, rule variableDeclaration, rule statement]
  | classDeclaration =>
      inOrder (word .classWord) [name, optional (inOrder (mark .less) [name]), mark .leftBrace,
        many (rule function), mark .rightBrace]
  | functionDeclaration => inOrder (word .funWord) [rule function]
  | function => inOrder name [inParens (optional (rule parameters)), rule block]
  | variableDeclaration =>
      inOrder (word .varWord) [name, optional (inOrder (mark .equal) [rule expression]),
        mark .semicolon]
  | statement =>
      oneOf (rule forStatement) [rule conditional, rule loop, rule returnStatement, rule block,
        rule printStatement, rule expressionStatement]
  | forStatement =>
      inOrder (word .forWord) [mark .leftParen,
        oneOf (mark .semicolon) [rule variableDeclaration, rule expressionStatement],
        optional (rule expression), mark .semicolon, optional (rule expression), mark .rightParen,
        rule statement]
  | conditional =>
      inOrder (word .ifWord) [inParens (rule expression), rule statement, elseBranch]
  | loop => inOrder (word .whileWord) [inParens (rule expression), rule statement]
  | returnStatement =>
      inOrder (word .returnWord) [optional (rule expression), mark .semicolon]
  | block => inOrder (mark .leftBrace) [many (rule declaration), mark .rightBrace]
  | printStatement => inOrder (word .printWord) [rule expression, mark .semicolon]
  | expressionStatement => inOrder (rule expression) [mark .semicolon]
  | parameters => inOrder name [many (inOrder (mark .comma) [name])]
  | expression => rule assignment
  | assignment =>
      inOrder (rule (operation .disjunction))
        [optional (inOrder (mark .equal) [rule assignment])]
  | operation level =>
      inOrder (operand level) [many (inOrder (token level.operators) [operand level])]
  | signed =>
      oneOf (inOrder (token [.mark .bang, .mark .minus]) [rule signed]) [rule applied]
  | applied =>
      inOrder (rule primary)
        [many (oneOf (inParens (optional (rule arguments))) [inOrder (mark .dot) [name]])]
  | arguments => inOrder (rule expression) [many (inOrder (mark .comma) [rule expression])]
  | primary =>
      oneOf (token valueKinds)
        [inParens (rule expression), inOrder (word .superWord) [mark .dot, name]]

/-- The tokens make up the pattern. -/
inductive Pattern.Matches : Pattern → List Token → Prop
  | token {kinds} {token : Token} :
      token.kind.among kinds = true → Matches (.token kinds) [token]
  | rule {name tokens} : Matches name.body tokens → Matches (.rule name) tokens
  | seq {first second front back} :
      Matches first front → Matches second back → Matches (.seq first second) (front ++ back)
  | first {first second tokens} : Matches first tokens → Matches (.choice first second) tokens
  | second {first second tokens} : Matches second tokens → Matches (.choice first second) tokens
  | absent {part} : Matches (.optional part) []
  | present {part tokens} : Matches part tokens → Matches (.optional part) tokens
  | none {part} : Matches (.many part) []
  | more {part front back} :
      Matches part front → Matches (.many part) back → Matches (.many part) (front ++ back)

/-- The tokens, with the one that ends the input, form a sentence of the grammar without its
limits. -/
def LooseSentence (tokens : List Token) : Prop :=
  (Pattern.rule .program).Matches tokens

/-- A sentence can start with these tokens. -/
def Viable (tokens : List Token) : Prop :=
  ∃ more, LooseSentence (tokens ++ more)

/-! ## What is due -/

/-- The tokens make up these patterns, one after the other. -/
def Yields : List Pattern → List Token → Prop
  | [], tokens => tokens = []
  | pattern :: others, tokens =>
      ∃ front back, tokens = front ++ back ∧ pattern.Matches front ∧ Yields others back

section

variable {others others' : List Pattern} {tokens : List Token}

theorem yields_singleton {pattern : Pattern} :
    Yields [pattern] tokens ↔ pattern.Matches tokens := by
  simp [Yields]

theorem yields_token {kinds : List TokenKind} : Yields (.token kinds :: others) tokens ↔
    ∃ token rest, tokens = token :: rest ∧ token.kind.among kinds = true ∧ Yields others rest := by
  constructor
  · rintro ⟨front, back, rfl, matched, rest⟩
    cases matched with
    | token among => exact ⟨_, back, rfl, among, rest⟩
  · rintro ⟨token, rest, rfl, among, yields⟩
    exact ⟨[token], rest, rfl, .token among, yields⟩

theorem yields_rule {name : Rule} :
    Yields (.rule name :: others) tokens ↔ Yields (name.body :: others) tokens := by
  constructor
  · rintro ⟨front, back, rfl, matched, rest⟩
    cases matched with
    | rule matched => exact ⟨front, back, rfl, matched, rest⟩
  · rintro ⟨front, back, rfl, matched, rest⟩
    exact ⟨front, back, rfl, .rule matched, rest⟩

theorem yields_seq {first second : Pattern} :
    Yields (.seq first second :: others) tokens ↔ Yields (first :: second :: others) tokens := by
  constructor
  · rintro ⟨_, back, rfl, matched, rest⟩
    cases matched with
    | seq one two => exact ⟨_, _, List.append_assoc .., one, _, back, rfl, two, rest⟩
  · rintro ⟨front, _, rfl, one, middle, back, rfl, two, rest⟩
    exact ⟨front ++ middle, back, (List.append_assoc ..).symm, .seq one two, rest⟩

theorem yields_choice {first second : Pattern} : Yields (.choice first second :: others) tokens ↔
    Yields (first :: others) tokens ∨ Yields (second :: others) tokens := by
  constructor
  · rintro ⟨front, back, rfl, matched, rest⟩
    cases matched with
    | first matched => exact .inl ⟨front, back, rfl, matched, rest⟩
    | second matched => exact .inr ⟨front, back, rfl, matched, rest⟩
  · rintro (⟨front, back, rfl, matched, rest⟩ | ⟨front, back, rfl, matched, rest⟩)
    · exact ⟨front, back, rfl, .first matched, rest⟩
    · exact ⟨front, back, rfl, .second matched, rest⟩

theorem yields_optional {part : Pattern} : Yields (.optional part :: others) tokens ↔
    Yields (part :: others) tokens ∨ Yields others tokens := by
  constructor
  · rintro ⟨front, back, rfl, matched, rest⟩
    cases matched with
    | absent => exact .inr rest
    | present matched => exact .inl ⟨front, back, rfl, matched, rest⟩
  · rintro (⟨front, back, rfl, matched, rest⟩ | rest)
    · exact ⟨front, back, rfl, .present matched, rest⟩
    · exact ⟨[], tokens, rfl, .absent, rest⟩

theorem yields_many {part : Pattern} : Yields (.many part :: others) tokens ↔
    Yields (part :: .many part :: others) tokens ∨ Yields others tokens := by
  constructor
  · rintro ⟨_, back, rfl, matched, rest⟩
    cases matched with
    | none => exact .inr rest
    | more one several => exact .inl ⟨_, _, List.append_assoc .., one, _, back, rfl, several, rest⟩
  · rintro (⟨front, _, rfl, one, middle, back, rfl, several, rest⟩ | rest)
    · exact ⟨front ++ middle, back, (List.append_assoc ..).symm, .more one several, rest⟩
    · exact ⟨[], tokens, rfl, .none, rest⟩

theorem Yields.mono {pattern : Pattern} (weaker : ∀ tokens, Yields others tokens →
    Yields others' tokens) (yields : Yields (pattern :: others) tokens) :
    Yields (pattern :: others') tokens := by
  rcases yields with ⟨front, back, rfl, matched, rest⟩
  exact ⟨front, back, rfl, matched, weaker back rest⟩

end

/-! ## Every pattern can be made up -/

/-- The rules, with those of which a shortest text is made first in front. -/
def Rule.rank : Rule → Nat
  | primary => 0
  | applied => 1
  | signed => 2
  | operation level => 2 + level.rank
  | assignment => 9
  | expression | parameters => 10
  | arguments | expressionStatement | variableDeclaration | block | printStatement
  | returnStatement => 11
  | statement | function => 12
  | loop | conditional | forStatement | functionDeclaration | classDeclaration => 13
  | declaration => 14
  | program => 15

/-- A text of the pattern can be made from rules below this rank. -/
def Pattern.madeBelow (rank : Nat) : Pattern → Bool
  | token kinds => !kinds.isEmpty
  | rule name => name.rank < rank
  | seq first second => first.madeBelow rank && second.madeBelow rank
  | choice first second => first.madeBelow rank || second.madeBelow rank
  | optional _ | many _ => true

theorem Rule.body_madeBelow (name : Rule) : name.body.madeBelow name.rank = true := by
  cases name with
  | operation level => cases level <;> rfl
  | _ => rfl

theorem Rule.rank_lt (name : Rule) : name.rank < 16 := by
  cases name with
  | operation level =>
      have := level.rank_le
      simp only [rank]
      omega
  | _ => decide

theorem Pattern.exists_matches_of_madeBelow {rank : Nat} {pattern : Pattern}
    (lower : ∀ name : Rule, name.rank < rank → ∃ tokens, (Pattern.rule name).Matches tokens)
    (made : pattern.madeBelow rank = true) : ∃ tokens, pattern.Matches tokens := by
  induction pattern with
  | token kinds =>
      cases kinds with
      | nil => cases made
      | cons kind others =>
          exact ⟨[⟨kind, "", 1⟩], .token (by simp [TokenKind.among, TokenKind.alike_refl])⟩
  | rule name => exact lower name (of_decide_eq_true made)
  | seq first second one two =>
      rcases Bool.and_eq_true_iff.mp made with ⟨made, made'⟩
      rcases one made with ⟨front, matched⟩
      rcases two made' with ⟨back, matched'⟩
      exact ⟨front ++ back, .seq matched matched'⟩
  | choice first second one two =>
      rcases Bool.or_eq_true_iff.mp made with made | made
      · rcases one made with ⟨tokens, matched⟩
        exact ⟨tokens, .first matched⟩
      · rcases two made with ⟨tokens, matched⟩
        exact ⟨tokens, .second matched⟩
  | optional part => exact ⟨[], .absent⟩
  | many part => exact ⟨[], .none⟩

theorem Rule.exists_matches (name : Rule) : ∃ tokens, (Pattern.rule name).Matches tokens := by
  rcases Pattern.exists_matches_of_madeBelow (fun lower _ => exists_matches lower)
    name.body_madeBelow with ⟨tokens, matched⟩
  exact ⟨tokens, .rule matched⟩
termination_by name.rank

end Grammar

end Lox
