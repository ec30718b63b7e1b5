/-! Tokens. A token has a kind, the text it was read from and the line on which
that text ends. Strings and numbers carry their value in the kind. -/

namespace Lox

/-! Punctuation and operators, which are written in one way each. -/

inductive Mark where
  | leftParen
  | rightParen
  | leftBrace
  | rightBrace
  | comma
  | dot
  | minus
  | plus
  | semicolon
  | slash
  | star
  | bang
  | bangEqual
  | equal
  | equalEqual
  | greater
  | greaterEqual
  | less
  | lessEqual
  deriving Repr, DecidableEq

namespace Mark

def text : Mark → String
  | leftParen => "("
  | rightParen => ")"
  | leftBrace => "\x7b"
  | rightBrace => "\x7d"
  | comma => ","
  | dot => "."
  | minus => "-"
  | plus => "+"
  | semicolon => ";"
  | slash => "/"
  | star => "*"
  | bang => "!"
  | bangEqual => "!="
  | equal => "="
  | equalEqual => "=="
  | greater => ">"
  | greaterEqual => ">="
  | less => "<"
  | lessEqual => "<="

def name : Mark → String
  | leftParen => "LEFT_PAREN"
  | rightParen => "RIGHT_PAREN"
  | leftBrace => "LEFT_BRACE"
  | rightBrace => "RIGHT_BRACE"
  | comma => "COMMA"
  | dot => "DOT"
  | minus => "MINUS"
  | plus => "PLUS"
  | semicolon => "SEMICOLON"
  | slash => "SLASH"
  | star => "STAR"
  | bang => "BANG"
  | bangEqual => "BANG_EQUAL"
  | equal => "EQUAL"
  | equalEqual => "EQUAL_EQUAL"
  | greater => "GREATER"
  | greaterEqual => "GREATER_EQUAL"
  | less => "LESS"
  | lessEqual => "LESS_EQUAL"

def all : List Mark :=
  [leftParen, rightParen, leftBrace, rightBrace, comma, dot, minus, plus, semicolon, slash,
    star, bang, bangEqual, equal, equalEqual, greater, greaterEqual, less, lessEqual]

theorem mem_all (mark : Mark) : mark ∈ all := by
  cases mark <;> decide

end Mark

/-! The reserved words. -/

inductive Keyword where
  | andWord
  | classWord
  | elseWord
  | falseWord
  | funWord
  | forWord
  | ifWord
  | nilWord
  | orWord
  | printWord
  | returnWord
  | superWord
  | thisWord
  | trueWord
  | varWord
  | whileWord
  deriving Repr, DecidableEq

namespace Keyword

def text : Keyword → String
  | andWord => "and"
  | classWord => "class"
  | elseWord => "else"
  | falseWord => "false"
  | funWord => "fun"
  | forWord => "for"
  | ifWord => "if"
  | nilWord => "nil"
  | orWord => "or"
  | printWord => "print"
  | returnWord => "return"
  | superWord => "super"
  | thisWord => "this"
  | trueWord => "true"
  | varWord => "var"
  | whileWord => "while"

def name : Keyword → String
  | andWord => "AND"
  | classWord => "CLASS"
  | elseWord => "ELSE"
  | falseWord => "FALSE"
  | funWord => "FUN"
  | forWord => "FOR"
  | ifWord => "IF"
  | nilWord => "NIL"
  | orWord => "OR"
  | printWord => "PRINT"
  | returnWord => "RETURN"
  | superWord => "SUPER"
  | thisWord => "THIS"
  | trueWord => "TRUE"
  | varWord => "VAR"
  | whileWord => "WHILE"

def all : List Keyword :=
  [andWord, classWord, elseWord, falseWord, funWord, forWord, ifWord, nilWord, orWord,
    printWord, returnWord, superWord, thisWord, trueWord, varWord, whileWord]

theorem mem_all (word : Keyword) : word ∈ all := by
  cases word <;> decide

/-- The reserved word that is spelled like this, if there is one. -/
def ofText? (text : String) : Option Keyword :=
  all.find? fun word => word.text == text

/-- A word is reserved only as a whole. -/
example : ofText? "or" = some orWord ∧ ofText? "orchid" = none := by decide

theorem ofText?_eq_some_iff (text : String) (word : Keyword) :
    ofText? text = some word ↔ word.text = text := by
  constructor
  · intro found
    simpa using List.find?_some found
  · intro equal
    subst equal
    cases word <;> decide

end Keyword

inductive TokenKind where
  | mark (sign : Mark)
  | keyword (word : Keyword)
  | identifier
  | string (contents : String)
  | number (value : Float)
  | endOfInput
  deriving Repr, DecidableEq

namespace TokenKind

/-- Two kinds are alike when they differ at most in the value they carry: any two
strings are alike, and so are any two numbers. -/
def alike : TokenKind → TokenKind → Bool
  | mark left, mark right => left == right
  | keyword left, keyword right => left == right
  | identifier, identifier => true
  | string _, string _ => true
  | number _, number _ => true
  | endOfInput, endOfInput => true
  | _, _ => false

example : alike (string "a") (string "b") = true ∧ alike (string "a") identifier = false :=
  ⟨rfl, rfl⟩

def name : TokenKind → String
  | mark sign => sign.name
  | keyword word => word.name
  | identifier => "IDENTIFIER"
  | string _ => "STRING"
  | number _ => "NUMBER"
  | endOfInput => "EOF"

theorem alike_refl (kind : TokenKind) : alike kind kind = true := by
  cases kind <;> simp [alike]

theorem alike_comm (left right : TokenKind) : alike left right = alike right left := by
  cases left <;> cases right <;> simp [alike, Bool.beq_comm]

end TokenKind

structure Token where
  kind : TokenKind
  lexeme : String
  line : Nat
  deriving Repr, DecidableEq

namespace Token

/-- The token that stands behind the last character. -/
def endOfInput (line : Nat) : Token :=
  ⟨.endOfInput, "", line⟩

def isEnd (token : Token) : Bool :=
  match token.kind with
  | .endOfInput => true
  | _ => false

def hasMark (token : Token) (mark : Mark) : Bool :=
  token.kind == .mark mark

/-- Tokens are alike when their kinds are alike and text and line are the same. -/
def alike (left right : Token) : Bool :=
  left.kind.alike right.kind && left.lexeme == right.lexeme && left.line == right.line

theorem alike_refl (token : Token) : alike token token = true := by
  simp [alike, TokenKind.alike_refl]

end Token

end Lox
