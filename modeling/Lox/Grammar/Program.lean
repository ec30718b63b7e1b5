import Lox.Grammar.Statement
/-! Whole programs. What stands behind the token that ends the input does not
count. An error at the end is blamed on that token or, in a token list that has
none, on the last token. -/

namespace Lox

/-- The declarations of a program, in order; those that cannot be read are left out. -/
def readProgram (input : List Token) (draft : Draft) : List Stmt × Draft :=
  match input with
  | [] => ([], draft)
  | first :: others =>
      match passDeclaration first others draft with
      | ⟨statement?, rest, draft⟩ =>
          let (statements, draft) := readProgram rest.1 draft
          (statement?.toList ++ statements, draft)
termination_by input.length
decreasing_by exact rest.2

/-- The tokens in front of the first one that ends the input. -/
def sentence (tokens : List Token) : List Token :=
  tokens.takeWhile (!·.isEnd)

/-- The token on which errors at the end are blamed. -/
def finalToken (tokens : List Token) : Token :=
  (tokens.find? Token.isEnd).getD (tokens.getLastD (.endOfInput 1))

/-- What parsing yields. The statements make up the program only when there are
no errors. -/
structure Parse where
  statements : List Stmt
  nextId : OccurrenceId
  errors : List GrammarError
  final : Token

/-- Parse a program whose occurrences are numbered from `firstId` on. -/
def parse (tokens : List Token) (firstId : OccurrenceId) : Parse :=
  let (statements, draft) := readProgram (sentence tokens) (.start firstId)
  ⟨statements, draft.nextId, draft.errors, finalToken tokens⟩

namespace Parse

def blamed (parse : Parse) (error : GrammarError) : Token :=
  error.rest.headD parse.final

def diagnostics (parse : Parse) : List Diagnostic :=
  parse.errors.map fun error => .grammar error.fault (parse.blamed error)

end Parse

end Lox
