import Lox.Source.Piece
/-! What scanning yields. The lexemes of a source become tokens, and what starts
no lexeme becomes a lexical diagnostic; blanks and comments leave no item. The
last item is the token that ends the input. -/

namespace Lox

inductive Item where
  | token (found : Token)
  | problem (diagnostic : Diagnostic)
  deriving Repr, DecidableEq

namespace Piece

def newlines (piece : Piece) : Nat :=
  piece.text.countP isLineEnd

/-- The item of a piece whose last character stands on `line`. A lexeme that
spans several lines belongs to the last of them. -/
def item? (piece : Piece) (line : Nat) : Option Item :=
  match piece with
  | blank _ => none
  | comment _ => none
  | lexeme kind text => some (.token ⟨kind, String.ofList text, line⟩)
  | stray character => some (.problem (.lexical (.unexpectedCharacter character) line))
  | unclosed _ => some (.problem (.lexical .unterminatedString line))

end Piece

namespace Item

/-- The items of the remaining pieces, the first of which starts on `line`. -/
def ofPieces (line : Nat) : List Piece → List Item
  | [] => [.token (.endOfInput line)]
  | piece :: rest =>
      let after := line + piece.newlines
      (piece.item? after).toList ++ ofPieces after rest

def token? : Item → Option Token
  | token found => some found
  | problem _ => none

def problem? : Item → Option Diagnostic
  | token _ => none
  | problem diagnostic => some diagnostic

end Item

def scan (source : String) : List Item :=
  Item.ofPieces 1 (pieces source.toList)

/-- The tokens of a source; the last of them ends the input. -/
def tokensOf (source : String) : List Token :=
  (scan source).filterMap Item.token?

def lexicalProblems (source : String) : List Diagnostic :=
  (scan source).filterMap Item.problem?

example : tokensOf "a // b\n<= 1" =
    [⟨.identifier, "a", 1⟩, ⟨.mark .lessEqual, "<=", 2⟩, ⟨.number 1.0, "1", 2⟩,
      .endOfInput 2] := by decide +kernel

example : lexicalProblems "@\n\"x" =
    [.lexical (.unexpectedCharacter '@') 1, .lexical .unterminatedString 2] := by decide +kernel

end Lox
