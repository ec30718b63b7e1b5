import Lox.Token
import Lox.Number.Text
/-! Two written forms of a token: a line of three parts for reading, and a record
in the JSON format. Both begin with the name of the kind. -/

namespace Lox

namespace Json

/-- Control characters have a short form or their code in four digits; quotes and
backslashes are marked by a backslash; all else stands for itself. -/
def escape (character : Char) : List Char :=
  if character = '"' then ['\\', '"']
  else if character = '\\' then ['\\', '\\']
  else if character = '\x08' then ['\\', 'b']
  else if character = '\t' then ['\\', 't']
  else if character = '\n' then ['\\', 'n']
  else if character = '\x0c' then ['\\', 'f']
  else if character = '\r' then ['\\', 'r']
  else if character.toNat < 0x20 then
    ['\\', 'u', '0', '0', Nat.digitChar (character.toNat / 16),
      Nat.digitChar (character.toNat % 16)]
  else [character]

def quote (text : String) : String :=
  "\"" ++ String.ofList (text.toList.flatMap escape) ++ "\""

example : quote "a\"b\n\x01é" = "\"a\\\"b\\n\\u0001é\"" := by decide +kernel

/-- An object whose members are already written. -/
def object (members : List (String × String)) : String :=
  "\x7b" ++ String.intercalate "," (members.map fun member => quote member.1 ++ ":" ++ member.2) ++
    "\x7d"

end Json

namespace TokenKind

/-- The value that a kind carries, as a token shows it. -/
def valueText : TokenKind → String
  | string contents => contents
  | number value => Number.tokenText value
  | _ => "null"

/-- A kind without a value is its quoted name; a value stands in an object under that name. -/
def record : TokenKind → String
  | string contents => Json.object [("STRING", Json.quote contents)]
  | number value => Json.object [("NUMBER", Number.recordText value)]
  | kind => Json.quote kind.name

end TokenKind

namespace Token

def text (token : Token) : String :=
  token.kind.name ++ " " ++ token.lexeme ++ " " ++ token.kind.valueText

def record (token : Token) : String :=
  Json.object [("token_type", token.kind.record), ("lexeme", Json.quote token.lexeme),
    ("line", Nat.repr token.line)]

example : (Token.mk (.number 1.0) "1" 1).text = "NUMBER 1 1.0" ∧
    (Token.endOfInput 2).text = "EOF  null" := by decide +kernel

example : (Token.mk (.mark .plus) "+" 1).record =
    "\x7b\"token_type\":\"PLUS\",\"lexeme\":\"+\",\"line\":1\x7d" := by decide +kernel

end Token

end Lox
