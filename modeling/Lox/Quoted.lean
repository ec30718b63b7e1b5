import Lox.Character.Extending
import Lox.Character.Ignorable
import Lox.Character.Unprintable
/-! Names in quotes, as messages show them. What is written for a name can be seen: a
character that shows nothing, or that would change how its neighbour looks, is written
by its number. -/

namespace Lox.Quoted

open Character

def isHidden (character : Char) : Bool :=
  extending.covers character.toNat || ignorable.covers character.toNat ||
    unprintable.covers character.toNat

/-- The code point in hexadecimal digits, between braces. -/
def byNumber (character : Char) : List Char :=
  ['\\', 'u', '\x7b'] ++ Nat.toDigits 16 character.toNat ++ ['\x7d']

/-- Quotes, backslashes and the most common controls have a short form. -/
def escape (character : Char) : List Char :=
  match character with
  | '\x00' => ['\\', '0']
  | '\t' => ['\\', 't']
  | '\n' => ['\\', 'n']
  | '\r' => ['\\', 'r']
  | '"' => ['\\', '"']
  | '\\' => ['\\', '\\']
  | _ => if isHidden character then byNumber character else [character]

def quote (name : String) : String :=
  "\"" ++ String.ofList (name.toList.flatMap escape) ++ "\""

example : quote "a \"b\"\\\n" = "\"a \\\"b\\\"\\\\\\n\"" := by decide +kernel

example : quote "\x01\x7fé漢" = "\"\\u\x7b1\x7d\\u\x7b7f\x7dé漢\"" := by decide +kernel

/-- An accent that stands apart is written by its number, also behind a letter. -/
example : quote "e\u0301" = "\"e\\u\x7b301\x7d\"" := by decide +kernel

/-- A filler is written by its number, and the letter next to it stands for itself. -/
example : quote "\u115f\u1161" = "\"\\u\x7b115f\x7d\u1161\"" := by decide +kernel

end Lox.Quoted
