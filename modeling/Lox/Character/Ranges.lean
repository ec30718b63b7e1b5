/-! Classes of characters, as tables of ranges of code points. Which code point has
which property is taken from Unicode 17.0. -/

namespace Lox.Character

/-- Ranges from a first to a last code point. -/
abbrev Ranges := List (Nat × Nat)

namespace Ranges

def covers (ranges : Ranges) (code : Nat) : Bool :=
  ranges.any fun range => range.1 ≤ code && code ≤ range.2

/-- No range is empty, and between two neighbours some code point is left out. A
class then has only one table. -/
def isAscending : Ranges → Bool
  | [] => true
  | [range] => range.1 ≤ range.2
  | range :: next :: rest =>
      range.1 ≤ range.2 && range.2 + 1 < next.1 && isAscending (next :: rest)

/-- The code points in ranges that do not overlap. -/
def size : Ranges → Nat
  | [] => 0
  | range :: rest => range.2 + 1 - range.1 + size rest

end Ranges

end Lox.Character
