import Lox.Grammar.Program
/-! Reading in place. The grammar is read from a row of tokens with a cursor that moves over
it. The cursor never passes a token that ends the input. In a row without such a token it
stops behind the last token, which stays in view but cannot be taken: an expression that is
expected there starts with that token, and when the token is an opening parenthesis, another
one is expected at the same place, and reading never ends. -/

namespace Lox

/-- Tokens in a row, at least one of them. -/
structure Row where
  tokens : Array Token
  occupied : 0 < tokens.size

def Row.ofList (tokens : List Token) (occupied : tokens ≠ []) : Row :=
  ⟨tokens.toArray, List.length_pos_iff.mpr occupied⟩

/-- A fault is blamed on a token of the row. -/
structure Blame (row : Row) where
  fault : GrammarFault
  place : Fin row.tokens.size

def Blame.diagnostic {row : Row} (blame : Blame row) : Diagnostic :=
  .grammar blame.fault row.tokens[blame.place]

/-- Where reading stands in a row, the next free occurrence number and the errors found so
far. -/
structure Cursor (row : Row) where
  position : Nat
  inside : position ≤ row.tokens.size
  nextId : OccurrenceId
  errors : List (Blame row)

namespace Cursor

variable {row : Row}

def start (row : Row) (firstId : OccurrenceId) : Cursor row :=
  ⟨0, Nat.zero_le _, firstId, []⟩

/-- The place in view; behind the row it is the last one. -/
def place (cursor : Cursor row) : Fin row.tokens.size :=
  ⟨min cursor.position (row.tokens.size - 1), by
    have := row.occupied
    omega⟩

def inView (cursor : Cursor row) : Token :=
  row.tokens[cursor.place]

/-- The place that was passed last. -/
def passedPlace (cursor : Cursor row) : Fin row.tokens.size :=
  ⟨cursor.position - 1, by
    have := row.occupied
    have := cursor.inside
    omega⟩

def passed (cursor : Cursor row) : Token :=
  row.tokens[cursor.passedPlace]

def atEnd (cursor : Cursor row) : Bool :=
  row.tokens.size ≤ cursor.position || cursor.inView.isEnd

/-- Is a token of this kind next? At the end none is. -/
def shows (cursor : Cursor row) (kind : TokenKind) : Bool :=
  !cursor.atEnd && cursor.inView.kind.alike kind

/-- One token further, except at the end. -/
def advance (cursor : Cursor row) : Cursor row :=
  if stays : cursor.atEnd then cursor
  else
    { cursor with
      position := cursor.position + 1
      inside := by
        simp only [atEnd, Bool.or_eq_true, decide_eq_true_eq, not_or, Nat.not_le] at stays
        exact stays.1 }

def afterId (cursor : Cursor row) : Cursor row :=
  { cursor with nextId := cursor.nextId + 1 }

def record (cursor : Cursor row) (blame : Blame row) : Cursor row :=
  { cursor with errors := cursor.errors ++ [blame] }

/-- Skip tokens until the last one skipped is a semicolon or the next one starts a
statement. -/
def skipOn (cursor : Cursor row) : Cursor row :=
  if _ended : cursor.atEnd then cursor
  else if cursor.passed.hasMark .semicolon || cursor.inView.startsStatement then cursor
  else cursor.advance.skipOn
termination_by row.tokens.size - cursor.position
decreasing_by
  simp only [atEnd, Bool.or_eq_true, decide_eq_true_eq, not_or, Nat.not_le] at _ended
  simp only [advance, atEnd, _ended.2, Bool.or_false, decide_eq_true_eq, Nat.not_le.mpr _ended.1,
    dif_neg, not_false_eq_true]
  omega

/-- Where reading goes on after an error; the token in view is skipped. -/
def recover (cursor : Cursor row) : Cursor row :=
  cursor.advance.skipOn

end Cursor

/-- Reading in place ends with a value or with an error, or it never ends. -/
abbrev Moving (row : Row) := ExceptT (Blame row) (StateT (Cursor row) Option)

/-- The same as a function of the cursor from which it starts. -/
abbrev Course (row : Row) (α : Type) := Cursor row → Option (Except (Blame row) α × Cursor row)

namespace Moving

variable {row : Row}

/-- Take the token in view. -/
def take : Moving row Token := do
  modify Cursor.advance
  return (← get).passed

/-- Take the next token if it is of this kind. -/
def skip? (kind : TokenKind) : Moving row (Option Token) := do
  if (← get).shows kind then
    return some (← take)
  else
    return none

/-- A part is missing in front of the token in view. -/
def fail {α : Type} (part : Part) : Moving row α := do
  throw ⟨.missing part, (← get).place⟩

/-- Take the next token, which has to be of this kind. -/
def expect (kind : TokenKind) (part : Part) : Moving row Token := do
  if (← get).shows kind then
    take
  else
    fail part

def freshId : Moving row OccurrenceId := do
  let cursor ← get
  set cursor.afterId
  return cursor.nextId

/-- Report a fault that does not stop the reading where a condition holds. -/
def reportIf (condition : Bool) (fault : GrammarFault) (place : Fin row.tokens.size) :
    Moving row Unit :=
  if condition then modify (·.record ⟨fault, place⟩) else pure ()

end Moving

end Lox
