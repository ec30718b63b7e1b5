import Lox.Diagnostic
import Lox.Tree
/-! Reading a sentence from tokens. Every construct of the grammar takes at least
one token, so what a construct leaves is shorter than what it was given; the
results below carry that fact, and loops over constructs end because of it. -/

namespace Lox

/-- A fault is found in front of the tokens that are left at that moment, and is
blamed on the first of them. -/
structure GrammarError where
  fault : GrammarFault
  rest : List Token
  deriving Repr, DecidableEq

/-- What is carried along while reading: the next free occurrence number and the
errors found so far. -/
structure Draft where
  nextId : OccurrenceId
  errors : List GrammarError
  deriving Repr, DecidableEq

namespace Draft

def start (firstId : OccurrenceId) : Draft :=
  ⟨firstId, []⟩

def report (draft : Draft) (error : GrammarError) : Draft :=
  { draft with errors := draft.errors ++ [error] }

def afterId (draft : Draft) : Draft :=
  { draft with nextId := draft.nextId + 1 }

end Draft

/-- A proper remainder of the input. -/
abbrev Shorter (input : List Token) := { rest : List Token // rest.length < input.length }

namespace Shorter

/-- What is left after the first token. -/
def tail (first : Token) (others : List Token) : Shorter (first :: others) :=
  ⟨others, Nat.lt_succ_self others.length⟩

/-- One token more is taken. -/
def drop {input : List Token} (first : Token) (others : List Token)
    (shorter : (first :: others).length < input.length) : Shorter input :=
  ⟨others, Nat.lt_trans (Nat.lt_succ_self others.length) shorter⟩

def trans {input : List Token} (rest : Shorter input) (inner : Shorter rest.1) : Shorter input :=
  ⟨inner.1, Nat.lt_trans inner.2 rest.2⟩

end Shorter

/-- How reading a construct from `input` ends: with its tree, or with an error
that was found somewhere in `input`. -/
inductive Parsed (α : Type) (input : List Token) where
  | accept (value : α) (rest : Shorter input) (draft : Draft)
  | reject (error : GrammarError) (inside : error.rest.length ≤ input.length) (draft : Draft)

/-- Going on reading a construct of which at least one token has been read. -/
def Reading (input : List Token) (α : Type) :=
  Shorter input → Draft → Parsed α input

namespace Parsed

variable {α β : Type} {input : List Token}

def andThen (parsed : Parsed α input) (next : α → Reading input β) : Parsed β input :=
  match parsed with
  | accept value rest draft => next value rest draft
  | reject error inside draft => reject error inside draft

/-- The same result, seen from the start of an enclosing construct. -/
def within (rest : Shorter input) (parsed : Parsed α rest.1) : Parsed α input :=
  match parsed with
  | accept value inner draft => accept value (rest.trans inner) draft
  | reject error inside draft => reject error (Nat.le_trans inside (Nat.le_of_lt rest.2)) draft

/-- Go on after a construct that was read from a remainder of the input. -/
def onward (rest : Shorter input) (parsed : Parsed α rest.1)
    (next : α → Shorter rest.1 → Draft → Parsed β input) : Parsed β input :=
  match parsed with
  | accept value inner draft => next value inner draft
  | reject error inside draft => reject error (Nat.le_trans inside (Nat.le_of_lt rest.2)) draft

/-- The result without its lengths. -/
def outcome (parsed : Parsed α input) : Except GrammarError (α × List Token) × Draft :=
  match parsed with
  | accept value rest draft => (.ok (value, rest.1), draft)
  | reject error _ draft => (.error error, draft)

@[simp] theorem outcome_within (rest : Shorter input) (parsed : Parsed α rest.1) :
    (parsed.within rest).outcome = parsed.outcome := by
  cases parsed <;> rfl

end Parsed

namespace Reading

variable {α : Type} {input : List Token}

instance : Monad (Reading input) where
  pure value := fun rest draft => .accept value rest draft
  bind reading next := fun rest draft => (reading rest draft).andThen next

/-- Read a construct from the tokens that are left. -/
def follow (construct : (rest : Shorter input) → Draft → Parsed α rest.1) : Reading input α :=
  fun rest draft => (construct rest draft).within rest

/-- Is the next token of this kind? At the end nothing is. -/
def isNext (kind : TokenKind) : Reading input Bool :=
  fun rest draft =>
    match rest.1 with
    | [] => .accept false rest draft
    | token :: _ => .accept (token.kind.alike kind) rest draft

/-- Take the next token if it is of this kind. -/
def skip? (kind : TokenKind) : Reading input (Option Token) :=
  fun rest draft =>
    match rest with
    | ⟨[], _⟩ => .accept none rest draft
    | ⟨token :: others, shorter⟩ =>
        if token.kind.alike kind then
          .accept (some token) (.drop token others shorter) draft
        else
          .accept none rest draft

/-- Take the next token, which has to be of this kind. -/
def expect (kind : TokenKind) (part : Part) : Reading input Token :=
  fun rest draft =>
    match rest with
    | ⟨[], _⟩ => .reject ⟨.missing part, []⟩ (Nat.zero_le _) draft
    | ⟨token :: others, shorter⟩ =>
        if token.kind.alike kind then
          .accept token (.drop token others shorter) draft
        else
          .reject ⟨.missing part, token :: others⟩ (Nat.le_of_lt shorter) draft

/-- Take the next occurrence number. -/
def freshId : Reading input OccurrenceId :=
  fun rest draft => .accept draft.nextId rest draft.afterId

/-- Report a fault that does not stop the reading, in front of the next token. -/
def report (fault : GrammarFault) : Reading input Unit :=
  fun rest draft => .accept () rest (draft.report ⟨fault, rest.1⟩)

end Reading

/-- The first token of a construct, which has to be of this kind. -/
def expectFirst (kind : TokenKind) (part : Part) (input : List Token) (draft : Draft) :
    Parsed Token input :=
  match input with
  | [] => .reject ⟨.missing part, []⟩ (Nat.le_refl _) draft
  | token :: others =>
      if token.kind.alike kind then
        .accept token (.tail token others) draft
      else
        .reject ⟨.missing part, token :: others⟩ (Nat.le_refl _) draft

end Lox
