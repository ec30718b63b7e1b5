/-! Bytes that should be text in UTF-8. A sequence of bytes is read from the left;
the first place where it cannot be text is a fault, which is incomplete when only
the end of the bytes stops it. -/

namespace Lox.Utf8

/-- A fault and what stands in front of it, in bytes. -/
inductive Fault where
  | invalid (length : Nat) (index : Nat)
  | incomplete (index : Nat)
  deriving Repr, DecidableEq

def Fault.message : Fault → String
  | invalid length index =>
      "invalid utf-8 sequence of " ++ Nat.repr length ++ " bytes from index " ++ Nat.repr index
  | incomplete index => "incomplete utf-8 byte sequence from index " ++ Nat.repr index

/-- The bytes that may follow, one class after another, when this byte leads a
character. The first class keeps out overlong forms, surrogates and what lies
beyond the last code point. -/
def followers? (lead : UInt8) : Option (List (UInt8 × UInt8)) :=
  if lead < 0x80 then some []
  else if lead < 0xC2 then none
  else if lead < 0xE0 then some [(0x80, 0xBF)]
  else if lead = 0xE0 then some [(0xA0, 0xBF), (0x80, 0xBF)]
  else if lead = 0xED then some [(0x80, 0x9F), (0x80, 0xBF)]
  else if lead < 0xF0 then some [(0x80, 0xBF), (0x80, 0xBF)]
  else if lead = 0xF0 then some [(0x90, 0xBF), (0x80, 0xBF), (0x80, 0xBF)]
  else if lead < 0xF4 then some [(0x80, 0xBF), (0x80, 0xBF), (0x80, 0xBF)]
  else if lead = 0xF4 then some [(0x80, 0x8F), (0x80, 0xBF), (0x80, 0xBF)]
  else none

/-- What follows a lead byte: all that should, or where it goes wrong after some
bytes that fit. The bytes of the character so far are counted. -/
inductive Match where
  | complete (length : Nat) (rest : List UInt8)
  | broken (fitting : Nat) (rest : List UInt8)
  | cut

def matchFollowers (fitting : Nat) : List (UInt8 × UInt8) → List UInt8 → Match
  | [], rest => .complete fitting rest
  | _ :: _, [] => .cut
  | (low, high) :: classes, byte :: rest =>
      if low ≤ byte && byte ≤ high then matchFollowers (fitting + 1) classes rest
      else .broken fitting (byte :: rest)

/-- The character that starts here, or the bytes that are no character. -/
def matchFirst (lead : UInt8) (rest : List UInt8) : Match :=
  match followers? lead with
  | some classes => matchFollowers 1 classes rest
  | none => .broken 1 rest

def Match.rest : Match → List UInt8
  | complete _ rest => rest
  | broken _ rest => rest
  | cut => []

theorem length_rest_matchFollowers (fitting : Nat) (classes : List (UInt8 × UInt8))
    (bytes : List UInt8) : (matchFollowers fitting classes bytes).rest.length ≤ bytes.length := by
  induction classes generalizing fitting bytes with
  | nil => simp [matchFollowers, Match.rest]
  | cons range classes induction =>
      cases bytes with
      | nil => simp [matchFollowers, Match.rest]
      | cons byte rest =>
          unfold matchFollowers
          split
          · exact Nat.le_succ_of_le (induction _ rest)
          · simp [Match.rest]

theorem length_rest_matchFirst (lead : UInt8) (bytes : List UInt8) :
    (matchFirst lead bytes).rest.length < (lead :: bytes).length := by
  unfold matchFirst
  split
  · exact Nat.lt_succ_of_le (length_rest_matchFollowers _ _ _)
  · exact Nat.lt_succ_self _

/-- The first fault of bytes in front of which `index` bytes stand. -/
def faultFrom? (index : Nat) (bytes : List UInt8) : Option Fault :=
  match bytes with
  | [] => none
  | lead :: others =>
      match _found : matchFirst lead others with
      | .complete length rest => faultFrom? (index + length) rest
      | .broken fitting _ => some (.invalid fitting index)
      | .cut => some (.incomplete index)
termination_by bytes.length
decreasing_by
  have shorter := length_rest_matchFirst lead others
  rw [_found] at shorter
  exact shorter

def fault? (bytes : ByteArray) : Option Fault :=
  faultFrom? 0 bytes.toList

/-- The text of bytes, or their first fault. -/
def decode (bytes : ByteArray) : Except Fault String :=
  match fault? bytes, String.fromUTF8? bytes with
  | some fault, _ => .error fault
  | none, some text => .ok text
  | none, none => .error (.invalid 1 0)

/-- What stands in place of bytes that are no text. -/
def replacement : Char := '\uFFFD'

/-- The bytes with every longest broken piece replaced by one replacement character. -/
def mend (bytes : List UInt8) : List UInt8 :=
  match bytes with
  | [] => []
  | lead :: others =>
      match _found : matchFirst lead others with
      | .complete length rest => (lead :: others).take length ++ mend rest
      | .broken _ rest => replacement.toString.toUTF8.toList ++ mend rest
      | .cut => replacement.toString.toUTF8.toList
termination_by bytes.length
decreasing_by
  all_goals
    have shorter := length_rest_matchFirst lead others
    rw [_found] at shorter
    exact shorter

/-- The text of bytes, whatever they are. -/
def decodeLossy (bytes : ByteArray) : String :=
  match String.fromUTF8? bytes with
  | some text => text
  | none => (String.fromUTF8? ⟨(mend bytes.toList).toArray⟩).getD ""

example : faultFrom? 0 [0x2F, 0x2F, 0x20, 0xC3, 0x28] = some (.invalid 1 3) ∧
    faultFrom? 0 [0xE2, 0x82] = some (.incomplete 0) ∧
    faultFrom? 0 [0xF0, 0x9F, 0x98, 0x41] = some (.invalid 3 0) := by decide +kernel

end Lox.Utf8
