import Lox.Source.Item
/-! Scanning in place. A source is scanned from its bytes, by a caret that moves over them. It
may read a byte that is not there, or cut the text elsewhere than between two characters:
then scanning ends in a mishap. It may also go on for ever. -/

namespace Lox

/-- A source and its bytes. -/
structure Source where
  text : String
  bytes : ByteArray
  bytes_eq : bytes = text.toUTF8

def Source.ofString (text : String) : Source :=
  ⟨text, text.toUTF8, rfl⟩

/-- What a source does not allow. -/
inductive Mishap where
  | noByte (place : Nat)
  | noBytes (first last : Nat)
  | noText (first last : Nat)
  deriving Repr, DecidableEq

/-- Where a lexeme starts, where the next byte stands, on which line that is, and what kind of
lexeme has been found. -/
structure Caret where
  first : Nat
  place : Nat
  line : Nat
  pending : Option TokenKind
  deriving Repr, DecidableEq

def Caret.atStart : Caret :=
  ⟨0, 0, 1, none⟩

/-- Scanning in place ends with a value or in a mishap, or it never ends. -/
abbrev Scanning := StateT Caret (ExceptT Mishap Option)

/-- The same as a function of the caret from which it starts. -/
abbrev Passage (α : Type) := Caret → Option (Except Mishap (α × Caret))

/-- An unaccented character is a byte of its own. -/
def isByteOf (kind : Char → Bool) (byte : UInt8) : Bool :=
  kind (Char.ofUInt8 byte)

/-- The value of digits with at most one point among them. -/
def numberOf (text : String) : Float :=
  numberValue (text.toList.takeWhile (· ≠ '.')) ((text.toList.dropWhile (· ≠ '.')).drop 1)

/-- The word that these bytes spell is a reserved word or a name. -/
def wordKindOf (bytes : ByteArray) : TokenKind :=
  match Keyword.all.find? fun word => word.text.toUTF8.data == bytes.data with
  | some word => .keyword word
  | none => .identifier

namespace Source

variable (source : Source)

def size : Nat :=
  source.bytes.size

/-! ## Reading -/

def byteAt (place : Nat) : Scanning UInt8 :=
  if inside : place < source.bytes.size then return source.bytes[place]
  else throw (.noByte place)

/-- The bytes from one place up to another one. -/
def bytesBetween (first last : Nat) : Scanning ByteArray :=
  if first ≤ last ∧ last ≤ source.size then return source.bytes.extract first last
  else throw (.noBytes first last)

/-- The text from one place up to another one. Both have to lie between characters. -/
def textBetween (first last : Nat) : Scanning String :=
  if ends : first ≤ last ∧ String.Pos.Raw.IsValid source.text ⟨first⟩ ∧
      String.Pos.Raw.IsValid source.text ⟨last⟩ then
    return source.text.extract (source.text.pos ⟨first⟩ ends.2.1)
      (source.text.pos ⟨last⟩ ends.2.2)
  else throw (.noText first last)

def atEnd : Scanning Bool := do
  return source.size ≤ (← get).place

def advance : Scanning UInt8 := do
  let byte ← source.byteAt (← get).place
  modify fun caret => { caret with place := caret.place + 1 }
  return byte

/-- The byte in view; at the end it is zero. -/
def peek : Scanning UInt8 := do
  if ← source.atEnd then return 0
  else source.byteAt (← get).place

/-- The byte behind the one in view. -/
def peekNext : Scanning UInt8 := do
  let next := (← get).place + 1
  if source.size ≤ next then return 0
  else source.byteAt next

/-- Take the byte in view if it is this character. -/
def takeIf (expected : Char) : Scanning Bool := do
  if ← source.atEnd then return false
  else if isByteOf (· = expected) (← source.peek) then
    let _ ← source.advance
    return true
  else return false

/-- Take bytes as long as the one in view is of this kind. -/
def takeWhile (source : Source) (kind : Char → Bool) : Passage Unit :=
  (do
    if isByteOf kind (← source.peek) then
      let _ ← source.advance
      source |>.takeWhile kind : Scanning Unit)
partial_fixpoint

/-- The lexeme that ends at the caret. -/
def lexeme : Scanning String := do
  let caret ← get
  source.textBetween caret.first caret.place

def find (kind : TokenKind) : Scanning Unit :=
  modify fun caret => { caret with pending := some kind }

def nextLine : Scanning Unit :=
  modify fun caret => { caret with line := caret.line + 1 }

/-! ## Lexemes

Each of the following starts behind the first byte of a lexeme and returns the error that it
finds, if it finds one. -/

/-- A comment ends in front of the next line end, or at the end. -/
def scanComment : Scanning (Option Diagnostic) := do
  let rest ← source.bytesBetween (← get).place source.size
  let passed := rest.data.toList.findIdx (isByteOf isLineEnd)
  modify fun caret => { caret with place := caret.place + passed }
  return none

/-- Take bytes up to a quote, over any number of lines. -/
def takeContents (source : Source) : Passage Unit :=
  (do
    if ← source.atEnd then return ()
    else if isByteOf isQuote (← source.peek) then return ()
    else
      if isByteOf isLineEnd (← source.advance) then nextLine
      source |>.takeContents : Scanning Unit)
partial_fixpoint

def scanString : Scanning (Option Diagnostic) := do
  source.takeContents
  if ← source.atEnd then
    return some (.lexical .unterminatedString (← get).line)
  else
    let _ ← source.advance
    let caret ← get
    find (.string (← source.textBetween (caret.first + 1) (caret.place - 1)))
    return none

/-- A point and digits behind it. -/
def takeFraction : Scanning Unit := do
  if isByteOf (· = '.') (← source.peek) then
    if isByteOf isDigit (← source.peekNext) then
      let _ ← source.advance
      source.takeWhile isDigit

def scanNumber : Scanning (Option Diagnostic) := do
  source.takeWhile isDigit
  source.takeFraction
  find (.number (numberOf (← source.lexeme)))
  return none

def scanWord : Scanning (Option Diagnostic) := do
  source.takeWhile isWordCharacter
  let caret ← get
  find (wordKindOf (← source.bytesBetween caret.first caret.place))
  return none

/-- Of two marks that start alike, take the one that an equals sign follows if there is one. -/
def scanMark (double? : Option Mark) (single : Mark) : Scanning (Option Diagnostic) := do
  match double? with
  | some double => find (.mark (if ← source.takeIf '=' then double else single))
  | none => find (.mark single)
  return none

/-- A character that starts nothing is passed over as a whole. Should none be there, the
spare one of the byte stands for it. -/
def scanStray (spare : UInt8 → Char) (byte : UInt8) : Scanning (Option Diagnostic) := do
  let caret ← get
  let rest ← source.textBetween caret.first source.size
  let character := rest.toList.head?.getD (spare byte)
  set { caret with place := caret.first + character.utf8Size }
  return some (.lexical (.unexpectedCharacter character) caret.line)

def scanLexeme (spare : UInt8 → Char) : Scanning (Option Diagnostic) := do
  let byte ← source.advance
  let first := Char.ofUInt8 byte
  if first = '\n' then
    nextLine
    return none
  else if isBlank first then return none
  else if isQuote first then source.scanString
  else if isDigit first then source.scanNumber
  else if isLetter first then source.scanWord
  else if first = '/' then
    if ← source.takeIf '/' then source.scanComment
    else source.scanMark none .slash
  else
    match Mark.single? first with
    | some mark => source.scanMark (Mark.double? first) mark
    | none => source.scanStray spare byte

/-! ## Items -/

/-- The next item. Behind the one that ends the input there is none. -/
def next (source : Source) (spare : UInt8 → Char) : Passage (Option Item) :=
  (do
    let caret ← get
    if source.size < caret.place then return none
    else if caret.place = source.size then
      set { caret with place := caret.place + 1 }
      return some (.token (.endOfInput caret.line))
    else
      set { caret with first := caret.place, pending := none }
      match ← source.scanLexeme spare with
      | some problem => return some (.problem problem)
      | none =>
          let found ← get
          match found.pending with
          | some kind =>
              set { found with pending := none }
              return some (.token ⟨kind, ← source.lexeme, found.line⟩)
          | none => source |>.next spare : Scanning (Option Item))
partial_fixpoint

/-- All items, up to the first time that there is none. -/
def scanAll (source : Source) (spare : UInt8 → Char) : Passage (List Item) :=
  (do
    match ← source.next spare with
    | some item => return item :: (← source |>.scanAll spare)
    | none => return [] : Scanning (List Item))
partial_fixpoint

end Source

/-- The items of a source, and where the caret stands behind them. -/
def scanInPlace (spare : UInt8 → Char) (text : String) :
    Option (Except Mishap (List Item × Caret)) :=
  (Source.ofString text).scanAll spare .atStart

end Lox
