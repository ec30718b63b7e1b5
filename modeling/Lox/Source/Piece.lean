import Lox.Diagnostic
/-! A source text falls into pieces: blanks, comments, lexemes, characters that
start nothing and a string that never ends. Each piece keeps its own text, so the
texts of the pieces, put together again, are the source. -/

namespace Lox

inductive Piece where
  | blank (character : Char)
  | comment (text : List Char)
  | lexeme (kind : TokenKind) (text : List Char)
  | stray (character : Char)
  | unclosed (text : List Char)
  deriving Repr, DecidableEq

/-! ## Classes of characters -/

def isBlank (character : Char) : Bool :=
  character = ' ' || character = '\t' || character = '\r' || character = '\n'

def isDigit (character : Char) : Bool :=
  '0' ≤ character && character ≤ '9'

/-- Letters are the unaccented ones and the underscore. -/
def isLetter (character : Char) : Bool :=
  'a' ≤ character && character ≤ 'z' || 'A' ≤ character && character ≤ 'Z' || character = '_'

def isWordCharacter (character : Char) : Bool :=
  isLetter character || isDigit character

def isLineEnd (character : Char) : Bool :=
  character = '\n'

def isQuote (character : Char) : Bool :=
  character = '"'

/-! ## Values of lexemes -/

def digitsValue (digits : List Char) : Nat :=
  digits.foldl (fun value digit => 10 * value + (digit.toNat - '0'.toNat)) 0

/-- The double nearest to the decimal `whole.fraction`. -/
def numberValue (whole fraction : List Char) : Float :=
  Float.ofScientific (digitsValue (whole ++ fraction)) true fraction.length

example : numberValue ['1', '2'] ['5'] = 12.5 := by decide +kernel

/-- A word is a reserved word or a name. -/
def wordKind (word : List Char) : TokenKind :=
  match Keyword.ofText? (String.ofList word) with
  | some keyword => .keyword keyword
  | none => .identifier

/-! ## Marks -/

/-- The mark that is this one character. -/
def Mark.single? : Char → Option Mark
  | '(' => some leftParen
  | ')' => some rightParen
  | '\x7b' => some leftBrace
  | '\x7d' => some rightBrace
  | ',' => some comma
  | '.' => some dot
  | '-' => some minus
  | '+' => some plus
  | ';' => some semicolon
  | '/' => some slash
  | '*' => some star
  | '!' => some bang
  | '=' => some equal
  | '>' => some greater
  | '<' => some less
  | _ => none

/-- The mark that is this character and an equals sign. -/
def Mark.double? : Char → Option Mark
  | '!' => some bangEqual
  | '=' => some equalEqual
  | '>' => some greaterEqual
  | '<' => some lessEqual
  | _ => none

namespace Piece

def text : Piece → List Char
  | blank character => [character]
  | comment text => text
  | lexeme _ text => text
  | stray character => [character]
  | unclosed text => text

/-! ## The first piece of a text

Each of the following functions reads one piece from a text whose first character
is known, and leaves the rest. -/

def takeMark (first : Char) (rest : List Char) : Piece × List Char :=
  match Mark.double? first, rest with
  | some mark, '=' :: others => (lexeme (.mark mark) [first, '='], others)
  | _, _ =>
      match Mark.single? first with
      | some mark => (lexeme (.mark mark) [first], rest)
      | none => (stray first, rest)

/-- A comment reaches up to the end of its line, which stays. -/
def takeComment (rest : List Char) : Piece × List Char :=
  (comment ('/' :: '/' :: rest.takeWhile (!isLineEnd ·)), rest.dropWhile (!isLineEnd ·))

/-- A string reaches up to the next quote, over any number of lines. -/
def takeString (rest : List Char) : Piece × List Char :=
  let contents := rest.takeWhile (!isQuote ·)
  match rest.dropWhile (!isQuote ·) with
  | [] => (unclosed ('"' :: contents), [])
  | quote :: others =>
      (lexeme (.string (String.ofList contents)) ('"' :: contents ++ [quote]), others)

/-- A point belongs to a number only when a digit follows it. -/
def takeNumber (text : List Char) : Piece × List Char :=
  let whole := text.takeWhile isDigit
  match text.dropWhile isDigit with
  | '.' :: digit :: others =>
      if isDigit digit then
        let fraction := (digit :: others).takeWhile isDigit
        (lexeme (.number (numberValue whole fraction)) (whole ++ '.' :: fraction),
          (digit :: others).dropWhile isDigit)
      else
        (lexeme (.number (numberValue whole [])) whole, '.' :: digit :: others)
  | others => (lexeme (.number (numberValue whole [])) whole, others)

def takeWord (text : List Char) : Piece × List Char :=
  let word := text.takeWhile isWordCharacter
  (lexeme (wordKind word) word, text.dropWhile isWordCharacter)

/-- The first piece of a text and what follows it. -/
def take (first : Char) (rest : List Char) : Piece × List Char :=
  if isBlank first then (blank first, rest)
  else if isQuote first then takeString rest
  else if isDigit first then takeNumber (first :: rest)
  else if isLetter first then takeWord (first :: rest)
  else
    match first, rest with
    | '/', '/' :: others => takeComment others
    | _, _ => takeMark first rest

example : take '5' ".x".toList = (lexeme (.number 5.0) ['5'], ['.', 'x']) := by decide +kernel

example : take '/' "/ a\nb".toList = (comment "// a".toList, "\nb".toList) := by decide +kernel

example : take '=' "==".toList = (lexeme (.mark .equalEqual) ['=', '='], ['=']) := by
  decide +kernel

/-! ## Nothing is lost -/

theorem takeMark_text (first : Char) (rest : List Char) :
    (takeMark first rest).1.text ++ (takeMark first rest).2 = first :: rest := by
  unfold takeMark
  split
  · rfl
  · split <;> rfl

theorem takeComment_text (rest : List Char) :
    (takeComment rest).1.text ++ (takeComment rest).2 = '/' :: '/' :: rest := by
  simp [takeComment, text, List.takeWhile_append_dropWhile]

theorem takeString_text (rest : List Char) :
    (takeString rest).1.text ++ (takeString rest).2 = '"' :: rest := by
  have whole := List.takeWhile_append_dropWhile (p := (!isQuote ·)) (l := rest)
  unfold takeString
  split
  · rename_i ended
    rw [ended] at whole
    simpa [text] using whole
  · rename_i quote others remaining
    rw [remaining] at whole
    simpa [text] using whole

theorem takeNumber_text (source : List Char) :
    (takeNumber source).1.text ++ (takeNumber source).2 = source := by
  have whole := List.takeWhile_append_dropWhile (p := isDigit) (l := source)
  unfold takeNumber
  split
  · rename_i digit others remaining
    rw [remaining] at whole
    split
    · simpa [text, List.takeWhile_append_dropWhile] using whole
    · simpa [text] using whole
  · simp [text]

theorem takeWord_text (source : List Char) :
    (takeWord source).1.text ++ (takeWord source).2 = source := by
  simp [takeWord, text, List.takeWhile_append_dropWhile]

/-- The first piece and the rest make up the text. -/
theorem take_text (first : Char) (rest : List Char) :
    (take first rest).1.text ++ (take first rest).2 = first :: rest := by
  unfold take
  split
  · rfl
  split
  · rename_i quoted
    have equal : first = '"' := by simpa [isQuote] using quoted
    rw [equal]
    exact takeString_text rest
  split
  · exact takeNumber_text _
  split
  · exact takeWord_text _
  split
  · exact takeComment_text _
  · exact takeMark_text _ _

/-! ## Every piece has a text -/

theorem takeMark_ne_nil (first : Char) (rest : List Char) : (takeMark first rest).1.text ≠ [] := by
  unfold takeMark
  split
  · simp [text]
  · split <;> simp [text]

theorem takeString_ne_nil (rest : List Char) : (takeString rest).1.text ≠ [] := by
  unfold takeString
  split <;> simp [text]

theorem takeNumber_ne_nil {first : Char} (digit : isDigit first = true) (rest : List Char) :
    (takeNumber (first :: rest)).1.text ≠ [] := by
  unfold takeNumber
  split
  · split <;> simp [text, digit]
  · simp [text, digit]

theorem takeWord_ne_nil {first : Char} (letter : isLetter first = true) (rest : List Char) :
    (takeWord (first :: rest)).1.text ≠ [] := by
  simp [takeWord, text, isWordCharacter, letter]

theorem take_ne_nil (first : Char) (rest : List Char) : (take first rest).1.text ≠ [] := by
  unfold take
  split
  · simp [text]
  split
  · exact takeString_ne_nil _
  split
  · rename_i digit
    exact takeNumber_ne_nil digit _
  split
  · rename_i letter
    exact takeWord_ne_nil letter _
  split
  · simp [takeComment, text]
  · exact takeMark_ne_nil _ _

/-- So what follows the first piece is shorter than the text. -/
theorem take_shorter (first : Char) (rest : List Char) :
    (take first rest).2.length < (first :: rest).length := by
  have lengths := congrArg List.length (take_text first rest)
  have positive := List.length_pos_iff.mpr (take_ne_nil first rest)
  rw [List.length_append] at lengths
  omega

end Piece

/-! ## All pieces of a text -/

def pieces : List Char → List Piece
  | [] => []
  | first :: rest => (Piece.take first rest).1 :: pieces (Piece.take first rest).2
termination_by source => source.length
decreasing_by exact Piece.take_shorter first rest

theorem pieces_nil : pieces [] = [] := by
  rw [pieces]

theorem pieces_cons (first : Char) (rest : List Char) :
    pieces (first :: rest) =
      (Piece.take first rest).1 :: pieces (Piece.take first rest).2 := by
  rw [pieces]

/-- The pieces of a text, put together, are the text. -/
theorem pieces_flatMap_text (source : List Char) :
    (pieces source).flatMap Piece.text = source := by
  induction source using pieces.induct with
  | case1 => simp [pieces_nil]
  | case2 first rest induction =>
      rw [pieces_cons, List.flatMap_cons, induction, Piece.take_text]

end Lox
