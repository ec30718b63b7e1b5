import Lox.Proofs.Source.Segments
/-! Scanning takes the longest lexeme. The lexemes of the language are described on their
own, without the scanner: where one of them starts, the scanner takes the longest one, and
where nothing starts it reports an error. -/

namespace Lox

/-! ## The lexemes of the language -/

/-- A run of digits, which is not empty. -/
def Digits (text : List Char) : Prop :=
  text ≠ [] ∧ ∀ character ∈ text, isDigit character = true

/-- The double that stands for the decimal `whole.fraction`: all its digits make up a whole
number, which is divided by ten as often as there are digits in the fraction. -/
def decimal (whole fraction : List Char) : Float :=
  Float.ofScientific (Nat.ofDigitChars 10 (whole ++ fraction) 0) true fraction.length

/-- The texts that are lexemes, with their kinds. -/
inductive Lexeme : List Char → TokenKind → Prop
  | mark (mark : Mark) : Lexeme mark.text.toList (.mark mark)
  | string {contents : List Char} :
      '"' ∉ contents → Lexeme ('"' :: (contents ++ ['"'])) (.string (String.ofList contents))
  | whole {digits : List Char} : Digits digits → Lexeme digits (.number (decimal digits []))
  | point {whole fraction : List Char} :
      Digits whole → Digits fraction →
      Lexeme (whole ++ '.' :: fraction) (.number (decimal whole fraction))
  | keyword (word : Keyword) : Lexeme word.text.toList (.keyword word)
  | name {first : Char} {rest : List Char} :
      isLetter first = true → (∀ character ∈ rest, isWordCharacter character = true) →
      (∀ word : Keyword, word.text.toList ≠ first :: rest) → Lexeme (first :: rest) .identifier

/-- Of all lexemes with which the text starts, this is the longest one. -/
structure LongestLexeme (text : List Char) (kind : TokenKind) (after : List Char) : Prop where
  lexeme : Lexeme text kind
  longest : ∀ other kind', Lexeme other kind' → other <+: text ++ after →
    other.length ≤ text.length

def StartsNoLexeme (text : List Char) : Prop :=
  ∀ start kind, Lexeme start kind → ¬ start <+: text

def StartsComment (text : List Char) : Prop :=
  ['/', '/'] <+: text

/-- The items that the text behind `before` yields, told from the lexemes alone. -/
inductive Lexed : List Char → List Char → List Item → Prop
  | finish {before : List Char} : Lexed before [] [.token (.endOfInput (lineAfter before))]
  | blank {before rest : List Char} {character : Char} {items : List Item} :
      character ∈ [' ', '\t', '\r', '\n'] → Lexed (before ++ [character]) rest items →
      Lexed before (character :: rest) items
  | comment {before text rest : List Char} {items : List Item} :
      '\n' ∉ text → (∀ next ∈ rest.head?, next = '\n') →
      Lexed (before ++ '/' :: '/' :: text) rest items →
      Lexed before ('/' :: '/' :: text ++ rest) items
  | token {before text rest : List Char} {kind : TokenKind} {items : List Item} :
      ¬ StartsComment (text ++ rest) → LongestLexeme text kind rest →
      Lexed (before ++ text) rest items →
      Lexed before (text ++ rest)
        (.token ⟨kind, String.ofList text, lineAfter (before ++ text)⟩ :: items)
  | stray {before rest : List Char} {character : Char} {items : List Item} :
      character ∉ [' ', '\t', '\r', '\n'] → character ≠ '"' →
      StartsNoLexeme (character :: rest) → Lexed (before ++ [character]) rest items →
      Lexed before (character :: rest)
        (.problem (.lexical (.unexpectedCharacter character) (lineAfter before)) :: items)
  | unclosed {before contents : List Char} {items : List Item} :
      StartsNoLexeme ('"' :: contents) → '"' ∉ contents →
      Lexed (before ++ '"' :: contents) [] items →
      Lexed before ('"' :: contents)
        (.problem (.lexical .unterminatedString (lineAfter (before ++ '"' :: contents))) :: items)

/-! ## First characters

What a lexeme starts with tells which sort of lexeme it is. -/

/-- A character that starts neither a number nor a word nor a string, and is not skipped. -/
def isSign (character : Char) : Bool :=
  !isDigit character && !isLetter character && !isQuote character && !isBlank character

theorem isLetter_of_isDigit {character : Char} (digit : isDigit character = true) :
    isLetter character = false := by
  have bounds : 48 ≤ character.toNat ∧ character.toNat ≤ 57 := by
    simpa [isDigit, Char.le_def, UInt32.le_iff_toNat_le] using digit
  simp only [isLetter, Char.le_def, UInt32.le_iff_toNat_le, Bool.or_eq_false_iff,
    Bool.and_eq_false_iff, decide_eq_false_iff_not]
  refine ⟨⟨.inl ?_, .inl ?_⟩, ?_⟩
  · have : character.toNat < 97 := by omega
    simpa using this
  · have : character.toNat < 65 := by omega
    simpa using this
  · rintro rfl
    exact absurd bounds (by decide)

/-- Digits and letters are neither skipped nor start a string or a comment. -/
theorem unmarked_of_digit_or_letter {character : Char}
    (sort : isDigit character = true ∨ isLetter character = true) :
    isBlank character = false ∧ isQuote character = false ∧ character ≠ '/' := by
  have marks : ∀ mark ∈ [' ', '\t', '\r', '\n', '"', '/'],
      isDigit mark = false ∧ isLetter mark = false := by simp [isDigit, isLetter]
  have unlike : character ∉ [' ', '\t', '\r', '\n', '"', '/'] := by
    intro member
    rcases marks character member with ⟨notDigit, notLetter⟩
    simp [notDigit, notLetter] at sort
  simp only [List.mem_cons, List.not_mem_nil, or_false, not_or] at unlike
  simp [isBlank, isQuote, unlike]

theorem isQuote_iff {character : Char} : isQuote character = true ↔ character = '"' := by
  simp [isQuote]

theorem Mark.starts (mark : Mark) : ∃ first rest, mark.text.toList = first :: rest ∧
    isSign first = true ∧ rest.length ≤ 1 := by
  cases mark <;> exact ⟨_, _, rfl, rfl, by decide⟩

namespace Mark

theorem text_of_double {first : Char} {mark : Mark} (double : double? first = some mark) :
    mark.text.toList = [first, '='] := by
  unfold double? at double
  split at double <;> cases double <;> rfl

theorem text_of_single {first : Char} {mark : Mark} (single : single? first = some mark) :
    mark.text.toList = [first] := by
  unfold single? at single
  split at single <;> cases single <;> rfl

/-- Every mark is one character, or one character and an equals sign. -/
theorem single_or_double {first : Char} {rest : List Char} (mark : Mark)
    (spelled : mark.text.toList = first :: rest) :
    rest = [] ∧ single? first = some mark ∨ rest = ['='] ∧ double? first = some mark := by
  cases mark with
  | bangEqual | equalEqual | greaterEqual | lessEqual =>
      cases spelled
      exact .inr ⟨rfl, rfl⟩
  | _ =>
      cases spelled
      exact .inl ⟨rfl, rfl⟩

end Mark

theorem Keyword.starts (word : Keyword) : ∃ first rest, word.text.toList = first :: rest ∧
    isLetter first = true ∧ ∀ character ∈ rest, isWordCharacter character = true := by
  cases word <;> exact ⟨_, _, rfl, rfl, List.all_eq_true.mp (by decide)⟩

theorem isWordCharacter_word {first : Char} {rest : List Char} (letter : isLetter first = true)
    (others : ∀ character ∈ rest, isWordCharacter character = true) :
    ∀ character ∈ first :: rest, isWordCharacter character = true :=
  List.forall_mem_cons.mpr ⟨by simp [isWordCharacter, letter], others⟩

theorem Digits.starts {text : List Char} (digits : Digits text) :
    ∃ first rest, text = first :: rest ∧ isDigit first = true := by
  rcases List.exists_cons_of_ne_nil digits.1 with ⟨first, rest, rfl⟩
  exact ⟨first, rest, rfl, digits.2 first List.mem_cons_self⟩

/-- The longest run of digits in front of a text that starts with a digit. -/
theorem Digits.of_run {first : Char} {rest run tail : List Char} (digit : isDigit first = true)
    (split : first :: rest = run ++ tail) (within : ∀ character ∈ run, isDigit character = true)
    (stops : ∀ next ∈ tail.head?, isDigit next = false) : Digits run := by
  refine ⟨?_, within⟩
  rintro rfl
  subst split
  exact absurd digit (by simp [stops first rfl])

namespace Lexeme

/-- The sorts of lexemes, told apart by their first characters. -/
inductive Sorted : Char → List Char → Prop
  | sign {first : Char} {rest : List Char} (mark : Mark) :
      mark.text.toList = first :: rest → isSign first = true → Sorted first rest
  | string {contents : List Char} : '"' ∉ contents → Sorted '"' (contents ++ ['"'])
  | whole {first : Char} {rest : List Char} :
      isDigit first = true → Digits (first :: rest) → Sorted first rest
  | point {first : Char} {rest whole fraction : List Char} :
      isDigit first = true → first :: rest = whole ++ '.' :: fraction → Digits whole →
      Digits fraction → Sorted first rest
  | word {first : Char} {rest : List Char} :
      isLetter first = true → (∀ character ∈ first :: rest, isWordCharacter character = true) →
      Sorted first rest

theorem sorted {text : List Char} {kind : TokenKind} (lexeme : Lexeme text kind) :
    ∃ first rest, text = first :: rest ∧ Sorted first rest := by
  cases lexeme with
  | mark mark =>
      rcases mark.starts with ⟨first, rest, equal, sign, _⟩
      exact ⟨first, rest, equal, .sign mark equal sign⟩
  | string unquoted => exact ⟨_, _, rfl, .string unquoted⟩
  | whole digits =>
      rcases digits.starts with ⟨first, rest, rfl, digit⟩
      exact ⟨first, rest, rfl, .whole digit digits⟩
  | point digits fraction =>
      rcases digits.starts with ⟨first, rest, rfl, digit⟩
      exact ⟨first, _, rfl, .point digit rfl digits fraction⟩
  | keyword word =>
      rcases word.starts with ⟨first, rest, equal, letter, others⟩
      exact ⟨first, rest, equal, .word letter (isWordCharacter_word letter others)⟩
  | name letter others _ =>
      exact ⟨_, _, rfl, .word letter (isWordCharacter_word letter others)⟩

namespace Sorted

variable {first : Char} {rest : List Char} (sorted : Sorted first rest)

include sorted

/-- No lexeme starts with a blank. -/
theorem not_blank : first ∉ [' ', '\t', '\r', '\n'] := by
  rw [← Piece.isBlank_iff, Bool.not_eq_true]
  cases sorted with
  | sign _ _ sign =>
      simp only [isSign, Bool.and_eq_true, Bool.not_eq_true'] at sign
      exact sign.2
  | string _ => rfl
  | whole digit _ | point digit _ _ _ => exact (unmarked_of_digit_or_letter (.inl digit)).1
  | word letter _ => exact (unmarked_of_digit_or_letter (.inr letter)).1

theorem of_sign (marked : isSign first = true) : ∃ mark : Mark, mark.text.toList = first :: rest := by
  simp only [isSign, Bool.and_eq_true, Bool.not_eq_true'] at marked
  cases sorted with
  | sign mark equal _ => exact ⟨mark, equal⟩
  | string _ => exact absurd marked.1.2 (by decide)
  | whole digit _ | point digit _ _ _ => exact absurd digit (by simp [marked.1.1.1])
  | word letter _ => exact absurd letter (by simp [marked.1.1.2])

theorem of_quote (quoted : first = '"') :
    ∃ contents, rest = contents ++ ['"'] ∧ '"' ∉ contents := by
  subst quoted
  cases sorted with
  | string unquoted => exact ⟨_, rfl, unquoted⟩
  | sign _ _ sign => exact absurd sign (by decide)
  | whole digit _ | point digit _ _ _ => exact absurd digit (by decide)
  | word letter _ => exact absurd letter (by decide)

theorem of_digit (digital : isDigit first = true) :
    Digits (first :: rest) ∨ ∃ whole fraction, first :: rest = whole ++ '.' :: fraction ∧
      Digits whole ∧ Digits fraction := by
  cases sorted with
  | whole _ digits => exact .inl digits
  | point _ split whole fraction => exact .inr ⟨_, _, split, whole, fraction⟩
  | sign _ _ sign => exact absurd sign (by simp [isSign, digital])
  | string _ => exact absurd digital (by decide)
  | word letter _ => exact absurd letter (by simp [isLetter_of_isDigit digital])

theorem of_letter (lettered : isLetter first = true) :
    ∀ character ∈ first :: rest, isWordCharacter character = true := by
  cases sorted with
  | word _ within => exact within
  | sign _ _ sign => exact absurd sign (by simp [isSign, lettered])
  | string _ => exact absurd lettered (by decide)
  | whole digit _ | point digit _ _ _ => exact absurd lettered (by simp [isLetter_of_isDigit digit])

end Sorted

end Lexeme

/-! ## Runs of characters -/

section

variable {kind : Char → Bool} {run rest : List Char}

/-- A run that something else follows, or nothing. -/
theorem takeWhile_run (within : ∀ character ∈ run, kind character = true)
    (stops : ∀ next ∈ rest.head?, kind next = false) : (run ++ rest).takeWhile kind = run := by
  rw [List.takeWhile_append_of_pos within]
  cases rest with
  | nil => exact List.append_nil run
  | cons next rest => rw [List.takeWhile_cons_of_neg (by simp [stops next rfl]), List.append_nil]

theorem dropWhile_run (within : ∀ character ∈ run, kind character = true)
    (stops : ∀ next ∈ rest.head?, kind next = false) : (run ++ rest).dropWhile kind = rest := by
  rw [List.dropWhile_append_of_pos within]
  cases rest with
  | nil => rfl
  | cons next rest => exact List.dropWhile_cons_of_neg (by simp [stops next rfl])

theorem takeWhile_all (within : ∀ character ∈ run, kind character = true) :
    run.takeWhile kind = run := by
  rw [← List.append_nil run, List.takeWhile_append_of_pos within, List.takeWhile_nil]

theorem dropWhile_all (within : ∀ character ∈ run, kind character = true) :
    run.dropWhile kind = [] := by
  rw [← List.append_nil run, List.dropWhile_append_of_pos within, List.dropWhile_nil]

/-- A run at the start of a text is at most the longest one. -/
theorem prefix_run {other : List Char} (within : ∀ character ∈ run, kind character = true)
    (others : ∀ character ∈ other, kind character = true)
    (stops : ∀ next ∈ rest.head?, kind next = false) (starts : run <+: other ++ rest) :
    run <+: other := by
  rcases starts with ⟨after, same⟩
  rw [← takeWhile_run others stops, ← same, List.takeWhile_append_of_pos within]
  exact List.prefix_append _ _

/-- Every text starts with a longest run, if only an empty one. -/
theorem exists_run (kind : Char → Bool) (text : List Char) :
    ∃ run rest, text = run ++ rest ∧ (∀ character ∈ run, kind character = true) ∧
      ∀ next ∈ rest.head?, kind next = false := by
  refine ⟨_, _, List.takeWhile_append_dropWhile.symm, List.all_eq_true.mp List.all_takeWhile, ?_⟩
  intro next first
  have stops := List.head?_dropWhile_not kind text
  rw [Option.mem_def.mp first] at stops
  exact stops

end

/-! ## A lexeme on its own -/

namespace Piece

theorem not_isQuote_of_not_mem {contents : List Char} (unquoted : '"' ∉ contents) :
    ∀ character ∈ contents, (!isQuote character) = true := by
  intro character member
  rw [Bool.not_eq_true', Bool.eq_false_iff]
  intro quoted
  exact unquoted (isQuote_iff.mp quoted ▸ member)

theorem isQuote_stops (rest : List Char) :
    ∀ next ∈ ('"' :: rest).head?, (!isQuote next) = false := by
  rintro _ ⟨⟩
  rfl

/-- A string ends at the first quote. -/
theorem takeString_closed {contents : List Char} (unquoted : '"' ∉ contents) (rest : List Char) :
    takeString (contents ++ '"' :: rest) =
      (lexeme (.string (String.ofList contents)) ('"' :: (contents ++ ['"'])), rest) := by
  rw [takeString, takeWhile_run (not_isQuote_of_not_mem unquoted) (isQuote_stops rest),
    dropWhile_run (not_isQuote_of_not_mem unquoted) (isQuote_stops rest)]
  rfl

theorem takeString_unclosed {contents : List Char} (unquoted : '"' ∉ contents) :
    takeString contents = (unclosed ('"' :: contents), []) := by
  rw [takeString, takeWhile_all (not_isQuote_of_not_mem unquoted),
    dropWhile_all (not_isQuote_of_not_mem unquoted)]

/-- Digits that neither a digit nor a fraction follows are a number. -/
theorem takeNumber_digits {digits rest : List Char} (within : ∀ digit ∈ digits, isDigit digit = true)
    (stops : ∀ next ∈ rest.head?, isDigit next = false)
    (unlike : ∀ digit others, rest = '.' :: digit :: others → isDigit digit = false) :
    takeNumber (digits ++ rest) = (lexeme (.number (decimal digits [])) digits, rest) := by
  unfold takeNumber
  rw [takeWhile_run within stops, dropWhile_run within stops]
  split
  · rw [if_neg (by simp [unlike _ _ rfl])]
    rfl
  · rfl

/-- Digits, a point and digits that no digit follows are a number. -/
theorem takeNumber_decimal {whole fraction rest : List Char}
    (within : ∀ digit ∈ whole, isDigit digit = true) (digits : Digits fraction)
    (stops : ∀ next ∈ rest.head?, isDigit next = false) :
    takeNumber (whole ++ '.' :: (fraction ++ rest)) =
      (lexeme (.number (decimal whole fraction)) (whole ++ '.' :: fraction), rest) := by
  have pointed : ∀ next ∈ ('.' :: (fraction ++ rest)).head?, isDigit next = false := by
    rintro _ ⟨⟩
    rfl
  rcases digits.starts with ⟨digit, others, rfl, digital⟩
  unfold takeNumber
  rw [takeWhile_run within pointed, dropWhile_run within pointed, List.cons_append]
  refine (if_pos digital).trans ?_
  rw [← List.cons_append, takeWhile_run digits.2 stops, dropWhile_run digits.2 stops]
  rfl

theorem take_quote (rest : List Char) : take '"' rest = takeString rest := rfl

theorem take_digit {first : Char} (rest : List Char) (digit : isDigit first = true) :
    take first rest = takeNumber (first :: rest) := by
  rcases unmarked_of_digit_or_letter (.inl digit) with ⟨solid, unquoted, _⟩
  unfold take
  rw [solid, unquoted, digit]
  rfl

theorem take_letter {first : Char} (rest : List Char) (letter : isLetter first = true) :
    take first rest = takeWord (first :: rest) := by
  rcases unmarked_of_digit_or_letter (.inr letter) with ⟨solid, unquoted, _⟩
  have notDigit : isDigit first = false := by
    rw [Bool.eq_false_iff]
    intro digit
    exact absurd letter (by simp [isLetter_of_isDigit digit])
  unfold take
  rw [solid, unquoted, notDigit, letter]
  rfl

/-- A word is what it is as a whole. -/
theorem wordKind_keyword (word : Keyword) : wordKind word.text.toList = .keyword word := by
  rw [wordKind, String.ofList_toList, (Keyword.ofText?_eq_some_iff _ _).mpr rfl]

theorem wordKind_name {text : List Char} (unlike : ∀ word : Keyword, word.text.toList ≠ text) :
    wordKind text = .identifier := by
  rw [wordKind]
  split
  · rename_i word found
    rw [Keyword.ofText?_eq_some_iff] at found
    exact absurd (by rw [found, String.toList_ofList]) (unlike word)
  · rfl

theorem takeWord_whole {text : List Char}
    (within : ∀ character ∈ text, isWordCharacter character = true) :
    takeWord text = (lexeme (wordKind text) text, []) := by
  rw [takeWord, takeWhile_all within, dropWhile_all within]

end Piece

namespace Lexeme

/-- The scanner takes a lexeme that stands on its own for what it is. -/
theorem taken {text : List Char} {kind : TokenKind} (lexeme : Lexeme text kind) :
    ∃ first rest, text = first :: rest ∧ Piece.take first rest = (.lexeme kind text, []) := by
  cases lexeme with
  | mark mark => cases mark <;> exact ⟨_, _, rfl, rfl⟩
  | string unquoted => exact ⟨_, _, rfl, Piece.takeString_closed unquoted []⟩
  | whole digits =>
      rcases digits.starts with ⟨first, rest, rfl, digit⟩
      have taken := @Piece.takeNumber_digits _ [] digits.2 nofun nofun
      rw [List.append_nil] at taken
      exact ⟨first, rest, rfl, (Piece.take_digit rest digit).trans taken⟩
  | point whole fraction =>
      rcases whole.starts with ⟨first, rest, rfl, digit⟩
      have taken := @Piece.takeNumber_decimal _ _ [] whole.2 fraction nofun
      rw [List.append_nil] at taken
      exact ⟨first, _, rfl, (Piece.take_digit _ digit).trans taken⟩
  | keyword word =>
      rcases word.starts with ⟨first, rest, equal, letter, others⟩
      refine ⟨first, rest, equal, ?_⟩
      rw [Piece.take_letter rest letter,
        Piece.takeWord_whole (isWordCharacter_word letter others), ← equal,
        Piece.wordKind_keyword]
  | name letter others unlike =>
      refine ⟨_, _, rfl, ?_⟩
      rw [Piece.take_letter _ letter, Piece.takeWord_whole (isWordCharacter_word letter others),
        Piece.wordKind_name unlike]

/-- A text is a lexeme of one kind at most. -/
theorem kind_unique {text : List Char} {kind other : TokenKind} (lexeme : Lexeme text kind)
    (again : Lexeme text other) : other = kind := by
  rcases lexeme.taken with ⟨first, rest, rfl, taken⟩
  rcases again.taken with ⟨_, _, ⟨⟩, taken'⟩
  rw [taken] at taken'
  cases taken'
  rfl

end Lexeme

/-! ## The longest lexeme -/

open Lexeme (Sorted)

theorem LongestLexeme.of_sorted {first : Char} {rest text after : List Char} {kind : TokenKind}
    (split : first :: rest = text ++ after) (lexeme : Lexeme text kind)
    (longest : ∀ others, Sorted first others → first :: others <+: text ++ after →
      (first :: others).length ≤ text.length) : LongestLexeme text kind after := by
  refine ⟨lexeme, fun _ _ other starts => ?_⟩
  rcases other.sorted with ⟨first', others, rfl, sorted⟩
  have same := starts
  rw [← split, List.cons_prefix_cons] at same
  rcases same with ⟨rfl, _⟩
  exact longest others sorted starts

theorem StartsNoLexeme.of_sorted {first : Char} {rest : List Char}
    (unlike : ∀ {others}, Sorted first others → ¬ others <+: rest) :
    StartsNoLexeme (first :: rest) := by
  intro start kind lexeme starts
  rcases lexeme.sorted with ⟨first', others, rfl, sorted⟩
  rw [List.cons_prefix_cons] at starts
  rcases starts with ⟨rfl, starts⟩
  exact unlike sorted starts

/-- Two lexemes of which each is the longest one at the start of a text are the same. -/
theorem LongestLexeme.unique {text other after after' : List Char} {kind kind' : TokenKind}
    (longest : LongestLexeme text kind after) (again : LongestLexeme other kind' after')
    (same : text ++ after = other ++ after') : kind' = kind ∧ other = text ∧ after' = after := by
  have starts : text <+: other ++ after' := same ▸ List.prefix_append text after
  have starts' : other <+: text ++ after := same ▸ List.prefix_append other after'
  have shorter := longest.longest _ _ again.lexeme starts'
  have longer := again.longest _ _ longest.lexeme starts
  have equal : other = text :=
    (List.append_inj same (Nat.le_antisymm longer shorter)).1.symm
  subst equal
  exact ⟨longest.lexeme.kind_unique again.lexeme, rfl, (List.append_cancel_left same).symm⟩

theorem not_startsComment_of_ne {first : Char} {rest : List Char} (unlike : first ≠ '/') :
    ¬ StartsComment (first :: rest) := by
  intro starts
  exact unlike (List.cons_prefix_cons.mp starts).1.symm

namespace Piece

/-- What a piece has to do with the lexemes of the language. -/
def Munched (after : List Char) : Piece → Prop
  | blank _ | comment _ => True
  | lexeme kind text => ¬ StartsComment (text ++ after) ∧ LongestLexeme text kind after
  | stray character =>
      character ∉ [' ', '\t', '\r', '\n'] ∧ character ≠ '"' ∧ StartsNoLexeme (character :: after)
  | unclosed text => StartsNoLexeme text

theorem takeMark_munched {first : Char} {rest : List Char} (sign : isSign first = true)
    (uncommented : ¬ StartsComment (first :: rest)) :
    (takeMark first rest).1.Munched (takeMark first rest).2 := by
  unfold takeMark
  split
  · rename_i mark others double
    refine ⟨uncommented, .of_sorted rfl (mark.text_of_double double ▸ .mark mark) ?_⟩
    intro others sorted _
    rcases sorted.of_sign sign with ⟨other, equal⟩
    rcases other.starts with ⟨_, _, equal', _, short⟩
    cases equal.symm.trans equal'
    exact Nat.succ_le_succ short
  · rename_i rest _ _ undoubled
    have unlike : ∀ mark, Mark.double? first = some mark → ¬ ['='] <+: rest := by
      rintro mark double ⟨others, rfl⟩
      exact undoubled mark others double rfl
    split
    · rename_i mark single
      refine ⟨uncommented, .of_sorted rfl (mark.text_of_single single ▸ .mark mark) ?_⟩
      intro others sorted starts
      rcases sorted.of_sign sign with ⟨other, equal⟩
      rcases other.single_or_double equal with ⟨rfl, _⟩ | ⟨rfl, double⟩
      · exact Nat.le_refl _
      · exact absurd (List.cons_prefix_cons.mp starts).2 (unlike other double)
    · rename_i unmarked
      refine ⟨?_, ?_, StartsNoLexeme.of_sorted ?_⟩
      · rw [← isBlank_iff]
        simp only [isSign, Bool.and_eq_true, Bool.not_eq_true'] at sign
        simp [sign.2]
      · rintro rfl
        exact absurd sign (by decide)
      · intro others sorted starts
        rcases sorted.of_sign sign with ⟨other, equal⟩
        rcases other.single_or_double equal with ⟨rfl, single⟩ | ⟨rfl, double⟩
        · exact absurd single (by simp [unmarked])
        · exact unlike other double starts

theorem takeString_munched (rest : List Char) :
    (takeString rest).1.Munched (takeString rest).2 := by
  by_cases quoted : '"' ∈ rest
  · rcases List.eq_append_cons_of_mem quoted with ⟨contents, after, rfl, unquoted⟩
    rw [takeString_closed unquoted]
    refine ⟨not_startsComment_of_ne (by decide), .of_sorted rfl (.string unquoted) ?_⟩
    intro others sorted starts
    rcases sorted.of_quote rfl with ⟨contents', rfl, unquoted'⟩
    rw [List.cons_append, List.cons_prefix_cons, List.append_assoc] at starts
    have within := prefix_run (not_isQuote_of_not_mem unquoted') (not_isQuote_of_not_mem unquoted)
      (isQuote_stops after) ((List.prefix_append _ _).trans starts.2)
    simpa using within.length_le
  · rw [takeString_unclosed quoted]
    refine StartsNoLexeme.of_sorted ?_
    intro others sorted starts
    rcases sorted.of_quote rfl with ⟨contents, rfl, _⟩
    exact quoted (starts.subset (by simp))

/-- Of a number that goes on behind its digits, the digits are the same. -/
theorem whole_of_prefix {whole whole' fraction tail : List Char} (digits : Digits whole)
    (digits' : Digits whole') (stops : ∀ next ∈ tail.head?, isDigit next = false)
    (starts : whole' ++ '.' :: fraction <+: whole ++ tail) :
    whole' = whole ∧ '.' :: fraction <+: tail := by
  rcases starts with ⟨after, same⟩
  have pointed : ∀ next ∈ ('.' :: fraction ++ after).head?, isDigit next = false := by
    rintro _ ⟨⟩
    rfl
  have equal : whole' = whole := by
    rw [← takeWhile_run digits.2 stops, ← same, List.append_assoc]
    exact (takeWhile_run digits'.2 pointed).symm
  subst equal
  rw [List.append_assoc] at same
  exact ⟨rfl, after, List.append_cancel_left same⟩

theorem takeNumber_munched {first : Char} (digit : isDigit first = true) (rest : List Char) :
    (takeNumber (first :: rest)).1.Munched (takeNumber (first :: rest)).2 := by
  have uncommented : ¬ StartsComment (first :: rest) :=
    not_startsComment_of_ne (unmarked_of_digit_or_letter (.inl digit)).2.2
  rcases exists_run isDigit (first :: rest) with ⟨whole, tail, split, within, stops⟩
  have digits : Digits whole := .of_run digit split within stops
  by_cases pointed : ∃ next others, tail = '.' :: next :: others ∧ isDigit next = true
  · rcases pointed with ⟨next, others, rfl, digital⟩
    rcases exists_run isDigit (next :: others) with ⟨fraction, after, equal, inside, ends⟩
    have fractional : Digits fraction := .of_run digital equal inside ends
    rw [equal] at split stops
    rw [split, takeNumber_decimal within fractional ends]
    have whole_split : first :: rest = (whole ++ '.' :: fraction) ++ after := by
      rw [split, List.append_assoc, List.cons_append]
    refine ⟨whole_split ▸ uncommented, .of_sorted whole_split (.point digits fractional) ?_⟩
    intro others sorted starts
    rw [← whole_split, split] at starts
    rcases sorted.of_digit digit with number | ⟨whole', fraction', equal', number, fraction''⟩
    · have shorter := (prefix_run number.2 within stops starts).length_le
      rw [List.length_append]
      omega
    · rw [equal'] at starts ⊢
      rcases whole_of_prefix digits number stops starts with ⟨rfl, onward⟩
      have shorter :=
        (prefix_run fraction''.2 inside ends (List.cons_prefix_cons.mp onward).2).length_le
      simp only [List.length_append, List.length_cons]
      omega
  · have unlike : ∀ next others, tail = '.' :: next :: others → isDigit next = false := by
      intro next others equal
      rw [Bool.eq_false_iff]
      intro digital
      exact pointed ⟨next, others, equal, digital⟩
    rw [split, takeNumber_digits within stops unlike]
    refine ⟨split ▸ uncommented, .of_sorted split (.whole digits) ?_⟩
    intro others sorted starts
    rcases sorted.of_digit digit with number | ⟨whole', fraction', equal', number, fraction''⟩
    · exact (prefix_run number.2 within stops starts).length_le
    · rw [equal'] at starts
      rcases whole_of_prefix digits number stops starts with ⟨rfl, after, rfl⟩
      rcases fraction''.starts with ⟨next, others, rfl, digital⟩
      exact absurd digital (by simp [unlike next _ rfl])

theorem takeWord_munched {first : Char} (letter : isLetter first = true) (rest : List Char) :
    (takeWord (first :: rest)).1.Munched (takeWord (first :: rest)).2 := by
  have uncommented : ¬ StartsComment (first :: rest) :=
    not_startsComment_of_ne (unmarked_of_digit_or_letter (.inr letter)).2.2
  rcases exists_run isWordCharacter (first :: rest) with ⟨word, after, split, within, stops⟩
  have taken : takeWord (first :: rest) = (lexeme (wordKind word) word, after) := by
    rw [split, takeWord, takeWhile_run within stops, dropWhile_run within stops]
  rw [taken]
  refine ⟨split ▸ uncommented, .of_sorted split ?_ ?_⟩
  · by_cases reserved : ∃ keyword : Keyword, keyword.text.toList = word
    · rcases reserved with ⟨keyword, rfl⟩
      rw [wordKind_keyword]
      exact .keyword keyword
    · rw [wordKind_name (not_exists.mp reserved)]
      cases word with
      | nil =>
          subst split
          exact absurd (stops first rfl) (by simp [isWordCharacter, letter])
      | cons first' word =>
          rcases List.cons.inj split with ⟨rfl, _⟩
          exact .name letter (List.forall_mem_cons.mp within).2 (not_exists.mp reserved)
  · intro others sorted starts
    exact (prefix_run (sorted.of_letter letter) within stops starts).length_le

theorem isLineEnd_of_ne {character : Char} (ordinary : character ≠ '\n') :
    isLineEnd character = false := by
  simp [isLineEnd, ordinary]

theorem newlines_stray {character : Char} (ordinary : character ≠ '\n') :
    (stray character).newlines = 0 := by
  rw [newlines, text, List.countP_singleton, isLineEnd_of_ne ordinary]
  rfl

theorem take_munched (first : Char) (rest : List Char) :
    (take first rest).1.Munched (take first rest).2 := by
  unfold take
  split
  · trivial
  rename_i solid
  split
  · rename_i quoted
    exact takeString_munched rest
  rename_i unquoted
  split
  · rename_i digit
    exact takeNumber_munched digit rest
  rename_i notDigit
  split
  · rename_i letter
    exact takeWord_munched letter rest
  rename_i notLetter
  have sign : isSign first = true := by
    simp [isSign, solid, unquoted, notDigit, notLetter]
  split
  · trivial
  · rename_i uncommented
    refine takeMark_munched sign ?_
    intro starts
    rcases starts with ⟨others, equal⟩
    cases equal
    exact uncommented _ rfl rfl

end Piece

/-! ## The items of a source -/

/-- The first piece of a text, with all that is known of it. -/
theorem exists_piece (first : Char) (rest : List Char) :
    ∃ piece after, pieces (first :: rest) = piece :: pieces after ∧
      piece.text ++ after = first :: rest ∧ piece.Munched after ∧ piece.Shaped after :=
  ⟨_, _, pieces_cons first rest, Piece.take_text first rest, Piece.take_munched first rest,
    Piece.take_shaped first rest⟩

/-- Where the longest lexeme starts, it is taken. -/
theorem pieces_lexeme {text rest : List Char} {kind : TokenKind}
    (uncommented : ¬ StartsComment (text ++ rest)) (longest : LongestLexeme text kind rest) :
    pieces (text ++ rest) = .lexeme kind text :: pieces rest := by
  rcases longest.lexeme.sorted with ⟨first, others, rfl, sorted⟩
  rcases exists_piece first (others ++ rest) with ⟨piece, after, taken, whole, munched, shaped⟩
  rw [List.cons_append, taken]
  cases piece with
  | blank character =>
      rcases List.cons.inj whole with ⟨rfl, _⟩
      exact absurd shaped sorted.not_blank
  | comment body =>
      rcases shaped with ⟨⟨body, rfl, _⟩, _⟩
      exact absurd ⟨_, whole⟩ uncommented
  | lexeme kind' text =>
      rcases longest.unique munched.2 whole.symm with ⟨rfl, rfl, rfl⟩
      rfl
  | stray character =>
      rcases List.cons.inj whole with ⟨rfl, rfl⟩
      exact absurd (List.prefix_append _ _) (munched.2.2 _ _ longest.lexeme)
  | unclosed text =>
      rcases shaped with ⟨_, rfl⟩
      have starts : first :: others <+: text := by
        rw [← List.append_nil text]
        exact whole ▸ List.prefix_append _ _
      exact absurd starts (munched _ _ longest.lexeme)

/-- A character that starts nothing is passed over. -/
theorem pieces_stray {character : Char} {rest : List Char}
    (solid : character ∉ [' ', '\t', '\r', '\n']) (unquoted : character ≠ '"')
    (unlike : StartsNoLexeme (character :: rest)) :
    pieces (character :: rest) = .stray character :: pieces rest := by
  rcases exists_piece character rest with ⟨piece, after, taken, whole, munched, shaped⟩
  rw [taken]
  cases piece with
  | blank other =>
      rcases List.cons.inj whole with ⟨rfl, _⟩
      exact absurd shaped solid
  | comment body =>
      rcases shaped with ⟨⟨body, rfl, _⟩, _⟩
      rcases List.cons.inj whole with ⟨rfl, rfl⟩
      exact absurd ⟨_, rfl⟩ (unlike _ _ (.mark .slash))
  | lexeme kind text => exact absurd ⟨_, whole⟩ (unlike _ _ munched.2.lexeme)
  | stray other =>
      cases whole
      rfl
  | unclosed text =>
      rcases shaped with ⟨⟨contents, rfl, _⟩, _⟩
      exact absurd (List.cons.inj whole).1.symm unquoted

theorem pieces_unclosed {contents : List Char} (unquoted : '"' ∉ contents) :
    pieces ('"' :: contents) = [.unclosed ('"' :: contents)] := by
  rw [pieces_cons, Piece.take_quote, Piece.takeString_unclosed unquoted, pieces_nil]

theorem pieces_blank {character : Char} (blank : character ∈ [' ', '\t', '\r', '\n'])
    (rest : List Char) : pieces (character :: rest) = .blank character :: pieces rest := by
  rw [pieces_cons]
  unfold Piece.take
  rw [if_pos ((Piece.isBlank_iff character).mpr blank)]

theorem pieces_comment {text rest : List Char} (within : '\n' ∉ text)
    (stops : ∀ next ∈ rest.head?, next = '\n') :
    pieces ('/' :: '/' :: text ++ rest) = .comment ('/' :: '/' :: text) :: pieces rest := by
  have inside : ∀ character ∈ text, (!isLineEnd character) = true := by
    intro character member
    rw [Bool.not_eq_true', Bool.eq_false_iff]
    intro ended
    have equal : character = '\n' := by simpa [isLineEnd] using ended
    exact within (equal ▸ member)
  have ends : ∀ next ∈ rest.head?, (!isLineEnd next) = false := by
    intro next first
    rw [stops next first]
    rfl
  have taken : Piece.take '/' ('/' :: (text ++ rest)) =
      Piece.takeComment (text ++ rest) := rfl
  rw [List.cons_append, List.cons_append, pieces_cons, taken, Piece.takeComment,
    takeWhile_run inside ends, dropWhile_run inside ends]

/-- The invariant is that the line is the one on which what is left starts. -/
theorem Item.ofPieces_lexed (before rest : List Char) :
    Lexed before rest (ofPieces (lineAfter before) (pieces rest)) := by
  induction rest using pieces.induct generalizing before with
  | case1 =>
      rw [pieces_nil]
      exact .finish
  | case2 first rest induction =>
      rw [pieces_cons, ofPieces]
      have munched := Piece.take_munched first rest
      have shaped := Piece.take_shaped first rest
      have whole := Piece.take_text first rest
      generalize Piece.take first rest = taken at induction munched shaped whole
      rcases taken with ⟨piece, after⟩
      have others := induction (before ++ piece.text)
      rw [lineAfter_append] at others
      dsimp only at munched shaped whole ⊢
      rw [← whole]
      cases piece with
      | blank character => exact .blank shaped others
      | comment text =>
          rcases shaped with ⟨⟨body, rfl, within⟩, ends⟩
          exact .comment within ends others
      | lexeme kind text =>
          have found := Lexed.token munched.1 munched.2 others
          rw [lineAfter_append] at found
          exact found
      | stray character =>
          have ordinary : character ≠ '\n' := shaped
          have found := Lexed.stray munched.1 munched.2.1 munched.2.2 others
          rw [Piece.newlines_stray ordinary, Nat.add_zero]
          rw [Piece.text, List.countP_singleton, Piece.isLineEnd_of_ne ordinary] at found
          exact found
      | unclosed text =>
          rcases shaped with ⟨⟨contents, rfl, within⟩, rfl⟩
          have found := Lexed.unclosed munched within others
          rw [lineAfter_append] at found
          rw [List.append_nil]
          exact found

/-- There is one way to tell the items of a text from its lexemes. -/
theorem Lexed.items_eq {before rest : List Char} {items : List Item}
    (lexed : Lexed before rest items) :
    items = Item.ofPieces (lineAfter before) (pieces rest) := by
  induction lexed with
  | finish =>
      rw [pieces_nil]
      rfl
  | blank blank _ induction =>
      rw [pieces_blank blank, induction, lineAfter_append]
      rfl
  | comment within stops _ induction =>
      rw [pieces_comment within stops, induction, lineAfter_append]
      rfl
  | token uncommented longest _ induction =>
      rw [pieces_lexeme uncommented longest, induction, lineAfter_append]
      rfl
  | @stray before rest character items solid unquoted unlike _ induction =>
      have ordinary : character ≠ '\n' := by
        rintro rfl
        exact solid (by decide)
      rw [pieces_stray solid unquoted unlike, induction, lineAfter_append, Item.ofPieces,
        Piece.newlines_stray ordinary, List.countP_singleton, Piece.isLineEnd_of_ne ordinary]
      rfl
  | unclosed unlike within _ induction =>
      rw [pieces_unclosed within, induction, lineAfter_append, pieces_nil]
      rfl

/-- A text is a lexeme of one kind at most, and the items of a source are those that its
lexemes make: wherever no blank and no comment starts, the longest lexeme is taken, and an
error is reported where there is none. -/
theorem scan_eq_iff_lexed :
    (∀ text kind kind', Lexeme text kind → Lexeme text kind' → kind' = kind) ∧
      ∀ (source : String) (items : List Item),
        scan source = items ↔ Lexed [] source.toList items := by
  refine ⟨fun text kind kind' lexeme again => lexeme.kind_unique again, fun source items => ?_⟩
  constructor
  · rintro rfl
    exact Item.ofPieces_lexed [] source.toList
  · intro lexed
    exact lexed.items_eq.symm

end Lox
