import Lox.Proofs.Source.Encoding
import Lox.Proofs.Source.Lexemes
/-! Scanning in place is safe. The caret stands between two characters whenever a lexeme
starts, so every byte that is read is there, every part of the text that is cut out lies between
characters, and the items are those that the pieces of the text have. -/

namespace Lox

namespace Scanning

variable {α β : Type}

/-- Scanning has come to an end with this value. -/
abbrev done (value : α) (caret : Caret) : ExceptT Mishap Option (α × Caret) :=
  some (.ok (value, caret))

variable (caret : Caret)

@[simp] theorem pure_apply (value : α) : (pure value : Scanning α) caret = done value caret := rfl

@[simp] theorem get_apply : (get : Scanning Caret) caret = done caret caret := rfl

@[simp] theorem set_apply (after : Caret) :
    (set after : Scanning PUnit) caret = done ⟨⟩ after := rfl

@[simp] theorem modify_apply (change : Caret → Caret) :
    (modify change : Scanning PUnit) caret = done ⟨⟩ (change caret) := rfl

theorem bind_apply (action : Scanning α) (next : α → Scanning β) :
    (action >>= next) caret = action caret >>= fun reached => next reached.1 reached.2 := rfl

theorem done_bind (value : α) (next : α × Caret → ExceptT Mishap Option β) :
    (done value caret >>= next) = next (value, caret) := rfl

/-- What comes behind an action that is done. -/
theorem bind_of_done {caret after : Caret} {action : Scanning α} {value : α}
    (first : action caret = done value after) (next : α → Scanning β) :
    (action >>= next) caret = next value after := by
  rw [bind_apply, first, done_bind]

end Scanning

open Scanning

/-! ## Bytes in view -/

/-- The caret, that many bytes on. -/
def Caret.moved (caret : Caret) (count : Nat) : Caret :=
  { caret with place := caret.place + count }

@[simp] theorem Caret.moved_zero (caret : Caret) : caret.moved 0 = caret := rfl

theorem Caret.moved_moved (caret : Caret) (count more : Nat) :
    (caret.moved count).moved more = caret.moved (count + more) := by
  simp [Caret.moved, Nat.add_assoc]

/-- The caret behind these bytes, with the line ends among them. -/
def Caret.past (caret : Caret) (bytes : List UInt8) : Caret :=
  { caret.moved bytes.length with line := caret.line + bytes.countP (isByteOf isLineEnd) }

theorem Caret.past_append (caret : Caret) (left right : List UInt8) :
    caret.past (left ++ right) = (caret.past left).past right := by
  simp only [past, moved, List.length_append, List.countP_append, Nat.add_assoc]

namespace Source

variable {source : Source}

/-- These bytes are passed and those are left. -/
structure At (source : Source) (passed left : List UInt8) (place : Nat) : Prop where
  bytes : source.bytes.data.toList = passed ++ left
  place : place = passed.length

namespace At

variable {passed left : List UInt8} {byte : UInt8} {place : Nat}

theorem size_eq (at' : source.At passed left place) : source.size = place + left.length := by
  rw [Source.size, ← ByteArray.size_data, ← Array.length_toList, at'.bytes, List.length_append,
    at'.place]

theorem moved (some : List UInt8) (at' : source.At passed (some ++ left) place) :
    source.At (passed ++ some) left (place + some.length) :=
  ⟨by rw [at'.bytes, List.append_assoc], by rw [at'.place, List.length_append]⟩

theorem next (at' : source.At passed (byte :: left) place) :
    source.At (passed ++ [byte]) left (place + 1) :=
  at'.moved [byte]

end At

section

variable {passed left : List UInt8} {byte : UInt8} {caret : Caret}

theorem byteAt_apply {place : Nat} (at' : source.At passed (byte :: left) place) :
    source.byteAt place caret = done byte caret := by
  have inside : place < source.bytes.size := by
    have size := at'.size_eq
    simp only [Source.size, List.length_cons] at size
    omega
  have found : source.bytes.data.toList[place]? = some byte := by
    rw [at'.bytes, at'.place]
    simp
  have read : source.bytes[place] = byte := by
    rw [Array.getElem?_toList] at found
    exact (Array.getElem?_eq_some_iff.mp found).2
  unfold byteAt
  rw [dif_pos inside, read]
  rfl

theorem atEnd_apply (at' : source.At passed left caret.place) :
    source.atEnd caret = done left.isEmpty caret := by
  have ended : decide (source.size ≤ caret.place) = left.isEmpty := by
    rw [at'.size_eq]
    cases left <;> simp
  rw [← ended]
  rfl

theorem advance_apply (at' : source.At passed (byte :: left) caret.place) :
    source.advance caret = done byte (caret.moved 1) := by
  unfold advance
  rw [bind_of_done (get_apply caret), bind_of_done (byteAt_apply at')]
  rfl

theorem peek_apply (at' : source.At passed left caret.place) :
    source.peek caret = done (left.headD 0) caret := by
  unfold peek
  rw [bind_of_done (atEnd_apply at')]
  cases left with
  | nil => rfl
  | cons byte left => exact byteAt_apply at'

theorem peekNext_apply (at' : source.At passed left caret.place) :
    source.peekNext caret = done (left.tail.headD 0) caret := by
  have size := at'.size_eq
  unfold peekNext
  rw [bind_of_done (get_apply caret)]
  match left with
  | [] | [_] =>
      rw [if_pos (by simp only [List.length_nil, List.length_singleton] at size; omega)]
      rfl
  | byte :: next :: left =>
      rw [if_neg (by simp only [List.length_cons] at size; omega)]
      exact byteAt_apply at'.next

theorem takeIf_of_pos {expected : Char} (at' : source.At passed (byte :: left) caret.place)
    (is : isByteOf (· = expected) byte = true) :
    source.takeIf expected caret = done true (caret.moved 1) := by
  unfold takeIf
  rw [bind_of_done (atEnd_apply at')]
  refine (bind_of_done (peek_apply at') _).trans ?_
  rw [List.headD_cons, if_pos is, bind_of_done (advance_apply at')]
  rfl

theorem takeIf_of_neg {expected : Char} (at' : source.At passed left caret.place)
    (unlike : ∀ byte ∈ left.head?, isByteOf (· = expected) byte = false) :
    source.takeIf expected caret = done false caret := by
  unfold takeIf
  rw [bind_of_done (atEnd_apply at')]
  cases left with
  | nil => rfl
  | cons byte left =>
      refine (bind_of_done (peek_apply at') _).trans ?_
      rw [List.headD_cons, if_neg (by simp [unlike byte rfl])]
      rfl

/-- The zero in view at the end must not be of the kind. -/
theorem takeWhile_apply {kind : Char → Bool} (zero : isByteOf kind 0 = false)
    (at' : source.At passed left caret.place) :
    source.takeWhile kind caret = done ⟨⟩ (caret.moved (left.takeWhile (isByteOf kind)).length) := by
  induction left generalizing passed caret with
  | nil =>
      rw [takeWhile, bind_of_done (peek_apply at'), List.headD_nil, if_neg (by simp [zero])]
      rfl
  | cons byte left induction =>
      rw [takeWhile, bind_of_done (peek_apply at'), List.headD_cons]
      cases is : isByteOf kind byte with
      | false =>
          rw [List.takeWhile_cons_of_neg (by simp [is])]
          rfl
      | true =>
          rw [if_pos rfl, bind_of_done (advance_apply at'), induction at'.next,
            List.takeWhile_cons_of_pos is, Caret.moved_moved, List.length_cons, Nat.add_comm]

/-- The contents of a string reach up to the next quote, or to the end. -/
theorem takeContents_apply (at' : source.At passed left caret.place) :
    source.takeContents caret =
      done ⟨⟩ (caret.past (left.takeWhile (!isByteOf isQuote ·))) := by
  induction left generalizing passed caret with
  | nil =>
      rw [takeContents, bind_of_done (atEnd_apply at')]
      rfl
  | cons byte left induction =>
      rw [takeContents, bind_of_done (atEnd_apply at')]
      refine (bind_of_done (peek_apply at') _).trans ?_
      rw [List.headD_cons]
      cases quote : isByteOf isQuote byte with
      | true =>
          rw [List.takeWhile_cons_of_neg (by simp [quote])]
          rfl
      | false =>
          rw [List.takeWhile_cons_of_pos (by simp [quote]), if_neg (by simp)]
          refine (bind_of_done (advance_apply at') _).trans ?_
          have onward := @induction _ (caret.past [byte]) at'.next
          rw [← List.singleton_append, Caret.past_append, ← onward]
          cases ended : isByteOf isLineEnd byte with
          | true => simp [ended, Caret.past, Caret.moved, bind_apply, done_bind, nextLine]
          | false => simp [ended, Caret.past, Caret.moved]

end

end Source

/-! ## Characters in view -/

/-- The caret behind this text. -/
def Caret.after (caret : Caret) (text : List Char) : Caret :=
  caret.past (encoded text)

theorem Caret.after_append (caret : Caret) (left right : List Char) :
    caret.after (left ++ right) = (caret.after left).after right := by
  rw [after, encoded_append, past_append]
  rfl

theorem Caret.line_after (caret : Caret) (text : List Char) :
    (caret.after text).line = caret.line + text.countP isLineEnd :=
  congrArg (caret.line + ·) (countP_encoded unaccented_lineEnd text)

/-- Text without a line end is passed over on its line. -/
theorem Caret.moved_eq_after (caret : Caret) {text : List Char}
    (within : ∀ character ∈ text, isLineEnd character = false) :
    caret.moved (encoded text).length = caret.after text := by
  have none : (encoded text).countP (isByteOf isLineEnd) = 0 := by
    rw [countP_encoded unaccented_lineEnd, List.countP_eq_zero]
    intro character member
    simp [within character member]
  rw [after, past, none]
  rfl

namespace Source

variable {source : Source}

theorem utf8Encode_eq (source : Source) : source.bytes = source.text.toList.utf8Encode := by
  rw [source.bytes_eq, ← String.toByteArray_ofList, String.ofList_toList]
  rfl

/-- The place lies between these two parts of the text. -/
structure Between (source : Source) (before rest : List Char) (place : Nat) : Prop where
  text : source.text.toList = before ++ rest
  place : place = (encoded before).length

section

variable {before rest : List Char} {place : Nat} {caret : Caret}

namespace Between

theorem bytes (between : source.Between before rest place) :
    source.At (encoded before) (encoded rest) place :=
  ⟨by rw [source.utf8Encode_eq, utf8Encode_data, between.text, encoded_append], between.place⟩

/-- Nothing follows the whole rest. -/
theorem whole (between : source.Between before rest place) :
    source.Between before (rest ++ []) place := by
  rwa [List.append_nil]

theorem moved (middle : List Char) (between : source.Between before (middle ++ rest) place) :
    source.Between (before ++ middle) rest (place + (encoded middle).length) :=
  ⟨by rw [between.text, List.append_assoc],
    by rw [between.place, encoded_append, List.length_append]⟩

theorem after {caret : Caret} (middle : List Char)
    (between : source.Between before (middle ++ rest) caret.place) :
    source.Between (before ++ middle) rest (caret.after middle).place :=
  between.moved middle

theorem valid (between : source.Between before rest place) :
    String.Pos.Raw.IsValid source.text ⟨place⟩ := by
  rw [String.Pos.Raw.isValid_iff_exists_append]
  refine ⟨String.ofList before, String.ofList rest, ?_, ?_⟩
  · rw [← String.ofList_append, ← between.text, String.ofList_toList]
  · rw [between.place, ← utf8ByteSize_ofList]
    rfl

/-- The bytes of a part of the text. -/
theorem extract (middle : List Char) (between : source.Between before (middle ++ rest) place) :
    source.bytes.extract place (place + (encoded middle).length) = middle.utf8Encode := by
  have start : place = before.utf8Encode.size := by rw [between.place, size_utf8Encode]
  rw [source.utf8Encode_eq, between.text, List.utf8Encode_append, List.utf8Encode_append]
  refine (ByteArray.extract_append_size_add' start (i := 0)).trans ?_
  exact ByteArray.extract_append_eq_left (size_utf8Encode middle).symm

end Between

theorem bytesBetween_apply (middle : List Char)
    (between : source.Between before (middle ++ rest) place) :
    source.bytesBetween place (place + (encoded middle).length) caret =
      done middle.utf8Encode caret := by
  have within := (between.moved middle).bytes.size_eq
  unfold bytesBetween
  rw [if_pos ⟨Nat.le_add_right _ _, by omega⟩, between.extract middle]
  rfl

theorem textBetween_apply (middle : List Char)
    (between : source.Between before (middle ++ rest) place) :
    source.textBetween place (place + (encoded middle).length) caret =
      done (String.ofList middle) caret := by
  unfold textBetween
  rw [dif_pos ⟨Nat.le_add_right _ _, between.valid, (between.moved middle).valid⟩]
  refine congrArg (fun text => done text caret) ?_
  rw [← String.toByteArray_inj, String.toByteArray_extract, String.toByteArray_ofList,
    ← between.extract middle, source.bytes_eq]
  rfl

/-- Taking bytes of a kind of unaccented characters is taking these characters. -/
theorem takeWhile_after {kind : Char → Bool} (unaccented : Unaccented kind)
    (zero : kind '\x00' = false) (inLine : kind '\n' = false)
    (between : source.Between before rest caret.place) :
    source.takeWhile kind caret = done ⟨⟩ (caret.after (rest.takeWhile kind)) := by
  have within : ∀ character ∈ rest.takeWhile kind, isLineEnd character = false := by
    intro character member
    have holds := List.all_eq_true.mp List.all_takeWhile character member
    rw [isLineEnd, decide_eq_false_iff_not]
    rintro rfl
    exact absurd holds (by simp [inLine])
  rw [takeWhile_apply zero between.bytes, takeWhile_encoded unaccented,
    caret.moved_eq_after within]

theorem takeContents_after (between : source.Between before rest caret.place) :
    source.takeContents caret = done ⟨⟩ (caret.after (rest.takeWhile (!isQuote ·))) := by
  rw [takeContents_apply between.bytes, takeWhile_not_encoded unaccented_quote]
  rfl

end

end Source

/-! ## Lexemes -/

namespace Piece

def kind? : Piece → Option TokenKind
  | lexeme kind _ => some kind
  | _ => none

/-- The error of a piece whose last character stands on `line`. -/
def problem? (piece : Piece) (line : Nat) : Option Diagnostic :=
  match piece with
  | stray character => some (.lexical (.unexpectedCharacter character) line)
  | unclosed _ => some (.lexical .unterminatedString line)
  | _ => none

end Piece

/-- What reading a piece ends with: its error, and the caret behind it with its kind. -/
def Caret.reads (caret : Caret) (piece : Piece) :
    ExceptT Mishap Option (Option Diagnostic × Caret) :=
  done (piece.problem? (caret.after piece.text).line)
    { caret.after piece.text with pending := piece.kind? }

namespace Source

/-- A lexeme starts between these two parts of the text. -/
structure Starts (source : Source) (before rest : List Char) (caret : Caret) : Prop where
  between : source.Between before rest caret.place
  first : caret.first = caret.place
  pending : caret.pending = none

section

variable {source : Source} {before rest : List Char} {start : Caret}

/-- A piece of no kind leaves none behind. -/
theorem Starts.read_nothing (starts : source.Starts before rest start) (piece : Piece)
    (nothing : piece.kind? = none) :
    done (piece.problem? (start.after piece.text).line) (start.after piece.text) =
      start.reads piece := by
  have pending : (start.after piece.text).pending = none := starts.pending
  rw [Caret.reads, nothing, ← pending]

theorem lexeme_apply (text : List Char) {after : List Char}
    (starts : source.Starts before (text ++ after) start) :
    source.lexeme (start.after text) = done (String.ofList text) (start.after text) := by
  have first : (start.after text).first = start.place := starts.first
  unfold lexeme
  rw [bind_of_done (get_apply _), first]
  exact textBetween_apply _ starts.between

theorem scanString_apply (starts : source.Starts before ('"' :: rest) start) :
    source.scanString (start.after ['"']) = start.reads (Piece.takeString rest).1 := by
  have behind : source.Between (before ++ ['"']) rest (start.after ['"']).place :=
    starts.between.after ['"']
  unfold scanString
  rw [bind_of_done (takeContents_after behind)]
  by_cases quoted : '"' ∈ rest
  · rcases List.eq_append_cons_of_mem quoted with ⟨contents, after, rfl, unquoted⟩
    let closed := ((start.after ['"']).after contents).after ['"']
    have closing : source.At _ (34 :: encoded after) ((start.after ['"']).after contents).place :=
      (behind.after contents).bytes
    have cut : source.textBetween (closed.first + 1) (closed.place - 1) closed =
        done (String.ofList contents) closed := by
      have first : closed.first + 1 = (start.after ['"']).place := congrArg (· + 1) starts.first
      rw [first]
      exact textBetween_apply _ behind
    have passed : closed = start.after ('"' :: (contents ++ ['"'])) := by
      simp only [closed, ← Caret.after_append]
      rfl
    rw [takeWhile_run (Piece.not_isQuote_of_not_mem unquoted) (Piece.isQuote_stops after),
      Piece.takeString_closed unquoted, bind_of_done (atEnd_apply closing)]
    refine (bind_of_done (advance_apply closing) _).trans ?_
    refine (bind_of_done (get_apply closed) _).trans ?_
    rw [bind_of_done cut, passed]
    rfl
  · have ended : source.At _ [] ((start.after ['"']).after rest).place :=
      (behind.whole.after rest).bytes
    have passed : (start.after ['"']).after rest = start.after ('"' :: rest) :=
      (Caret.after_append start ['"'] rest).symm
    rw [takeWhile_all (Piece.not_isQuote_of_not_mem quoted), Piece.takeString_unclosed quoted,
      bind_of_done (atEnd_apply ended), passed]
    exact starts.read_nothing (.unclosed _) rfl

/-! ### Numbers -/

theorem takeFraction_of_pos {fraction after : List Char} {caret : Caret}
    (digits : Digits fraction) (stops : ∀ next ∈ after.head?, isDigit next = false)
    (between : source.Between before ('.' :: (fraction ++ after)) caret.place) :
    source.takeFraction caret = done ⟨⟩ (caret.after ('.' :: fraction)) := by
  have behind : source.Between (before ++ ['.']) (fraction ++ after) (caret.after ['.']).place :=
    between.after ['.']
  have point : source.At _ (46 :: encoded (fraction ++ after)) caret.place := between.bytes
  have digital : isByteOf isDigit ((encoded (fraction ++ after)).headD 0) = true := by
    rw [isByteOf_headD unaccented_digit _ rfl]
    rcases digits.starts with ⟨digit, others, rfl, digital⟩
    exact digital
  unfold takeFraction
  rw [bind_of_done (peek_apply point), List.headD_cons, if_pos (by rfl),
    bind_of_done (peekNext_apply point), List.tail_cons, if_pos digital,
    bind_of_done (advance_apply point)]
  refine (takeWhile_after unaccented_digit rfl rfl behind).trans ?_
  rw [takeWhile_run digits.2 stops, ← Caret.after_append, List.singleton_append]

theorem takeFraction_of_neg {tail : List Char} {caret : Caret}
    (unlike : ∀ next others, tail = '.' :: next :: others → isDigit next = false)
    (between : source.Between before tail caret.place) :
    source.takeFraction caret = done ⟨⟩ caret := by
  unfold takeFraction
  rw [bind_of_done (peek_apply between.bytes),
    isByteOf_headD (unaccented_eq (by decide)) _ rfl]
  match tail with
  | [] => rfl
  | next :: others =>
      cases point : decide (next = '.') with
      | false => simp [point]
      | true =>
          cases of_decide_eq_true point
          have digital : isByteOf isDigit ((encoded others).headD 0) = false := by
            rw [isByteOf_headD unaccented_digit _ rfl]
            cases others with
            | nil => rfl
            | cons next others => exact unlike next others rfl
          have pointed : source.At _ (46 :: encoded others) caret.place := between.bytes
          refine (bind_of_done (peekNext_apply pointed) _).trans ?_
          rw [List.tail_cons, digital]
          rfl

/-- The value of a lexeme is read from its text. -/
theorem numberOf_whole {digits : List Char} (within : ∀ digit ∈ digits, isDigit digit = true) :
    numberOf (String.ofList digits) = decimal digits [] := by
  have unlike : ∀ digit ∈ digits, (digit ≠ '.' : Bool) = true := by
    intro digit member
    rw [decide_eq_true_iff]
    rintro rfl
    exact absurd (within _ member) (by decide)
  rw [numberOf, String.toList_ofList, takeWhile_all unlike, dropWhile_all unlike]
  rfl

theorem numberOf_point {whole : List Char} (within : ∀ digit ∈ whole, isDigit digit = true)
    (fraction : List Char) :
    numberOf (String.ofList (whole ++ '.' :: fraction)) = decimal whole fraction := by
  have unlike : ∀ digit ∈ whole, (digit ≠ '.' : Bool) = true := by
    intro digit member
    rw [decide_eq_true_iff]
    rintro rfl
    exact absurd (within _ member) (by decide)
  have stops : ∀ next ∈ ('.' :: fraction).head?, (next ≠ '.' : Bool) = false := by
    rintro _ ⟨⟩
    rfl
  rw [numberOf, String.toList_ofList, takeWhile_run unlike stops, dropWhile_run unlike stops]
  rfl

theorem scanNumber_apply {first : Char} (digit : isDigit first = true)
    (starts : source.Starts before (first :: rest) start) :
    source.scanNumber (start.after [first]) = start.reads (Piece.takeNumber (first :: rest)).1 := by
  have behind : source.Between (before ++ [first]) rest (start.after [first]).place :=
    starts.between.after [first]
  rcases exists_run isDigit rest with ⟨run, tail, rfl, within, stops⟩
  have digits : ∀ character ∈ first :: run, isDigit character = true :=
    List.forall_mem_cons.mpr ⟨digit, within⟩
  have passed : (start.after [first]).after run = start.after (first :: run) :=
    (Caret.after_append start [first] run).symm
  have onward : source.Between (before ++ [first] ++ run) tail (start.after (first :: run)).place :=
    passed ▸ behind.after run
  unfold scanNumber
  rw [bind_of_done (takeWhile_after unaccented_digit rfl rfl behind), takeWhile_run within stops,
    passed]
  by_cases pointed : ∃ next others, tail = '.' :: next :: others ∧ isDigit next = true
  · rcases pointed with ⟨next, others, rfl, digital⟩
    rcases exists_run isDigit (next :: others) with ⟨fraction, after, equal, inside, ends⟩
    have fractional : Digits fraction := .of_run digital equal inside ends
    rw [equal] at onward starts ⊢
    have whole : source.Starts before (((first :: run) ++ '.' :: fraction) ++ after) start := by
      rwa [List.append_assoc]
    rw [bind_of_done (takeFraction_of_pos fractional ends onward), ← Caret.after_append,
      bind_of_done (lexeme_apply _ whole), numberOf_point digits, ← List.cons_append,
      Piece.takeNumber_decimal digits fractional ends]
    rfl
  · have unlike : ∀ next others, tail = '.' :: next :: others → isDigit next = false := by
      intro next others equal
      rw [Bool.eq_false_iff]
      intro digital
      exact pointed ⟨next, others, equal, digital⟩
    rw [bind_of_done (takeFraction_of_neg unlike onward),
      bind_of_done (lexeme_apply (first :: run) starts), numberOf_whole digits,
      ← List.cons_append, Piece.takeNumber_digits digits stops unlike]
    rfl

/-! ### Words -/

/-- A word is looked up by its bytes. -/
theorem wordKindOf_utf8Encode (word : List Char) : wordKindOf word.utf8Encode = wordKind word := by
  have same (keyword : Keyword) :
      (keyword.text.toUTF8.data == word.utf8Encode.data) = (keyword.text == String.ofList word) := by
    rw [Bool.eq_iff_iff, beq_iff_eq, beq_iff_eq, ← String.toByteArray_inj,
      String.toByteArray_ofList, ByteArray.ext_iff]
    rfl
  have found : (Keyword.all.find? fun keyword =>
      keyword.text.toUTF8.data == word.utf8Encode.data) = Keyword.ofText? (String.ofList word) :=
    congrArg (List.find? · Keyword.all) (funext same)
  unfold wordKindOf wordKind
  cases kind : Keyword.ofText? (String.ofList word) with
  | none => simp only [found, kind]
  | some keyword => simp only [found, kind]

theorem scanWord_apply {first : Char} (letter : isLetter first = true)
    (starts : source.Starts before (first :: rest) start) :
    source.scanWord (start.after [first]) = start.reads (Piece.takeWord (first :: rest)).1 := by
  have behind : source.Between (before ++ [first]) rest (start.after [first]).place :=
    starts.between.after [first]
  rcases exists_run isWordCharacter rest with ⟨run, tail, rfl, within, stops⟩
  have word : ∀ character ∈ first :: run, isWordCharacter character = true :=
    isWordCharacter_word letter within
  have passed : (start.after [first]).after run = start.after (first :: run) :=
    (Caret.after_append start [first] run).symm
  have bytes : source.bytesBetween (start.after (first :: run)).first
      (start.after (first :: run)).place (start.after (first :: run)) =
        done (first :: run).utf8Encode (start.after (first :: run)) := by
    have place : (start.after (first :: run)).first = start.place := starts.first
    rw [place]
    exact bytesBetween_apply (first :: run) starts.between
  unfold scanWord
  rw [bind_of_done (takeWhile_after unaccented_wordCharacter rfl rfl behind),
    takeWhile_run within stops, passed, bind_of_done (get_apply _), bind_of_done bytes,
    wordKindOf_utf8Encode, Piece.takeWord, ← List.cons_append, takeWhile_run word stops]
  rfl

/-! ### Marks, comments and characters that start nothing -/

theorem takeIf_after (expected : Char) (small : expected.toNat < 128) (inLine : expected ≠ '\n')
    {caret : Caret} (between : source.Between before rest caret.place) :
    source.takeIf expected caret =
      if rest.head? = some expected then done true (caret.after [expected])
      else done false caret := by
  cases rest with
  | nil => exact takeIf_of_neg between.bytes nofun
  | cons next others =>
      have bytes := between.bytes
      rw [encoded_cons] at bytes
      rcases utf8EncodeChar_kind (unaccented_eq small) next with
        ⟨holds, byte, alone, is⟩ | ⟨fails, none⟩
      · have same : next = expected := of_decide_eq_true holds
        subst same
        have ordinary : ∀ character ∈ [next], isLineEnd character = false := by
          simpa [isLineEnd] using inLine
        rw [alone] at bytes
        rw [takeIf_of_pos bytes is, List.head?_cons, if_pos rfl, ← caret.moved_eq_after ordinary,
          encoded_cons, alone]
        rfl
      · rw [List.head?_cons, if_neg (by simpa using fails)]
        refine takeIf_of_neg bytes fun byte first => none byte ?_
        cases encoding : String.utf8EncodeChar next with
        | nil => exact absurd encoding (by simp)
        | cons byte' more =>
            rw [encoding] at first
            cases first
            exact List.mem_cons_self

theorem scanComment_apply (starts : source.Starts before ('/' :: '/' :: rest) start) :
    source.scanComment (start.after ['/', '/']) = start.reads (Piece.takeComment rest).1 := by
  have behind : source.Between (before ++ ['/', '/']) rest (start.after ['/', '/']).place :=
    starts.between.after ['/', '/']
  have bytes : source.bytesBetween (start.after ['/', '/']).place source.size
      (start.after ['/', '/']) = done rest.utf8Encode (start.after ['/', '/']) := by
    rw [behind.bytes.size_eq]
    exact bytesBetween_apply rest behind.whole
  have passed : (encoded rest).findIdx (isByteOf isLineEnd) =
      (encoded (rest.takeWhile (!isLineEnd ·))).length := by
    rw [← takeWhile_not_encoded unaccented_lineEnd, List.takeWhile_eq_take_findIdx_not,
      List.length_take, Nat.min_eq_left List.findIdx_le_length]
    simp
  unfold scanComment
  rw [bind_of_done (get_apply _), bind_of_done bytes, utf8Encode_data, passed]
  refine Eq.trans ?_ (starts.read_nothing (Piece.takeComment rest).1 rfl)
  have within : ∀ character ∈ rest.takeWhile (!isLineEnd ·), isLineEnd character = false := by
    intro character member
    simpa using List.all_eq_true.mp List.all_takeWhile character member
  have reached : (start.after ['/', '/']).moved (encoded (rest.takeWhile (!isLineEnd ·))).length =
      start.after (Piece.takeComment rest).1.text := by
    rw [Caret.moved_eq_after _ within, ← Caret.after_append]
    rfl
  rw [← reached]
  rfl

theorem scanMark_apply {first : Char} (starts : source.Starts before (first :: rest) start)
    {single : Mark} (found : Mark.single? first = some single) :
    source.scanMark (Mark.double? first) single (start.after [first]) =
      start.reads (Piece.takeMark first rest).1 := by
  have behind : source.Between (before ++ [first]) rest (start.after [first]).place :=
    starts.between.after [first]
  unfold scanMark Piece.takeMark
  cases double : Mark.double? first with
  | none =>
      rw [found]
      rfl
  | some mark =>
      have taken := takeIf_after '=' (by decide) (by decide) behind
      split at taken
      · rename_i equals
        rcases List.head?_eq_some_iff.mp equals with ⟨others, rfl⟩
        refine (bind_of_done taken _).trans ?_
        rw [← Caret.after_append]
        rfl
      · rename_i unequal
        refine (bind_of_done taken _).trans ?_
        rw [found, if_neg (by simp)]
        split
        · exact absurd rfl unequal
        · rfl

theorem scanStray_apply {first : Char} (starts : source.Starts before (first :: rest) start)
    (ordinary : first ≠ '\n') (spare : UInt8 → Char) (byte : UInt8) :
    source.scanStray spare byte (start.moved 1) = start.reads (.stray first) := by
  have bytes : source.textBetween start.place source.size (start.moved 1) =
      done (String.ofList (first :: rest)) (start.moved 1) := by
    rw [starts.between.bytes.size_eq]
    exact textBetween_apply _ starts.between.whole
  have place : (start.moved 1).first = start.place := starts.first
  unfold scanStray
  rw [bind_of_done (get_apply _), place, bind_of_done bytes, String.toList_ofList]
  have reached : start.moved first.utf8Size = start.after [first] := by
    rw [← start.moved_eq_after (by simpa [isLineEnd] using ordinary), encoded_cons,
      encoded_nil, List.append_nil, String.length_utf8EncodeChar]
  refine Eq.trans ?_ (starts.read_nothing (.stray first) rfl)
  rw [Piece.text, ← reached]
  simp [Caret.moved, starts.first, Piece.problem?, bind_apply, done_bind]

/-! ### Every lexeme -/

theorem double?_of_single? {first : Char} (unmarked : Mark.single? first = none) :
    Mark.double? first = none := by
  unfold Mark.double?
  split
  · cases unmarked
  · cases unmarked
  · cases unmarked
  · cases unmarked
  · rfl

theorem takeMark_unmarked {first : Char} (unmarked : Mark.single? first = none) :
    (Piece.takeMark first rest).1 = .stray first := by
  unfold Piece.takeMark
  rw [double?_of_single? unmarked, unmarked]

theorem take_sign {first : Char} (sign : isSign first = true)
    (uncommented : ¬ StartsComment (first :: rest)) :
    Piece.take first rest = Piece.takeMark first rest := by
  simp only [isSign, Bool.and_eq_true, Bool.not_eq_true'] at sign
  unfold Piece.take
  rw [sign.1.1.1, sign.1.1.2, sign.1.2, sign.2]
  simp only [Bool.false_eq_true, if_false]
  split
  · exact absurd ⟨_, rfl⟩ uncommented
  · rfl

/-- A slash begins a comment or is a mark. -/
theorem scanSlash_apply (starts : source.Starts before ('/' :: rest) start) :
    (source.takeIf '/' >>= fun again =>
      if again then source.scanComment else source.scanMark none .slash) (start.after ['/']) =
      start.reads (Piece.take '/' rest).1 := by
  have behind : source.Between (before ++ ['/']) rest (start.after ['/']).place :=
    starts.between.after ['/']
  have taken := takeIf_after '/' (by decide) (by decide) behind
  split at taken
  · rename_i again
    rcases List.head?_eq_some_iff.mp again with ⟨others, rfl⟩
    rw [bind_of_done taken, ← Caret.after_append]
    exact scanComment_apply starts
  · rename_i other
    have uncommented : ¬ StartsComment ('/' :: rest) := by
      intro comment
      rcases comment with ⟨others, equal⟩
      cases equal
      exact other rfl
    rw [bind_of_done taken, take_sign rfl uncommented]
    exact scanMark_apply starts rfl

theorem scanLexeme_unaccented {first : Char} (small : first.toNat < 128)
    (starts : source.Starts before (first :: rest) start) (spare : UInt8 → Char) :
    source.scanLexeme spare start = start.reads (Piece.take first rest).1 := by
  rcases utf8EncodeChar_unaccented small with ⟨byte, alone, same⟩
  have bytes : source.At (encoded before) (byte :: encoded rest) start.place := by
    have bytes := starts.between.bytes
    rwa [encoded_cons, alone] at bytes
  unfold scanLexeme
  rw [bind_of_done (advance_apply bytes), same]
  by_cases lineEnd : first = '\n'
  · cases lineEnd
    exact starts.read_nothing (.blank '\n') rfl
  have reached : start.moved 1 = start.after [first] := by
    rw [← start.moved_eq_after (by simpa [isLineEnd] using lineEnd), encoded_cons, alone]
    rfl
  rw [if_neg lineEnd, reached]
  split
  · rename_i blank
    have taken : Piece.take first rest = (.blank first, rest) := if_pos blank
    rw [taken]
    exact starts.read_nothing (.blank first) rfl
  rename_i solid
  split
  · rename_i quoted
    cases isQuote_iff.mp quoted
    exact scanString_apply starts
  rename_i unquoted
  split
  · rename_i digit
    rw [Piece.take_digit rest digit]
    exact scanNumber_apply digit starts
  rename_i notDigit
  split
  · rename_i letter
    rw [Piece.take_letter rest letter]
    exact scanWord_apply letter starts
  rename_i notLetter
  have sign : isSign first = true := by
    simp [isSign, solid, unquoted, notDigit, notLetter]
  split
  · rename_i slash
    cases slash
    exact scanSlash_apply starts
  · rename_i unlike
    rw [take_sign sign (not_startsComment_of_ne unlike)]
    cases marked : Mark.single? first with
    | some mark => exact scanMark_apply starts marked
    | none =>
        rw [takeMark_unmarked marked, ← reached]
        exact scanStray_apply starts lineEnd spare byte

theorem ne_of_accented {character : Char} (accented : 128 ≤ character.toNat) (other : Char)
    (small : other.toNat < 128) : character ≠ other := by
  rintro rfl
  omega

theorem single?_accented {character : Char} (accented : 128 ≤ character.toNat) :
    Mark.single? character = none := by
  unfold Mark.single?
  split <;> first | rfl | exact absurd accented (by decide)

theorem isSign_accented {character : Char} (accented : 128 ≤ character.toNat) :
    isSign character = true := by
  have other {kind : Char → Bool} (unaccented : Unaccented kind) : kind character = false := by
    rw [Bool.eq_false_iff]
    intro holds
    have := unaccented character holds
    omega
  have blank : Unaccented isBlank := by
    intro character blank
    rw [Piece.isBlank_iff] at blank
    simp only [List.mem_cons, List.not_mem_nil, or_false] at blank
    rcases blank with rfl | rfl | rfl | rfl <;> decide
  simp [isSign, other unaccented_digit, other unaccented_letter, other unaccented_quote,
    other blank]

/-- No byte of an accented character starts a lexeme. -/
theorem scanLexeme_accented {first : Char} (accented : 128 ≤ first.toNat)
    (starts : source.Starts before (first :: rest) start) (spare : UInt8 → Char) :
    source.scanLexeme spare start = start.reads (Piece.take first rest).1 := by
  rw [take_sign (isSign_accented accented)
      (not_startsComment_of_ne (ne_of_accented accented _ (by decide))),
    takeMark_unmarked (single?_accented accented)]
  have bytes := starts.between.bytes
  rw [encoded_cons] at bytes
  cases encoding : String.utf8EncodeChar first with
  | nil => exact absurd encoding (by simp)
  | cons byte others =>
      rw [encoding, List.cons_append] at bytes
      have large : 128 ≤ (Char.ofUInt8 byte).toNat := by
        rw [toNat_ofUInt8]
        exact utf8EncodeChar_accented accented byte (encoding ▸ List.mem_cons_self)
      have sign := isSign_accented large
      simp only [isSign, Bool.and_eq_true, Bool.not_eq_true'] at sign
      unfold scanLexeme
      rw [bind_of_done (advance_apply bytes)]
      simp only [ne_of_accented large '\n' (by decide),
        ne_of_accented large '/' (by decide), sign, Bool.false_eq_true, if_false,
        single?_accented large]
      exact scanStray_apply starts (ne_of_accented accented _ (by decide)) spare byte

theorem scanLexeme_apply {first : Char} (starts : source.Starts before (first :: rest) start)
    (spare : UInt8 → Char) :
    source.scanLexeme spare start = start.reads (Piece.take first rest).1 := by
  by_cases small : first.toNat < 128
  · exact scanLexeme_unaccented small starts spare
  · exact scanLexeme_accented (Nat.le_of_not_lt small) starts spare

end

end Source

/-! ## Items -/

namespace Source

variable {source : Source} {before rest : List Char} {caret : Caret}

/-- At the end there is one more item. -/
theorem next_end (between : source.Between before [] caret.place) (spare : UInt8 → Char) :
    source.next spare caret = done (some (.token (.endOfInput caret.line))) (caret.moved 1) := by
  have size : source.size = caret.place := between.bytes.size_eq
  rw [next, bind_of_done (get_apply _), if_neg (by omega), if_pos size.symm]
  rfl

theorem next_behind (behind : source.size < caret.place) (spare : UInt8 → Char) :
    source.next spare caret = done none caret := by
  rw [next, bind_of_done (get_apply _), if_pos behind]
  rfl

/-- A piece is an item, or what follows it is scanned for one. -/
theorem next_piece {first : Char} (between : source.Between before (first :: rest) caret.place) :
    ∃ after : Caret, source.Between (before ++ (Piece.take first rest).1.text)
        (Piece.take first rest).2 after.place ∧
      after.line = caret.line + (Piece.take first rest).1.newlines ∧
      ∀ spare, source.next spare caret =
        match (Piece.take first rest).1.item? after.line with
        | some item => done (some item) after
        | none => source.next spare after := by
  let start : Caret := { caret with first := caret.place, pending := none }
  have starts : source.Starts before (first :: rest) start := ⟨between, rfl, rfl⟩
  have inside : caret.place < source.size := by
    have size := between.bytes.size_eq
    have bytes := length_le_encoded (first :: rest)
    rw [List.length_cons] at bytes
    omega
  have read := scanLexeme_apply starts
  have whole := Piece.take_text first rest
  generalize Piece.take first rest = taken at read whole
  rcases taken with ⟨piece, others⟩
  dsimp only at read whole ⊢
  rw [← whole] at starts
  refine ⟨start.after piece.text, starts.between.after _, start.line_after piece.text, ?_⟩
  intro spare
  conv =>
    lhs
    rw [next, bind_of_done (get_apply _), if_neg (by omega), if_neg (by omega)]
  refine (bind_of_done (set_apply _ _) _).trans ((bind_of_done (read spare) _).trans ?_)
  cases piece with
  | blank | comment | stray | unclosed => rfl
  | lexeme kind text =>
      refine (bind_of_done (get_apply _) _).trans ((bind_of_done (set_apply _ _) _).trans ?_)
      exact bind_of_done (lexeme_apply _ starts) _

theorem scanAll_of_item {spare : UInt8 → Char} {item : Item} {items : List Item}
    {after final : Caret} (found : source.next spare caret = done (some item) after)
    (others : source.scanAll spare after = done items final) :
    source.scanAll spare caret = done (item :: items) final := by
  rw [scanAll, bind_of_done found]
  exact bind_of_done others _

theorem scanAll_of_end {spare : UInt8 → Char} {after : Caret}
    (found : source.next spare caret = done none after) :
    source.scanAll spare caret = done [] after := by
  rw [scanAll, bind_of_done found]
  rfl

/-- All items are those of the pieces, and behind them there is none. -/
theorem scanAll_apply (between : source.Between before rest caret.place) :
    ∃ final : Caret, source.size < final.place ∧ ∀ spare,
      source.scanAll spare caret = done (Item.ofPieces caret.line (pieces rest)) final := by
  induction rest using pieces.induct generalizing before caret with
  | case1 =>
      have size : source.size = caret.place := between.bytes.size_eq
      have behind : source.size < (caret.moved 1).place := size ▸ Nat.lt_succ_self _
      rw [pieces_nil]
      refine ⟨caret.moved 1, behind, fun spare => ?_⟩
      exact scanAll_of_item (next_end between spare) (scanAll_of_end (next_behind behind spare))
  | case2 first rest induction =>
      rcases next_piece between with ⟨after, onward, line, found⟩
      rcases induction onward with ⟨final, behind, scanned⟩
      refine ⟨final, behind, fun spare => ?_⟩
      have found := found spare
      rw [pieces_cons, Item.ofPieces, ← line]
      split at found
      · rename_i item same
        rw [same]
        exact scanAll_of_item found (scanned spare)
      · rename_i same
        rw [same, Option.toList_none, List.nil_append, ← scanned spare, scanAll, scanAll,
          bind_apply, bind_apply, found]

end Source

/-! ## The whole source -/

theorem length_pieces (text : List Char) : (pieces text).length ≤ text.length := by
  induction text using pieces.induct with
  | case1 => simp [pieces_nil]
  | case2 first rest induction =>
      have shorter := Piece.take_shorter first rest
      rw [pieces_cons, List.length_cons]
      omega

theorem Item.length_ofPieces (line : Nat) (pieces : List Piece) :
    (ofPieces line pieces).length ≤ pieces.length + 1 := by
  induction pieces generalizing line with
  | nil => exact Nat.le_refl _
  | cons piece rest induction =>
      have alone := Option.length_toList_le (o := piece.item? (line + piece.newlines))
      have others := induction (line + piece.newlines)
      rw [ofPieces, List.length_append, List.length_cons]
      omega

theorem length_scan (text : String) : (scan text).length ≤ text.utf8ByteSize + 1 := by
  have items := Item.length_ofPieces 1 (pieces text.toList)
  have pieces := length_pieces text.toList
  have bytes := length_le_encoded text.toList
  have size := utf8ByteSize_ofList text.toList
  rw [String.ofList_toList] at size
  rw [scan]
  omega

/-- Scanning in place ends, without a mishap, with the items of the source. They are at most
one more than its bytes, no spare character is ever used, and behind the last item the caret
stays where it is and finds none. -/
theorem scan_in_place (text : String) :
    (scan text).length ≤ text.utf8ByteSize + 1 ∧
      ∃ final : Caret, ∀ spare : UInt8 → Char,
        scanInPlace spare text = some (.ok (scan text, final)) ∧
          (Source.ofString text).next spare final = some (.ok (none, final)) := by
  have between : (Source.ofString text).Between [] text.toList Caret.atStart.place := ⟨rfl, rfl⟩
  rcases Source.scanAll_apply between with ⟨final, behind, scanned⟩
  exact ⟨length_scan text, final, fun spare => ⟨scanned spare, Source.next_behind behind spare⟩⟩

end Lox
