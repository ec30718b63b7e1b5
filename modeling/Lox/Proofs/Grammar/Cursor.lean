import Lox.Grammar.InPlace
import Lox.Grammar.Program
import Mathlib.Data.List.TakeWhile
/-! A cursor in a row stands for the tokens that are left in front of the end. What a cursor
sees and does is said here in terms of that list. -/

namespace Lox

namespace Row

variable (row : Row)

/-- The tokens that can be taken. -/
def sentence : List Token :=
  Lox.sentence row.tokens.toList

theorem sentence_prefix : row.sentence <+: row.tokens.toList :=
  List.takeWhile_prefix _

theorem length_sentence_le : row.sentence.length ≤ row.tokens.size := by
  simpa using row.sentence_prefix.length_le

/-- Where the cursor stands when these tokens are left. -/
def placeOf (rest : List Token) : Fin row.tokens.size :=
  ⟨min (row.sentence.length - rest.length) (row.tokens.size - 1), by
    have := row.occupied
    omega⟩

/-- The token in view when nothing is left. -/
def final : Token :=
  row.tokens[row.placeOf []]

def blame (error : GrammarError) : Blame row :=
  ⟨error.fault, row.placeOf error.rest⟩

variable (earlier : List (Blame row))

/-- The cursor in front of these tokens, with this draft; `earlier` errors were recorded before
the draft was started. -/
def cursor (rest : List Token) (draft : Draft) : Cursor row :=
  ⟨row.sentence.length - rest.length, by
      have := row.length_sentence_le
      omega,
    draft.nextId, earlier ++ draft.errors.map row.blame⟩

end Row

/-! ## The row and the list -/

namespace Row

variable {row : Row} {token : Token} {others rest : List Token}

/-- In front of the end the token in view is the next one. -/
theorem getElem_placeOf (suffix : token :: others <:+ row.sentence) :
    row.tokens[row.placeOf (token :: others)] = token := by
  rcases suffix with ⟨taken, split⟩
  have place : (row.placeOf (token :: others)).val = taken.length := by
    have bound := row.length_sentence_le
    have length := congrArg List.length split
    simp only [List.length_append, List.length_cons] at length
    simp only [placeOf, List.length_cons]
    omega
  rcases row.sentence_prefix with ⟨behind, whole⟩
  have found : row.tokens.toList[taken.length]? = some token := by
    rw [← whole, ← split, List.append_assoc, List.getElem?_append_right (Nat.le_refl _)]
    simp
  rw [Array.getElem?_toList] at found
  simp only [Fin.getElem_fin, place]
  exact (Array.getElem?_eq_some_iff.mp found).choose_spec

theorem not_isEnd_of_suffix (suffix : token :: others <:+ row.sentence) :
    token.isEnd = false := by
  have member : token ∈ row.sentence := suffix.subset List.mem_cons_self
  simpa using List.mem_takeWhile_imp member

/-- What stands behind the sentence is the first token that ends the input. -/
theorem getElem?_length_sentence :
    row.tokens[row.sentence.length]? = row.tokens.toList.find? Token.isEnd := by
  have whole : row.tokens.toList = row.sentence ++ row.tokens.toList.dropWhile (!·.isEnd) :=
    List.takeWhile_append_dropWhile.symm
  have found : row.tokens.toList[row.sentence.length]? =
      (row.tokens.toList.dropWhile (!·.isEnd)).head? := by
    rw [congrArg (·[row.sentence.length]?) whole]
    simp only [List.getElem?_append_right (Nat.le_refl _), Nat.sub_self, List.head?_eq_getElem?]
  rw [List.find?_eq_head?_dropWhile_not, ← found, Array.getElem?_toList]

theorem final_eq : row.final = finalToken row.tokens.toList := by
  rw [finalToken, ← getElem?_length_sentence]
  by_cases closed : row.sentence.length < row.tokens.size
  · have place : (row.placeOf []).val = row.sentence.length := by
      simp only [placeOf, List.length_nil]
      omega
    simp only [final, Fin.getElem_fin, place, Array.getElem?_eq_getElem closed, Option.getD_some]
  · have place : (row.placeOf []).val = row.tokens.size - 1 := by
      simp only [placeOf, List.length_nil]
      omega
    have last : row.tokens.size - 1 < row.tokens.size := Nat.sub_one_lt_of_lt row.occupied
    rw [Array.getElem?_eq_none (by omega), Option.getD_none, List.getLastD_eq_getLast?,
      List.getLast?_eq_getElem?]
    simp [final, place, Array.getElem?_eq_getElem last]

/-- Behind the sentence is a token that ends the input, or nothing. -/
theorem isEnd_final_of_lt (closed : row.sentence.length < row.tokens.size) :
    row.final.isEnd = true := by
  have behind := row.getElem?_length_sentence
  rw [final_eq, finalToken, ← behind, Array.getElem?_eq_getElem closed]
  rw [Array.getElem?_eq_getElem closed] at behind
  exact List.find?_some behind.symm

end Row

/-! ## What a cursor sees -/

namespace Cursor

variable {row : Row} {earlier : List (Blame row)} {token : Token} {others rest : List Token}
  {draft : Draft}

@[simp] theorem position_cursor :
    (row.cursor earlier rest draft).position = row.sentence.length - rest.length := rfl

@[simp] theorem place_cursor : (row.cursor earlier rest draft).place = row.placeOf rest := rfl

theorem inView_cons (suffix : token :: others <:+ row.sentence) :
    (row.cursor earlier (token :: others) draft).inView = token :=
  Row.getElem_placeOf suffix

theorem inView_nil : (row.cursor earlier [] draft).inView = row.final := rfl

theorem atEnd_cons (suffix : token :: others <:+ row.sentence) :
    (row.cursor earlier (token :: others) draft).atEnd = false := by
  have before : ¬ row.tokens.size ≤ row.sentence.length - (others.length + 1) := by
    have := row.length_sentence_le
    have := suffix.length_le
    simp only [List.length_cons] at this
    omega
  rw [atEnd, inView_cons suffix, Row.not_isEnd_of_suffix suffix, Bool.or_false]
  exact decide_eq_false before

@[simp] theorem atEnd_nil : (row.cursor earlier [] draft).atEnd = true := by
  by_cases closed : row.sentence.length < row.tokens.size
  · simp [atEnd, inView_nil, Row.isEnd_final_of_lt closed]
  · simp [atEnd, Row.cursor, Nat.not_lt.mp closed]

theorem shows_cons (suffix : token :: others <:+ row.sentence) (kind : TokenKind) :
    (row.cursor earlier (token :: others) draft).shows kind = token.kind.alike kind := by
  rw [shows, atEnd_cons suffix, inView_cons suffix, Bool.not_false, Bool.true_and]

@[simp] theorem shows_nil (kind : TokenKind) :
    (row.cursor earlier [] draft).shows kind = false := by
  rw [shows, atEnd_nil, Bool.not_true, Bool.false_and]

/-! ## What a cursor does -/

theorem advance_cons (suffix : token :: others <:+ row.sentence) :
    (row.cursor earlier (token :: others) draft).advance = row.cursor earlier others draft := by
  have further : row.sentence.length - (others.length + 1) + 1 =
      row.sentence.length - others.length := by
    have := suffix.length_le
    simp only [List.length_cons] at this
    omega
  rw [advance, dif_neg (by simp [atEnd_cons suffix])]
  simp only [Row.cursor, List.length_cons, further]

@[simp] theorem advance_nil :
    (row.cursor earlier [] draft).advance = row.cursor earlier [] draft := by
  simp [advance]

theorem passedPlace_cursor (suffix : token :: others <:+ row.sentence) :
    (row.cursor earlier others draft).passedPlace = row.placeOf (token :: others) := by
  have := row.length_sentence_le
  have := suffix.length_le
  simp only [List.length_cons] at this
  simp only [passedPlace, Row.cursor, Row.placeOf, List.length_cons, Fin.mk.injEq]
  omega

theorem passed_cursor (suffix : token :: others <:+ row.sentence) :
    (row.cursor earlier others draft).passed = token := by
  simp only [passed, passedPlace_cursor suffix, Row.getElem_placeOf suffix]

theorem record_cursor (error : GrammarError) :
    (row.cursor earlier rest draft).record (row.blame error) =
      row.cursor earlier rest (draft.report error) := by
  simp [record, Row.cursor, Draft.report]

theorem skipOn_cursor {skipped : Token} (suffix : skipped :: rest <:+ row.sentence) :
    (row.cursor earlier rest draft).skipOn = row.cursor earlier (skipPast skipped rest) draft := by
  induction rest generalizing skipped with
  | nil =>
      rw [skipOn, dif_pos atEnd_nil, skipPast]
  | cons token others induction =>
      have inner : token :: others <:+ row.sentence := (List.suffix_cons ..).trans suffix
      rw [skipOn, dif_neg (by simp [atEnd_cons inner]), passed_cursor suffix, inView_cons inner,
        advance_cons inner, induction inner, skipPast]
      split <;> rfl

theorem recover_cursor (suffix : rest <:+ row.sentence) :
    (row.cursor earlier rest draft).recover = row.cursor earlier (Lox.recover rest) draft := by
  cases rest with
  | nil => rw [recover, advance_nil, skipOn, dif_pos atEnd_nil, Lox.recover]
  | cons offending rest =>
      rw [recover, advance_cons suffix, skipOn_cursor suffix, Lox.recover]

end Cursor

end Lox
