import Lox.Proofs.Source.Joining
import Lox.Proofs.Source.Spelling
import Lox.Proofs.Tree.Bare
/-! Sources written again. The lexemes of a source, with single spaces between them, are a
source with the same tokens. -/

namespace Lox

/-- The texts of the tokens, with single spaces between them. -/
def spaced (tokens : List Token) : String :=
  String.intercalate " " (tokens.map Token.lexeme)

theorem toList_spaced_cons_cons (token next : Token) (rest : List Token) :
    (spaced (token :: next :: rest)).toList =
      token.lexeme.toList ++ ' ' :: (spaced (next :: rest)).toList := by
  simp [spaced]

/-! ## A lexeme among others -/

namespace Lexeme

variable {text : List Char} {kind : TokenKind} (lexeme : Lexeme text kind)

include lexeme

theorem pieces_alone : pieces text = [.lexeme kind text] := by
  rcases lexeme.taken with ⟨first, rest, rfl, taken⟩
  rw [pieces_cons, taken, pieces_nil]

/-- A space ends every lexeme: a string holds its spaces between its quotes. -/
theorem pieces_spaced (after : List Char) :
    pieces (text ++ ' ' :: after) = .lexeme kind text :: .blank ' ' :: pieces after := by
  have ends : ∀ piece ∈ pieces text, piece.EndsAt ' ' := by
    rw [lexeme.pieces_alone]
    intro piece member
    cases List.mem_singleton.mp member
    trivial
  rw [pieces_append (by decide) after ends, lexeme.pieces_alone]
  rfl

end Lexeme

/-! ## All lexemes -/

/-- Spaced tokens are scanned to the same tokens, wherever their text starts. -/
theorem ofPieces_spaced {tokens : List Token} (written : ∀ token ∈ tokens, token.Written)
    (line : Nat) : ∃ (found : List Token) (last : Nat),
      Item.ofPieces line (pieces (spaced tokens).toList) =
        found.map .token ++ [.token (.endOfInput last)] ∧
      found.map Token.bare = tokens.map Token.bare := by
  induction tokens generalizing line with
  | nil =>
      refine ⟨[], line, ?_, rfl⟩
      rw [spaced, List.map_nil, String.intercalate_nil, String.toList_empty, pieces_nil]
      rfl
  | cons token rest induction =>
      rw [List.forall_mem_cons] at written
      have lexeme : Lexeme token.lexeme.toList token.kind := written.1
      let again : Token := ⟨token.kind, String.ofList token.lexeme.toList,
        line + (Piece.lexeme token.kind token.lexeme.toList).newlines⟩
      have same : again.bare = token.bare := by simp [again, Token.bare]
      cases rest with
      | nil =>
          have alone : (spaced [token]).toList = token.lexeme.toList := by simp [spaced]
          rw [alone, lexeme.pieces_alone]
          exact ⟨[again], _, rfl, congrArg ([·]) same⟩
      | cons next rest =>
          rw [toList_spaced_cons_cons, lexeme.pieces_spaced]
          rcases induction written.2 _ with ⟨found, last, scanned, others⟩
          refine ⟨again :: found, last, ?_, ?_⟩
          · rw [Item.ofPieces, Item.ofPieces, scanned]
            rfl
          · rw [List.map_cons, others, same]
            rfl

theorem written_of_mem_sentence {source : String} {token : Token}
    (member : token ∈ sentence (tokensOf source)) : token.Written := by
  have inside := (List.takeWhile_sublist _).subset member
  have goesOn := List.all_eq_true.mp List.all_takeWhile token member
  exact tokensOf_written source token inside (by simpa using goesOn)

/-- The lexemes of a source, with single spaces between them, are scanned without an error to
tokens of the same kinds, with the same values and texts. What is an error in the source is no
lexeme, so the source itself may have any. -/
theorem scan_spaced (source : String) :
    lexicalProblems (spaced (sentence (tokensOf source))) = [] ∧
      ∃ found last, tokensOf (spaced (sentence (tokensOf source))) = found ++ [.endOfInput last] ∧
        found.map Token.bare = (sentence (tokensOf source)).map Token.bare := by
  have written : ∀ token ∈ sentence (tokensOf source), token.Written :=
    fun _ => written_of_mem_sentence
  rcases ofPieces_spaced written 1 with
    ⟨found, last, scanned, same⟩
  have items : scan (spaced (sentence (tokensOf source))) =
      found.map .token ++ [.token (.endOfInput last)] := scanned
  refine ⟨?_, found, last, ?_, same⟩
  · rw [lexicalProblems, items]
    simp [List.filterMap_map, Item.problem?, Function.comp_def]
  · rw [tokensOf, items]
    simp [List.filterMap_map, Item.token?, Function.comp_def]

end Lox
