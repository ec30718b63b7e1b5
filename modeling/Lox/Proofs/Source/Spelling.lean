import Lox.Proofs.Source.Lexemes
/-! How the words of a source are spelled. Every token but the one that ends the input is a
lexeme of its kind. -/

namespace Lox

/-- A name is spelled like no reserved word, and a reserved word like itself. -/
structure Token.Spelled (token : Token) : Prop where
  name : token.kind = .identifier → Keyword.ofText? token.lexeme = none
  word : ∀ keyword, token.kind = .keyword keyword → token.lexeme = keyword.text

/-- The token has the kind of its text. -/
def Token.Written (token : Token) : Prop :=
  Lexeme token.lexeme.toList token.kind

theorem Lexed.written {before rest : List Char} {items : List Item}
    (lexed : Lexed before rest items) :
    ∀ token, .token token ∈ items → token.isEnd = false → token.Written := by
  induction lexed with
  | finish =>
      intro token member goesOn
      cases List.mem_singleton.mp member
      cases goesOn
  | blank _ _ induction | comment _ _ _ induction => exact induction
  | @token before text rest kind items _ longest _ induction =>
      intro token member
      cases member with
      | head =>
          intro _
          simpa [Token.Written] using longest.lexeme
      | tail _ member => exact induction token member
  | stray _ _ _ _ induction | unclosed _ _ _ induction =>
      intro token member
      cases member with
      | tail _ member => exact induction token member

theorem mem_tokensOf {source : String} {token : Token} :
    token ∈ tokensOf source ↔ .token token ∈ scan source := by
  rw [tokensOf, List.mem_filterMap]
  constructor
  · rintro ⟨item, member, found⟩
    cases item with
    | token other =>
        cases found
        exact member
    | problem => cases found
  · intro member
    exact ⟨_, member, rfl⟩

theorem tokensOf_written (source : String) :
    ∀ token ∈ tokensOf source, token.isEnd = false → token.Written := by
  intro token member
  exact (Item.ofPieces_lexed [] source.toList).written token (mem_tokensOf.mp member)

theorem Token.Written.spelled {token : Token} (written : token.Written) : token.Spelled := by
  constructor
  · intro kind
    rw [Written, kind] at written
    cases found : Keyword.ofText? token.lexeme with
    | none => rfl
    | some word =>
        have text := (Keyword.ofText?_eq_some_iff _ _).mp found
        rw [← text] at written
        cases written.kind_unique (.keyword word)
  · intro keyword kind
    rw [Written, kind] at written
    generalize same : token.lexeme.toList = text at written
    cases written
    exact String.toList_inj.mp same

/-- Every word of a source is spelled like its kind. -/
theorem tokensOf_spelled (source : String) : ∀ token ∈ tokensOf source, token.Spelled := by
  intro token member
  cases ends : token.isEnd with
  | false => exact (tokensOf_written source token member ends).spelled
  | true =>
      constructor
      · intro kind
        simp [Token.isEnd, kind] at ends
      · intro keyword kind
        simp [Token.isEnd, kind] at ends

end Lox
