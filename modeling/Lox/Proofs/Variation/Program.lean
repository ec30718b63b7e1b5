import Lox.Proofs.Grammar.StatementSoundness
import Lox.Proofs.Variation.Statement
import Lox.Session
/-! Programs that are read from different numbers on. Which errors there are depends on the
tokens alone. -/

namespace Lox

namespace Grammar

/-- Both readings start without an error, and with numbers that are in step. -/
theorem Ahead.start {variation : Variation} {tokens others : List Token}
    (texts : variation.Texts tokens others) {firstId firstId' : OccurrenceId}
    (ids : ∀ taken, variation.ids (firstId + taken) (firstId' + taken)) :
    Ahead variation tokens others (.start firstId) (.start firstId') :=
  ⟨texts, ids, .nil⟩

/-- Whatever the tokens are, the numbers of what can be read lie from the first one on, and
none of them comes twice. -/
theorem parse_numbered (tokens : List Token) (firstId : OccurrenceId) :
    Numbered firstId (parse tokens firstId).nextId
      (Stmt.allOccurrences (parse tokens firstId).statements) := by
  have texts : (Variation.ofIds Eq fun _ => True).Texts (sentence tokens) (sentence tokens) :=
    Variation.ofIds_texts fun _ _ => trivial
  exact (readProgram_varies (Ahead.start texts fun _ => rfl)).1.1

/-- Without an error no number is left out. -/
theorem parse_filled {tokens : List Token} {firstId : OccurrenceId}
    (clean : (parse tokens firstId).diagnostics = []) :
    Filled firstId (parse tokens firstId).nextId
      (Stmt.allOccurrences (parse tokens firstId).statements) := by
  have errors : (readProgram (sentence tokens) (.start firstId)).2.errors = [] :=
    List.map_eq_nil_iff.mp clean
  exact (readProgram_finds (sentence tokens) (.start firstId) errors).2.filled

variable {ids : OccurrenceId → OccurrenceId → Prop} {allowed : Token → Prop}
  {firstId firstId' : OccurrenceId}

theorem GrammarError.eq_of_varies {error other : GrammarError}
    (varies : error.Varies (.ofIds ids allowed) other) : other = error := by
  rcases error with ⟨fault, rest⟩
  rcases other with ⟨fault', rest'⟩
  rcases varies with ⟨same, texts⟩
  rw [GrammarError.mk.injEq]
  exact ⟨same, Variation.eq_of_texts texts⟩

/-- The same tokens give the same diagnostics, and programs that differ in their numbers only. -/
theorem parse_varies {tokens : List Token} (all : ∀ token ∈ tokens, allowed token)
    (inStep : ∀ taken, ids (firstId + taken) (firstId' + taken)) :
    (parse tokens firstId').diagnostics = (parse tokens firstId).diagnostics ∧
      ids (parse tokens firstId).nextId (parse tokens firstId').nextId ∧
      Stmt.AllVary (.ofIds ids allowed) (parse tokens firstId).statements
        (parse tokens firstId').statements := by
  have texts : (Variation.ofIds ids allowed).Texts (sentence tokens) (sentence tokens) :=
    Variation.ofIds_texts fun token member =>
      all token ((List.takeWhile_sublist _).subset member)
  have read := readProgram_varies (Ahead.start texts inStep)
  have errors : (readProgram (sentence tokens) (.start firstId)).2.errors =
      (readProgram (sentence tokens) (.start firstId')).2.errors := by
    refine (congrFun₂ List.forall₂_eq_eq_eq _ _).mp ?_
    exact read.2.errors.imp fun _ _ varies => (GrammarError.eq_of_varies varies).symm
  refine ⟨?_, read.2.first, read.1.2⟩
  rw [Parse.diagnostics, Parse.diagnostics]
  exact (congrArg (List.map _) errors).symm

end Grammar

open Grammar

theorem readSource_advances (source : String) (firstId : OccurrenceId) :
    firstId ≤ (readSource source firstId).nextId :=
  (parse_numbered (tokensOf source) firstId).ordered

theorem readSource_varies {source : String} {ids : OccurrenceId → OccurrenceId → Prop}
    {allowed : Token → Prop} {firstId firstId' : OccurrenceId}
    (all : ∀ token ∈ tokensOf source, allowed token)
    (inStep : ∀ taken, ids (firstId + taken) (firstId' + taken)) :
    (readSource source firstId').problems = (readSource source firstId).problems ∧
      ids (readSource source firstId).nextId (readSource source firstId').nextId ∧
      Stmt.AllVary (.ofIds ids allowed) (readSource source firstId).statements
        (readSource source firstId').statements := by
  rcases parse_varies all inStep with ⟨same, next, vary⟩
  exact ⟨congrArg (lexicalProblems source ++ ·) same, next, vary⟩

end Lox
