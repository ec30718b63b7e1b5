import Lox.Proofs.Source.Spacing
import Lox.Proofs.Tree.Printed
/-! The printed form identifies the tree. Statements of two sources that print the same text are
the same statement, but for occurrence numbers and lines. -/

namespace Lox

/-! ## Statements inside statements -/

mutual
/-- A statement and the statements inside it. -/
def Stmt.parts : Stmt → List Stmt
  | .block body => .block body :: Stmt.allParts body
  | .conditional condition thenBranch none =>
      .conditional condition thenBranch none :: thenBranch.parts
  | .conditional condition thenBranch (some elseBranch) =>
      .conditional condition thenBranch (some elseBranch) ::
        (thenBranch.parts ++ elseBranch.parts)
  | .loop condition body => .loop condition body :: body.parts
  | .function routine => .function routine :: routine.parts
  | .classDecl name superclass methods =>
      .classDecl name superclass methods :: Routine.allParts methods
  | .expression expr => [.expression expr]
  | .print expr => [.print expr]
  | .var name initial => [.var name initial]
  | .returns keyword value => [.returns keyword value]

def Stmt.allParts : List Stmt → List Stmt
  | [] => []
  | stmt :: rest => stmt.parts ++ Stmt.allParts rest

def Routine.parts : Routine → List Stmt
  | .mk _ _ body => Stmt.allParts body

def Routine.allParts : List Routine → List Stmt
  | [] => []
  | method :: rest => method.parts ++ Routine.allParts rest
end

/-- Each of the statements prints as a form. -/
def Stmt.EachPrints (stmts : List Stmt) : Prop :=
  ∀ stmt ∈ stmts, ∃ form, stmt.PrintsAs form

namespace Stmt

variable {stmt : Stmt} {rest others : List Stmt}

theorem eachPrints_cons {form : PrintedForm} (printed : stmt.PrintsAs form)
    (others : EachPrints rest) : EachPrints (stmt :: rest) :=
  List.forall_mem_cons.mpr ⟨⟨_, printed⟩, others⟩

theorem eachPrints_append (printed : EachPrints rest) (printed' : EachPrints others) :
    EachPrints (rest ++ others) :=
  List.forall_mem_append.mpr ⟨printed, printed'⟩

theorem eachPrints_nil : EachPrints [] :=
  List.forall_mem_nil _

mutual
theorem PrintsAs.parts {stmt : Stmt} {form : PrintedForm} :
    stmt.PrintsAs form → EachPrints stmt.parts
  | .expression printed => eachPrints_cons (.expression printed) eachPrints_nil
  | .print printed => eachPrints_cons (.print printed) eachPrints_nil
  | .declares found => eachPrints_cons (.declares found) eachPrints_nil
  | .initializes found printed => eachPrints_cons (.initializes found printed) eachPrints_nil
  | .block head body => eachPrints_cons (.block head body) body.parts
  | .conditional condition thenBranch =>
      eachPrints_cons (.conditional condition thenBranch) thenBranch.parts
  | .conditionalElse condition thenBranch elseBranch =>
      eachPrints_cons (.conditionalElse condition thenBranch elseBranch)
        (eachPrints_append thenBranch.parts elseBranch.parts)
  | .loop condition body => eachPrints_cons (.loop condition body) body.parts
  | .function routine => eachPrints_cons (.function routine) routine.parts
  | .returnsNothing found => eachPrints_cons (.returnsNothing found) eachPrints_nil
  | .returns found printed => eachPrints_cons (.returns found printed) eachPrints_nil
  | .classDecl found head methods =>
      eachPrints_cons (.classDecl found head methods) methods.parts
  | .inherits found superclass head methods =>
      eachPrints_cons (.inherits found superclass head methods) methods.parts
termination_by structural printed => printed

theorem AllPrintAs.parts {stmts : List Stmt} {forms : List PrintedForm} :
    AllPrintAs stmts forms → EachPrints (allParts stmts)
  | .nil => eachPrints_nil
  | .cons printed several => eachPrints_append printed.parts several.parts
termination_by structural printed => printed

theorem RoutinePrintsAs.parts {head form : PrintedForm} {routine : Routine} :
    RoutinePrintsAs head routine form → EachPrints routine.parts
  | .mk _ _ body => body.parts
termination_by structural printed => printed

theorem MethodsPrintAs.parts {head : PrintedForm} {methods : List Routine}
    {forms : List PrintedForm} :
    MethodsPrintAs head methods forms → EachPrints (Routine.allParts methods)
  | .nil => eachPrints_nil
  | .cons method several => eachPrints_append method.parts several.parts
termination_by structural printed => printed
end

end Stmt

/-! ## Sources -/

/-- The token stands for what its text tells: it is no string, and no number that is too large
to be a finite one. -/
def Token.isFaithful (token : Token) : Bool :=
  match token.kind with
  | .string _ => false
  | .number value => !value.isInf
  | _ => true

theorem Token.Written.printable {token : Token} (written : token.Written)
    (faithful : token.isFaithful = true) : token.Printable := by
  refine ⟨written, ?_, ?_⟩
  · intro contents kind
    simp [isFaithful, kind] at faithful
  · intro value kind
    simp only [isFaithful, kind, Bool.not_eq_true'] at faithful
    rw [Written, kind] at written
    generalize token.lexeme.toList = text at written
    cases written with
    | whole _ => exact Number.plain_decimal faithful
    | point _ _ => exact Number.plain_decimal faithful

/-- The statements of a source without an error. -/
theorem parse_printed {source : String} {firstId : OccurrenceId}
    (accepted : (parse (tokensOf source) firstId).diagnostics = [])
    (faithful : ∀ token ∈ tokensOf source, token.isFaithful = true) :
    Stmt.EachPrints (Stmt.allParts (parse (tokensOf source) firstId).statements) := by
  rw [Parse.diagnostics, List.map_eq_nil_iff] at accepted
  have several := (Grammar.readProgram_tree accepted).mpr ⟨rfl, rfl⟩
  have printable : AllPrintable (sentence (tokensOf source)) := by
    intro token member
    have inside := (List.takeWhile_sublist _).subset member
    exact (written_of_mem_sentence member).printable (faithful token inside)
  rcases several.printed printable with ⟨_, printed⟩
  exact printed.parts

/-- Two sources are parsed without an error and have no strings and no numbers that are too
large. Then two of their statements that print the same text are the same statement, but for
occurrence numbers and lines. -/
theorem text_identifies_statement {source other : String} {firstId firstId' : OccurrenceId}
    {stmt stmt' : Stmt} (accepted : (parse (tokensOf source) firstId).diagnostics = [])
    (accepted' : (parse (tokensOf other) firstId').diagnostics = [])
    (faithful : ∀ token ∈ tokensOf source, token.isFaithful = true)
    (faithful' : ∀ token ∈ tokensOf other, token.isFaithful = true)
    (inside : stmt ∈ Stmt.allParts (parse (tokensOf source) firstId).statements)
    (inside' : stmt' ∈ Stmt.allParts (parse (tokensOf other) firstId').statements)
    (same : stmt.text = stmt'.text) : stmt.bare = stmt'.bare := by
  rcases parse_printed accepted faithful stmt inside with ⟨form, printed⟩
  rcases parse_printed accepted' faithful' stmt' inside' with ⟨form', printed'⟩
  have texts : form.text = form'.text := by
    rw [← printed.text_eq, ← printed'.text_eq, same]
  have forms : form = form' :=
    PrintedForm.text_injective printed.wellFormed printed'.wellFormed texts
  exact printed.bare_eq (forms ▸ printed')

/-- A block inside a conditional, and the same block by itself. -/
theorem text_identifies_statement_block :
    ∃ stmt ∈ Stmt.allParts (parse (tokensOf "if (a) { b = 2; }") 0).statements,
      ∃ stmt' ∈ Stmt.allParts (parse (tokensOf "\n{ b = 2.0; }") 5).statements,
        stmt.text = "(block (; (= b 2.0)))" ∧ stmt'.text = stmt.text ∧ stmt'.bare = stmt.bare := by
  have inside := List.getElem_mem (l := Stmt.allParts
    (parse (tokensOf "if (a) { b = 2; }") 0).statements) (n := 1) (by decide +kernel)
  have inside' := List.getElem_mem (l := Stmt.allParts
    (parse (tokensOf "\n{ b = 2.0; }") 5).statements) (n := 0) (by decide +kernel)
  refine ⟨_, inside, _, inside', by decide +kernel, by decide +kernel, ?_⟩
  exact text_identifies_statement (by decide +kernel) (by decide +kernel) (by decide +kernel)
    (by decide +kernel) inside' inside (by decide +kernel)

end Lox
