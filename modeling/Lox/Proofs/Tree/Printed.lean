import Lox.Proofs.Grammar.Sentence
import Lox.Proofs.Tree.StatementPrinting
/-! Trees of the grammar print as forms, provided that no token of theirs is a string, which
is printed without its quotes, or a number that is not finite, which is printed like a name. -/

namespace Lox

/-- The token is a lexeme, but no string, and its number is finite if it has one. -/
structure Token.Printable (token : Token) : Prop where
  written : token.Written
  unquoted : ∀ contents, token.kind ≠ .string contents
  plain : ∀ value, token.kind = .number value → Number.Plain value

def AllPrintable (tokens : List Token) : Prop :=
  ∀ token ∈ tokens, token.Printable

namespace AllPrintable

variable {token : Token} {left right : List Token}

@[simp] theorem cons_iff :
    AllPrintable (token :: right) ↔ token.Printable ∧ AllPrintable right :=
  List.forall_mem_cons

@[simp] theorem append_iff :
    AllPrintable (left ++ right) ↔ AllPrintable left ∧ AllPrintable right :=
  List.forall_mem_append

end AllPrintable

namespace Grammar

/-! ## Trees of the grammar -/

theorem literal_printed {token : Token} {value : Literal} (printable : token.Printable)
    (found : literal? token = some value) : ∃ form, (Expr.literal value).PrintsAs form := by
  unfold literal? at found
  split at found
  · cases found
    exact ⟨_, .falseWord⟩
  · cases found
    exact ⟨_, .trueWord⟩
  · cases found
    exact ⟨_, .nilWord⟩
  · rename_i value' kind
    cases found
    exact ⟨_, .number (printable.plain value' kind)⟩
  · rename_i contents kind
    exact absurd kind (printable.unquoted contents)
  · cases found

theorem unary_printed {sign : Token} {right : Expr} {form : PrintedForm}
    (printable : sign.Printable) (signs : sign.kind = .mark .bang ∨ sign.kind = .mark .minus)
    (printed : right.PrintsAs form) : ∃ form, (Expr.unary sign right).PrintsAs form := by
  rcases signs with kind | kind
  · exact ⟨_, .unary (printable.written.isMark kind) rfl printed⟩
  · exact ⟨_, .unary (printable.written.isMark kind) rfl printed⟩

/-- The kinds of the operators of a row, with its node. -/
theorem kind_of_mem_operators {level : Precedence} {operator : Token}
    (listed : operator.kind ∈ (tier level).operators) :
    (∃ word, operator.kind = .keyword word ∧ word.isConnective = true ∧
        (tier level).node = .logical) ∨
      ∃ sign, operator.kind = .mark sign ∧ sign.isOperator = true ∧
        (tier level).node = .binary := by
  cases level with
  | disjunction | conjunction => exact .inl ⟨_, List.mem_singleton.mp listed, rfl, rfl⟩
  | equality | sum | product =>
      simp only [tier, List.mem_cons, List.not_mem_nil, or_false] at listed
      rcases listed with kind | kind
      · exact .inr ⟨_, kind, rfl, rfl⟩
      · exact .inr ⟨_, kind, rfl, rfl⟩
  | comparison =>
      simp only [tier, List.mem_cons, List.not_mem_nil, or_false] at listed
      rcases listed with kind | kind | kind | kind
      · exact .inr ⟨_, kind, rfl, rfl⟩
      · exact .inr ⟨_, kind, rfl, rfl⟩
      · exact .inr ⟨_, kind, rfl, rfl⟩
      · exact .inr ⟨_, kind, rfl, rfl⟩

theorem node_printed {level : Precedence} {operator : Token} {left right : Expr}
    {form form' : PrintedForm} (printable : operator.Printable)
    (listed : operator.kind ∈ (tier level).operators) (printed : left.PrintsAs form)
    (printed' : right.PrintsAs form') :
    ∃ form, ((tier level).node left operator right).PrintsAs form := by
  rcases kind_of_mem_operators listed with
    ⟨word, kind, connects, built⟩ | ⟨sign, kind, operating, built⟩
  · rw [built]
    exact ⟨_, .logical (printable.written.isKeyword kind) connects printed printed'⟩
  · rw [built]
    exact ⟨_, .binary (printable.written.isMark kind) operating printed printed'⟩

theorem Derives.printed {form tokens first tree next}
    (derived : Derives form tokens first tree next) :
    AllPrintable tokens → ∃ form, tree.PrintsAs form := by
  induction derived using Derives.rec (motive_2 := fun tokens _ arguments _ _ =>
    AllPrintable tokens → ∃ forms, Expr.AllPrintAs arguments forms) with
  | operation _ induction | operand _ induction | unsigned _ induction
  | unapplied _ induction => exact induction
  | unary signs _ induction =>
      intro printable
      rw [AllPrintable.cons_iff] at printable
      rcases induction printable.2 with ⟨_, printed⟩
      exact unary_printed printable.1 signs printed
  | assign kind _ _ induction =>
      intro printable
      simp only [AllPrintable.cons_iff] at printable
      rcases induction printable.2.2 with ⟨_, printed⟩
      exact ⟨_, .assign (printable.1.written.isName kind) printed⟩
  | set _ _ named _ _ objectInduction induction =>
      intro printable
      simp only [AllPrintable.append_iff, AllPrintable.cons_iff] at printable
      rcases objectInduction printable.1 with ⟨_, object⟩
      rcases induction printable.2.2.2.2 with ⟨_, printed⟩
      exact ⟨_, .set object (printable.2.2.1.written.isName named) printed⟩
  | combine _ listed _ leftInduction rightInduction =>
      intro printable
      simp only [AllPrintable.append_iff, AllPrintable.cons_iff] at printable
      rcases leftInduction printable.1 with ⟨_, left⟩
      rcases rightInduction printable.2.2 with ⟨_, right⟩
      exact node_printed printable.2.1 listed left right
  | callEmpty _ _ ended induction =>
      intro printable
      simp only [AllPrintable.append_iff, AllPrintable.cons_iff] at printable
      rcases induction printable.1 with ⟨_, callee⟩
      exact ⟨_, .call rfl (printable.2.2.1.written.isMark ended) callee .nil⟩
  | call _ _ _ _ ended calleeInduction induction =>
      intro printable
      simp only [AllPrintable.append_iff, AllPrintable.cons_iff] at printable
      rcases calleeInduction printable.1 with ⟨_, callee⟩
      rcases induction printable.2.2.1 with ⟨_, several⟩
      exact ⟨_, .call rfl (printable.2.2.2.1.written.isMark ended) callee several⟩
  | get _ _ named induction =>
      intro printable
      simp only [AllPrintable.append_iff, AllPrintable.cons_iff] at printable
      rcases induction printable.1 with ⟨_, object⟩
      exact ⟨_, .get object (printable.2.2.1.written.isName named)⟩
  | literal written =>
      intro printable
      exact literal_printed (AllPrintable.cons_iff.mp printable).1 written
  | this kind =>
      intro printable
      exact ⟨_, .this ((AllPrintable.cons_iff.mp printable).1.written.isKeyword kind)⟩
  | read kind =>
      intro printable
      exact ⟨_, .read ((AllPrintable.cons_iff.mp printable).1.written.isName kind)⟩
  | group _ _ _ induction =>
      intro printable
      simp only [AllPrintable.append_iff, AllPrintable.cons_iff] at printable
      rcases induction printable.2.1 with ⟨_, inner⟩
      exact ⟨_, .group rfl inner⟩
  | super kind _ named =>
      intro printable
      simp only [AllPrintable.cons_iff] at printable
      exact ⟨_, .super (printable.1.written.isKeyword kind)
        (printable.2.2.1.written.isName named)⟩
  | one _ induction =>
      rename_i printable
      rcases induction printable with ⟨_, printed⟩
      exact ⟨_, .cons printed .nil⟩
  | more _ _ _ firstInduction induction =>
      rename_i printable
      simp only [AllPrintable.append_iff, AllPrintable.cons_iff] at printable
      rcases firstInduction printable.1 with ⟨_, printed⟩
      rcases induction printable.2.2 with ⟨_, several⟩
      exact ⟨_, .cons printed several⟩

/-! ## Parts of statements -/

/-- What can be left out prints as a form wherever it is given. -/
def Prints? : Option Expr → Prop
  | none => True
  | some expr => ∃ form, expr.PrintsAs form

def InitializerPrints : Option Stmt → Prop
  | none => True
  | some initializer => ∃ form, initializer.PrintsAs form

theorem OptionalExpr.printed {tokens first tree? next}
    (found : OptionalExpr tokens first tree? next) (printable : AllPrintable tokens) :
    Prints? tree? := by
  cases found with
  | none => trivial
  | some derived => exact derived.printed printable

theorem ExpressionStatement.printed {tokens first stmt next}
    (found : ExpressionStatement tokens first stmt next) (printable : AllPrintable tokens) :
    ∃ form, stmt.PrintsAs form := by
  cases found with
  | mk derived _ =>
      rcases derived.printed (AllPrintable.append_iff.mp printable).1 with ⟨_, printed⟩
      exact ⟨_, .expression printed⟩

theorem VariableStatement.printed {tokens first stmt next}
    (found : VariableStatement tokens first stmt next) (printable : AllPrintable tokens) :
    ∃ form, stmt.PrintsAs form := by
  cases found with
  | mk _ named initialized _ =>
      simp only [AllPrintable.append_iff, AllPrintable.cons_iff] at printable
      have name := printable.2.1.written.isName named
      cases initialized with
      | none => exact ⟨_, .declares name⟩
      | some _ derived =>
          rcases derived.printed (AllPrintable.cons_iff.mp printable.2.2.1).2 with ⟨_, printed⟩
          exact ⟨_, .initializes name printed⟩

theorem Superclass.printed {tokens first superclass next}
    (found : Superclass tokens first superclass next) (printable : AllPrintable tokens) :
    Prints? superclass := by
  cases found with
  | none => trivial
  | some _ named =>
      simp only [AllPrintable.cons_iff] at printable
      exact ⟨_, .read (printable.2.1.written.isName named)⟩

theorem LoopInitializer.printed {tokens first initializer next}
    (found : LoopInitializer tokens first initializer next) (printable : AllPrintable tokens) :
    InitializerPrints initializer := by
  cases found with
  | none _ => trivial
  | var declared => exact declared.printed printable
  | expression stated => exact stated.printed printable

theorem ParameterNames.printed {tokens names} (several : ParameterNames tokens names) :
    AllPrintable tokens → ∃ forms, Token.NamesPrintAs names forms := by
  induction several with
  | one named =>
      intro printable
      exact ⟨_, .cons ((AllPrintable.cons_iff.mp printable).1.written.isName named) .nil⟩
  | more named _ _ induction =>
      intro printable
      simp only [AllPrintable.cons_iff] at printable
      rcases induction printable.2.2 with ⟨_, several⟩
      exact ⟨_, .cons (printable.1.written.isName named) several⟩

theorem Parameters.printed {tokens names} (found : Parameters tokens names)
    (printable : AllPrintable tokens) : ∃ forms, Token.NamesPrintAs names forms := by
  cases found with
  | none => exact ⟨_, .nil⟩
  | some several _ => exact several.printed printable

/-! ## Loops with a head of three parts -/

theorem condition_printed {condition : Option Expr} (tests : Prints? condition) :
    ∃ form, (condition.getD (.literal (.bool true))).PrintsAs form := by
  cases condition with
  | none => exact ⟨_, .trueWord⟩
  | some condition => exact tests

theorem loopTree_printed {initializer : Option Stmt} {condition increment : Option Expr}
    {body : Stmt} {form : PrintedForm} (initialized : InitializerPrints initializer)
    (tests : Prints? condition) (steps : Prints? increment) (printed : body.PrintsAs form) :
    ∃ form, (loopTree initializer condition increment body).PrintsAs form := by
  rcases condition_printed tests with ⟨_, tested⟩
  cases initializer with
  | none =>
      cases increment with
      | none => exact ⟨_, .loop tested printed⟩
      | some step =>
          rcases steps with ⟨_, step⟩
          exact ⟨_, .loop tested (.block rfl (.cons printed (.cons (.expression step) .nil)))⟩
  | some first =>
      rcases initialized with ⟨_, initial⟩
      cases increment with
      | none => exact ⟨_, .block rfl (.cons initial (.cons (.loop tested printed) .nil))⟩
      | some step =>
          rcases steps with ⟨_, step⟩
          have repeated := Stmt.PrintsAs.block rfl (.cons printed (.cons (.expression step) .nil))
          exact ⟨_, .block rfl (.cons initial (.cons (.loop tested repeated) .nil))⟩

/-! ## Statements and declarations -/

theorem classDecl_printed {name : Token} {superclass : Option Expr} {methods : List Routine}
    {text : String} {forms : List PrintedForm} (named : name.IsName text)
    (inherits : Prints? superclass) (printed : Stmt.MethodsPrintAs (.name "method") methods forms) :
    ∃ form, (Stmt.classDecl name superclass methods).PrintsAs form := by
  cases superclass with
  | none => exact ⟨_, .classDecl named rfl printed⟩
  | some superclass =>
      rcases inherits with ⟨_, superclass⟩
      exact ⟨_, .inherits named superclass rfl printed⟩

theorem returns_printed {keyword : Token} {value : Option Expr}
    (found : keyword.IsKeyword .returnWord) (printed : Prints? value) :
    ∃ form, (Stmt.returns keyword value).PrintsAs form := by
  cases value with
  | none => exact ⟨_, .returnsNothing found⟩
  | some value =>
      rcases printed with ⟨_, printed⟩
      exact ⟨_, .returns found printed⟩

variable {nearest : Bool}

mutual
theorem Declaration.printed {tokens first stmt next} :
    Declaration nearest tokens first stmt next → AllPrintable tokens → ∃ form, stmt.PrintsAs form
  | .classDecl _ named inherits _ methods _, printable => by
      simp only [AllPrintable.append_iff, AllPrintable.cons_iff] at printable
      rcases methods.printed printable.2.2.2.2.1 (.name "method") with ⟨_, methods⟩
      exact classDecl_printed (printable.2.1.written.isName named)
        (inherits.printed printable.2.2.1) methods
  | .function _ routine, printable => by
      rcases routine.printed (AllPrintable.cons_iff.mp printable).2 (.keyword .funWord)
        with ⟨_, routine⟩
      exact ⟨_, .function routine⟩
  | .var declared, printable => declared.printed printable
  | .statement derived, printable => derived.printed printable

theorem Declarations.printed {tokens first stmts next} :
    Declarations nearest tokens first stmts next → AllPrintable tokens →
      ∃ forms, Stmt.AllPrintAs stmts forms
  | .nil, _ => ⟨_, .nil⟩
  | .cons declared several, printable => by
      rw [AllPrintable.append_iff] at printable
      rcases declared.printed printable.1 with ⟨_, printed⟩
      rcases several.printed printable.2 with ⟨_, several⟩
      exact ⟨_, .cons printed several⟩

theorem Methods.printed {tokens first methods next} :
    Methods nearest tokens first methods next → AllPrintable tokens →
      ∀ head, ∃ forms, Stmt.MethodsPrintAs head methods forms
  | .nil, _, _ => ⟨_, .nil⟩
  | .cons method several, printable, head => by
      rw [AllPrintable.append_iff] at printable
      rcases method.printed printable.1 head with ⟨_, method⟩
      rcases several.printed printable.2 head with ⟨_, several⟩
      exact ⟨_, .cons method several⟩

theorem Function.printed {tokens first routine next} :
    Function nearest tokens first routine next → AllPrintable tokens →
      ∀ head, ∃ form, Stmt.RoutinePrintsAs head routine form
  | .mk named _ listed _ _ body _, printable, _ => by
      simp only [AllPrintable.append_iff, AllPrintable.cons_iff] at printable
      rcases listed.printed printable.2.2.1 with ⟨_, names⟩
      rcases body.printed printable.2.2.2.2.2.1 with ⟨_, body⟩
      exact ⟨_, .mk (printable.1.written.isName named) names body⟩

theorem Statement.printed {takesElse tokens first stmt next} :
    Statement nearest takesElse tokens first stmt next → AllPrintable tokens →
      ∃ form, stmt.PrintsAs form
  | .expression stated, printable => stated.printed printable
  | .print _ derived _, printable => by
      simp only [AllPrintable.append_iff, AllPrintable.cons_iff] at printable
      rcases derived.printed printable.2.1 with ⟨_, printed⟩
      exact ⟨_, .print printed⟩
  | .returns kind found _, printable => by
      simp only [AllPrintable.append_iff, AllPrintable.cons_iff] at printable
      exact returns_printed (printable.1.written.isKeyword kind) (found.printed printable.2.1)
  | .block _ body _, printable => by
      simp only [AllPrintable.append_iff, AllPrintable.cons_iff] at printable
      rcases body.printed printable.2.1 with ⟨_, body⟩
      exact ⟨_, .block rfl body⟩
  | .loop _ _ derived _ body, printable => by
      simp only [AllPrintable.append_iff, AllPrintable.cons_iff] at printable
      rcases derived.printed printable.2.2.1 with ⟨_, condition⟩
      rcases body.printed printable.2.2.2.2 with ⟨_, body⟩
      exact ⟨_, .loop condition body⟩
  | .forLoop _ _ initialized tests _ steps _ body, printable => by
      simp only [AllPrintable.append_iff, AllPrintable.cons_iff] at printable
      rcases body.printed printable.2.2.2.2.2.2.2 with ⟨_, body⟩
      exact loopTree_printed (initialized.printed printable.2.2.1) (tests.printed printable.2.2.2.1)
        (steps.printed printable.2.2.2.2.2.1) body
  | .conditional _ _ derived _ thenBranch, printable => by
      simp only [AllPrintable.append_iff, AllPrintable.cons_iff] at printable
      rcases derived.printed printable.2.2.1 with ⟨_, condition⟩
      rcases thenBranch.printed printable.2.2.2.2 with ⟨_, thenBranch⟩
      exact ⟨_, .conditional condition thenBranch⟩
  | .conditionalElse _ _ derived _ thenBranch _ _ elseBranch, printable => by
      simp only [AllPrintable.append_iff, AllPrintable.cons_iff] at printable
      rcases derived.printed printable.2.2.1 with ⟨_, condition⟩
      rcases thenBranch.printed printable.2.2.2.2.1 with ⟨_, thenBranch⟩
      rcases elseBranch.printed printable.2.2.2.2.2.2 with ⟨_, elseBranch⟩
      exact ⟨_, .conditionalElse condition thenBranch elseBranch⟩
end

end Grammar

end Lox
