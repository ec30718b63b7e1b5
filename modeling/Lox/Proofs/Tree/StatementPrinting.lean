import Lox.Proofs.Tree.ExpressionPrinting
/-! What statements print. -/

namespace Lox

/-- A row of names, as the parameters of a function are printed. -/
inductive Token.NamesPrintAs : List Token → List PrintedForm → Prop
  | nil : NamesPrintAs [] []
  | cons {name : Token} {rest : List Token} {text : String} {forms : List PrintedForm} :
      name.IsName text → NamesPrintAs rest forms →
      NamesPrintAs (name :: rest) (.name text :: forms)

mutual
inductive Stmt.PrintsAs : Stmt → PrintedForm → Prop
  | expression {expr : Expr} {form : PrintedForm} :
      expr.PrintsAs form → PrintsAs (.expression expr) (.list [.mark .semicolon, form])
  | print {expr : Expr} {form : PrintedForm} :
      expr.PrintsAs form → PrintsAs (.print expr) (.list [.keyword .printWord, form])
  | declares {name : Token} {text : String} :
      name.IsName text → PrintsAs (.var name none) (.list [.keyword .varWord, .name text])
  | initializes {name : Token} {initial : Expr} {text : String} {form : PrintedForm} :
      name.IsName text → initial.PrintsAs form →
      PrintsAs (.var name (some initial)) (.list [.keyword .varWord, .name text, form])
  | block {body : List Stmt} {forms : List PrintedForm} {head : String} :
      head = "block" → AllPrintAs body forms → PrintsAs (.block body) (.list (.name head :: forms))
  | conditional {condition : Expr} {thenBranch : Stmt} {form form' : PrintedForm} :
      condition.PrintsAs form → PrintsAs thenBranch form' →
      PrintsAs (.conditional condition thenBranch none) (.list [.keyword .ifWord, form, form'])
  | conditionalElse {condition : Expr} {thenBranch elseBranch : Stmt}
      {form form' form'' : PrintedForm} :
      condition.PrintsAs form → PrintsAs thenBranch form' → PrintsAs elseBranch form'' →
      PrintsAs (.conditional condition thenBranch (some elseBranch))
        (.list [.keyword .ifWord, form, form', form''])
  | loop {condition : Expr} {body : Stmt} {form form' : PrintedForm} :
      condition.PrintsAs form → PrintsAs body form' →
      PrintsAs (.loop condition body) (.list [.keyword .whileWord, form, form'])
  | function {routine : Routine} {form : PrintedForm} :
      RoutinePrintsAs (.keyword .funWord) routine form → PrintsAs (.function routine) form
  | returnsNothing {keyword : Token} :
      keyword.IsKeyword .returnWord →
      PrintsAs (.returns keyword none) (.list [.keyword .returnWord])
  | returns {keyword : Token} {value : Expr} {form : PrintedForm} :
      keyword.IsKeyword .returnWord → value.PrintsAs form →
      PrintsAs (.returns keyword (some value)) (.list [.keyword .returnWord, form])
  | classDecl {name : Token} {methods : List Routine} {text head : String}
      {forms : List PrintedForm} :
      name.IsName text → head = "method" → MethodsPrintAs (.name head) methods forms →
      PrintsAs (.classDecl name none methods)
        (.list (.keyword .classWord :: .name text :: forms))
  | inherits {name : Token} {superclass : Expr} {methods : List Routine} {text head : String}
      {form : PrintedForm} {forms : List PrintedForm} :
      name.IsName text → superclass.PrintsAs form → head = "method" →
      MethodsPrintAs (.name head) methods forms →
      PrintsAs (.classDecl name (some superclass) methods)
        (.list (.keyword .classWord :: .name text :: .mark .less :: form :: forms))

inductive Stmt.AllPrintAs : List Stmt → List PrintedForm → Prop
  | nil : AllPrintAs [] []
  | cons {stmt : Stmt} {rest : List Stmt} {form : PrintedForm} {forms : List PrintedForm} :
      PrintsAs stmt form → AllPrintAs rest forms → AllPrintAs (stmt :: rest) (form :: forms)

/-- A function or a method, which differ in their heads. -/
inductive Stmt.RoutinePrintsAs : PrintedForm → Routine → PrintedForm → Prop
  | mk {head : PrintedForm} {name : Token} {parameters : List Token} {body : List Stmt}
      {text : String} {names forms : List PrintedForm} :
      name.IsName text → Token.NamesPrintAs parameters names → AllPrintAs body forms →
      RoutinePrintsAs head (.mk name parameters body)
        (.list (head :: .name text :: .list names :: forms))

inductive Stmt.MethodsPrintAs : PrintedForm → List Routine → List PrintedForm → Prop
  | nil {head : PrintedForm} : MethodsPrintAs head [] []
  | cons {head : PrintedForm} {method : Routine} {rest : List Routine} {form : PrintedForm}
      {forms : List PrintedForm} :
      RoutinePrintsAs head method form → MethodsPrintAs head rest forms →
      MethodsPrintAs head (method :: rest) (form :: forms)
end

/-! ## Equal forms -/

theorem Token.NamesPrintAs.bare_eq {names others : List Token} {forms : List PrintedForm}
    (printed : NamesPrintAs names forms) (again : NamesPrintAs others forms) :
    names.map Token.bare = others.map Token.bare := by
  induction printed generalizing others with
  | nil =>
      cases again
      rfl
  | cons found _ induction =>
      cases again with
      | cons found' again =>
          rw [List.map_cons, List.map_cons, found.bare_eq found', induction again]

theorem Token.NamesPrintAs.wellFormed {names : List Token} {forms : List PrintedForm}
    (printed : NamesPrintAs names forms) : PrintedForm.AllWellFormed forms := by
  induction printed with
  | nil => trivial
  | cons found _ induction => exact ⟨found.written, induction⟩

theorem Token.NamesPrintAs.tailText_eq {names : List Token} {forms : List PrintedForm}
    (printed : NamesPrintAs names forms) (first : String) :
    (String.intercalate " " (first :: names.map Token.lexeme)).toList =
      first.toList ++ PrintedForm.tailText forms := by
  induction printed generalizing first with
  | nil => simp [PrintedForm.tailText]
  | cons found _ induction =>
      rw [List.map_cons, String.intercalate_cons_cons, String.toList_append, induction,
        found.lexeme]
      simp [PrintedForm.tailText, PrintedForm.text]

theorem Token.NamesPrintAs.text_eq {names : List Token} {forms : List PrintedForm}
    (printed : NamesPrintAs names forms) :
    (PrintedForm.list forms).text =
      '(' :: ((String.intercalate " " (names.map Token.lexeme)).toList ++ [')']) := by
  cases printed with
  | nil => rfl
  | cons found several =>
      rw [List.map_cons, several.tailText_eq, found.lexeme]
      simp [PrintedForm.text]

namespace Stmt

/-- A superclass is not mistaken for a method. -/
theorem not_methods_mark {head : PrintedForm} {methods : List Routine} {sign : Mark}
    {forms : List PrintedForm} : ¬ MethodsPrintAs head methods (.mark sign :: forms) := by
  intro printed
  cases printed with
  | cons method => cases method

mutual
theorem PrintsAs.bare_eq {stmt other : Stmt} {form : PrintedForm} :
    stmt.PrintsAs form → other.PrintsAs form → stmt.bare = other.bare
  | .expression printed, again => by
      cases again with
      | expression again => exact congrArg Stmt.expression (printed.bare_eq again)
      | function routine => cases routine
  | .print printed, again => by
      cases again with
      | print again => exact congrArg Stmt.print (printed.bare_eq again)
      | function routine => cases routine
  | .declares found, again => by
      cases again with
      | declares found' => simp only [bare, found.bare_eq found', Option.map_none]
      | function routine => cases routine
  | .initializes found printed, again => by
      cases again with
      | initializes found' again =>
          simp only [bare, found.bare_eq found', printed.bare_eq again, Option.map_some]
      | function routine => cases routine
  | .block head printed, again => by
      cases again with
      | block _ again => exact congrArg Stmt.block (printed.bare_eq again)
      | function routine => cases routine
  | .conditional condition thenBranch, again => by
      cases again with
      | conditional condition' thenBranch' =>
          simp only [bare, condition.bare_eq condition', thenBranch.bare_eq thenBranch']
      | function routine => cases routine
  | .conditionalElse condition thenBranch elseBranch, again => by
      cases again with
      | conditionalElse condition' thenBranch' elseBranch' =>
          simp only [bare, condition.bare_eq condition', thenBranch.bare_eq thenBranch',
            elseBranch.bare_eq elseBranch']
      | function routine => cases routine
  | .loop condition body, again => by
      cases again with
      | loop condition' body' => simp only [bare, condition.bare_eq condition', body.bare_eq body']
      | function routine => cases routine
  | .function routine, again => by
      cases again with
      | function routine' => exact congrArg Stmt.function (routine.bare_eq routine')
      | _ => cases routine
  | .returnsNothing found, again => by
      cases again with
      | returnsNothing found' => simp only [bare, found.bare_eq found', Option.map_none]
      | function routine => cases routine
  | .returns found printed, again => by
      cases again with
      | returns found' again =>
          simp only [bare, found.bare_eq found', printed.bare_eq again, Option.map_some]
      | function routine => cases routine
  | .classDecl found _ methods, again => by
      cases again with
      | classDecl found' _ methods' =>
          simp only [bare, found.bare_eq found', methods.bare_eq methods', Option.map_none]
      | inherits => exact absurd methods not_methods_mark
      | function routine => cases routine
  | .inherits found superclass _ methods, again => by
      cases again with
      | inherits found' superclass' _ methods' =>
          simp only [bare, found.bare_eq found', superclass.bare_eq superclass',
            methods.bare_eq methods', Option.map_some]
      | classDecl _ _ methods' => exact absurd methods' not_methods_mark
      | function routine => cases routine
termination_by structural printed => printed

theorem AllPrintAs.bare_eq {stmts others : List Stmt} {forms : List PrintedForm} :
    AllPrintAs stmts forms → AllPrintAs others forms → allBare stmts = allBare others
  | .nil, again => by
      cases again
      rfl
  | .cons printed several, again => by
      cases again with
      | cons again others => simp only [allBare, printed.bare_eq again, several.bare_eq others]
termination_by structural printed => printed

theorem RoutinePrintsAs.bare_eq {head head' form : PrintedForm} {routine other : Routine} :
    RoutinePrintsAs head routine form → RoutinePrintsAs head' other form →
      routine.bare = other.bare
  | .mk found names body, again => by
      cases again with
      | mk found' names' body' =>
          simp only [Routine.bare, found.bare_eq found', names.bare_eq names', body.bare_eq body']
termination_by structural printed => printed

theorem MethodsPrintAs.bare_eq {head head' : PrintedForm} {methods others : List Routine}
    {forms : List PrintedForm} :
    MethodsPrintAs head methods forms → MethodsPrintAs head' others forms →
      Routine.allBare methods = Routine.allBare others
  | .nil, again => by
      cases again
      rfl
  | .cons method several, again => by
      cases again with
      | cons method' others =>
          simp only [Routine.allBare, method.bare_eq method', several.bare_eq others]
termination_by structural printed => printed
end

/-! ## Well-formed forms -/

mutual
theorem PrintsAs.wellFormed {stmt : Stmt} {form : PrintedForm} :
    stmt.PrintsAs form → form.WellFormed
  | .expression printed => ⟨⟨nofun, nofun⟩, printed.wellFormed, trivial⟩
  | .print printed => ⟨trivial, printed.wellFormed, trivial⟩
  | .declares found => ⟨trivial, found.written, trivial⟩
  | .initializes found printed => ⟨trivial, found.written, printed.wellFormed, trivial⟩
  | .block head printed => ⟨head ▸ lexeme_block, printed.wellFormed⟩
  | .conditional condition thenBranch =>
      ⟨trivial, condition.wellFormed, thenBranch.wellFormed, trivial⟩
  | .conditionalElse condition thenBranch elseBranch =>
      ⟨trivial, condition.wellFormed, thenBranch.wellFormed, elseBranch.wellFormed, trivial⟩
  | .loop condition body => ⟨trivial, condition.wellFormed, body.wellFormed, trivial⟩
  | .function routine => routine.wellFormed trivial
  | .returnsNothing _ => ⟨trivial, trivial⟩
  | .returns _ printed => ⟨trivial, printed.wellFormed, trivial⟩
  | .classDecl found head methods =>
      ⟨trivial, found.written, methods.wellFormed (head ▸ lexeme_method)⟩
  | .inherits found superclass head methods =>
      ⟨trivial, found.written, ⟨nofun, nofun⟩, superclass.wellFormed,
        methods.wellFormed (head ▸ lexeme_method)⟩
termination_by structural printed => printed

theorem AllPrintAs.wellFormed {stmts : List Stmt} {forms : List PrintedForm} :
    AllPrintAs stmts forms → PrintedForm.AllWellFormed forms
  | .nil => trivial
  | .cons printed several => ⟨printed.wellFormed, several.wellFormed⟩
termination_by structural printed => printed

theorem RoutinePrintsAs.wellFormed {head form : PrintedForm} {routine : Routine} :
    RoutinePrintsAs head routine form → head.WellFormed → form.WellFormed
  | .mk found names body, headed => ⟨headed, found.written, names.wellFormed, body.wellFormed⟩
termination_by structural printed => printed

theorem MethodsPrintAs.wellFormed {head : PrintedForm} {methods : List Routine}
    {forms : List PrintedForm} :
    MethodsPrintAs head methods forms → head.WellFormed → PrintedForm.AllWellFormed forms
  | .nil, _ => trivial
  | .cons method several, headed => ⟨method.wellFormed headed, several.wellFormed headed⟩
termination_by structural printed => printed
end

/-! ## Texts -/

mutual
theorem PrintsAs.text_eq {stmt : Stmt} {form : PrintedForm} :
    stmt.PrintsAs form → stmt.text.toList = form.text
  | .expression printed => by
      simp [Stmt.text, PrintedForm.text, PrintedForm.tailText, printed.text_eq, Mark.text]
  | .print printed => by
      simp [Stmt.text, PrintedForm.text, PrintedForm.tailText, printed.text_eq, Keyword.text]
  | .declares found => by
      simp [Stmt.text, PrintedForm.text, PrintedForm.tailText, found.lexeme, Keyword.text]
  | .initializes found printed => by
      simp [Stmt.text, PrintedForm.text, PrintedForm.tailText, found.lexeme, printed.text_eq,
        Keyword.text]
  | .block head printed => by
      simp [Stmt.text, PrintedForm.text, printed.text_eq, head]
  | .conditional condition thenBranch => by
      simp [Stmt.text, PrintedForm.text, PrintedForm.tailText, condition.text_eq,
        thenBranch.text_eq, Keyword.text]
  | .conditionalElse condition thenBranch elseBranch => by
      simp [Stmt.text, PrintedForm.text, PrintedForm.tailText, condition.text_eq,
        thenBranch.text_eq, elseBranch.text_eq, Keyword.text]
  | .loop condition body => by
      simp [Stmt.text, PrintedForm.text, PrintedForm.tailText, condition.text_eq, body.text_eq,
        Keyword.text]
  | .function routine => routine.text_eq "fun" rfl
  | .returnsNothing _ => by simp [Stmt.text, PrintedForm.text, PrintedForm.tailText, Keyword.text]
  | .returns _ printed => by
      simp [Stmt.text, PrintedForm.text, PrintedForm.tailText, printed.text_eq, Keyword.text]
  | .classDecl found head methods => by
      simp [Stmt.text, PrintedForm.text, PrintedForm.tailText, found.lexeme,
        methods.text_eq (congrArg String.toList head), Keyword.text]
  | .inherits found superclass head methods => by
      simp [Stmt.text, PrintedForm.text, PrintedForm.tailText, found.lexeme, superclass.text_eq,
        methods.text_eq (congrArg String.toList head), Keyword.text, Mark.text]
termination_by structural printed => printed

theorem AllPrintAs.text_eq {stmts : List Stmt} {forms : List PrintedForm} :
    AllPrintAs stmts forms → (tailText stmts).toList = PrintedForm.tailText forms
  | .nil => rfl
  | .cons printed several => by
      simp [tailText, PrintedForm.tailText, printed.text_eq, several.text_eq]
termination_by structural printed => printed

theorem RoutinePrintsAs.text_eq {head form : PrintedForm} {routine : Routine} :
    RoutinePrintsAs head routine form → ∀ word : String, head.text = word.toList →
      (Routine.text word routine).toList = form.text
  | .mk found names body, word, headed => by
      simp [Routine.text, PrintedForm.text, PrintedForm.tailText, found.lexeme, names.text_eq,
        body.text_eq, headed]
termination_by structural printed => printed

theorem MethodsPrintAs.text_eq {head : PrintedForm} {methods : List Routine}
    {forms : List PrintedForm} :
    MethodsPrintAs head methods forms → head.text = "method".toList →
      (Routine.methodsText methods).toList = PrintedForm.tailText forms
  | .nil, _ => rfl
  | .cons method several, headed => by
      simp [Routine.methodsText, PrintedForm.tailText, method.text_eq "method" headed,
        several.text_eq headed]
termination_by structural printed => printed
end

end Stmt

end Lox
