import Lox.Proofs.Source.Spelling
import Lox.Proofs.Tree.Bare
import Lox.Proofs.Tree.Form
import Lox.Tree.Text
/-! What trees print. A tree of the grammar prints as a form, and the form tells all of the tree
but its occurrence numbers and the lines of its tokens. -/

namespace Lox

/-! ## Tokens -/

namespace Token

/-- The token is this mark, as it is written. -/
structure IsMark (token : Token) (sign : Mark) : Prop where
  kind : token.kind = .mark sign
  lexeme : token.lexeme = sign.text

structure IsKeyword (token : Token) (word : Keyword) : Prop where
  kind : token.kind = .keyword word
  lexeme : token.lexeme = word.text

structure IsName (token : Token) (text : String) : Prop where
  kind : token.kind = .identifier
  lexeme : token.lexeme = text
  written : Lexeme text.toList .identifier

variable {token other : Token}

theorem IsMark.bare_eq {sign : Mark} (found : token.IsMark sign) (again : other.IsMark sign) :
    token.bare = other.bare := by
  rw [bare_eq_iff, found.kind, found.lexeme, again.kind, again.lexeme]
  exact ⟨rfl, rfl⟩

theorem IsKeyword.bare_eq {word : Keyword} (found : token.IsKeyword word)
    (again : other.IsKeyword word) : token.bare = other.bare := by
  rw [bare_eq_iff, found.kind, found.lexeme, again.kind, again.lexeme]
  exact ⟨rfl, rfl⟩

theorem IsName.bare_eq {text : String} (found : token.IsName text) (again : other.IsName text) :
    token.bare = other.bare := by
  rw [bare_eq_iff, found.kind, found.lexeme, again.kind, again.lexeme]
  exact ⟨rfl, rfl⟩

theorem Written.isMark (written : token.Written) {sign : Mark} (kind : token.kind = .mark sign) :
    token.IsMark sign := by
  refine ⟨kind, ?_⟩
  rw [Written, kind] at written
  generalize same : token.lexeme.toList = text at written
  cases written
  exact String.toList_inj.mp same

theorem Written.isKeyword (written : token.Written) {word : Keyword}
    (kind : token.kind = .keyword word) : token.IsKeyword word :=
  ⟨kind, written.spelled.word word kind⟩

theorem Written.isName (written : token.Written) (kind : token.kind = .identifier) :
    token.IsName token.lexeme := by
  refine ⟨kind, rfl, ?_⟩
  rwa [Written, kind] at written

end Token

/-- The marks that stand between operands or in front of one. -/
def Mark.isOperator : Mark → Bool
  | minus | plus | slash | star | bang | bangEqual | equalEqual | greater | greaterEqual | less
  | lessEqual => true
  | _ => false

/-- The words that stand between operands. -/
def Keyword.isConnective : Keyword → Bool
  | andWord | orWord => true
  | _ => false

theorem operator_wellFormed {sign : Mark} (operates : sign.isOperator = true) :
    (PrintedForm.mark sign).WellFormed := by
  constructor
  · rintro rfl
    cases operates
  · rintro rfl
    cases operates

/-- These words are names. -/
theorem lexeme_of_ofText? {text : String} {first : Char} {rest : List Char}
    (spelled : text.toList = first :: rest) (letter : isLetter first = true)
    (others : rest.all isWordCharacter = true) (free : Keyword.ofText? text = none) :
    Lexeme text.toList .identifier := by
  rw [spelled]
  refine .name letter (List.all_eq_true.mp others) fun word same => ?_
  rw [← spelled, String.toList_inj, ← Keyword.ofText?_eq_some_iff, free] at same
  cases same

theorem lexeme_group : Lexeme "group".toList .identifier :=
  lexeme_of_ofText? rfl (by decide) (by decide) (by decide)

theorem lexeme_call : Lexeme "call".toList .identifier :=
  lexeme_of_ofText? rfl (by decide) (by decide) (by decide)

theorem lexeme_block : Lexeme "block".toList .identifier :=
  lexeme_of_ofText? rfl (by decide) (by decide) (by decide)

theorem lexeme_method : Lexeme "method".toList .identifier :=
  lexeme_of_ofText? rfl (by decide) (by decide) (by decide)

/-! ## Expressions -/

mutual
inductive Expr.PrintsAs : Expr → PrintedForm → Prop
  | nilWord : PrintsAs (.literal .nil) (.keyword .nilWord)
  | trueWord : PrintsAs (.literal (.bool true)) (.keyword .trueWord)
  | falseWord : PrintsAs (.literal (.bool false)) (.keyword .falseWord)
  | number {value : Float} :
      Number.Plain value → PrintsAs (.literal (.number value)) (.number value)
  | group {inner : Expr} {form : PrintedForm} {head : String} :
      head = "group" → PrintsAs inner form → PrintsAs (.group inner) (.list [.name head, form])
  | unary {operator : Token} {right : Expr} {sign : Mark} {form : PrintedForm} :
      operator.IsMark sign → sign.isOperator = true → PrintsAs right form →
      PrintsAs (.unary operator right) (.list [.mark sign, form])
  | binary {operator : Token} {left right : Expr} {sign : Mark} {form form' : PrintedForm} :
      operator.IsMark sign → sign.isOperator = true → PrintsAs left form →
      PrintsAs right form' →
      PrintsAs (.binary left operator right) (.list [.mark sign, form, form'])
  | logical {operator : Token} {left right : Expr} {word : Keyword} {form form' : PrintedForm} :
      operator.IsKeyword word → word.isConnective = true → PrintsAs left form →
      PrintsAs right form' →
      PrintsAs (.logical left operator right) (.list [.keyword word, form, form'])
  | read {id : OccurrenceId} {name : Token} {text : String} :
      name.IsName text → PrintsAs (.read id name) (.name text)
  | assign {id : OccurrenceId} {name : Token} {value : Expr} {text : String}
      {form : PrintedForm} :
      name.IsName text → PrintsAs value form →
      PrintsAs (.assign id name value) (.list [.mark .equal, .name text, form])
  | call {callee : Expr} {paren : Token} {arguments : List Expr} {form : PrintedForm}
      {forms : List PrintedForm} {head : String} :
      head = "call" → paren.IsMark .rightParen → PrintsAs callee form →
      AllPrintAs arguments forms →
      PrintsAs (.call callee paren arguments) (.list (.name head :: form :: forms))
  | get {object : Expr} {name : Token} {form : PrintedForm} {text : String} :
      PrintsAs object form → name.IsName text →
      PrintsAs (.get object name) (.list [.mark .dot, form, .name text])
  | set {object value : Expr} {name : Token} {form form' : PrintedForm} {text : String} :
      PrintsAs object form → name.IsName text → PrintsAs value form' →
      PrintsAs (.set object name value) (.list [.mark .equal, .dotted form text, form'])
  | this {id : OccurrenceId} {keyword : Token} :
      keyword.IsKeyword .thisWord → PrintsAs (.this id keyword) (.keyword .thisWord)
  | super {id : OccurrenceId} {keyword method : Token} {text : String} :
      keyword.IsKeyword .superWord → method.IsName text →
      PrintsAs (.super id keyword method) (.list [.keyword .superWord, .name text])

inductive Expr.AllPrintAs : List Expr → List PrintedForm → Prop
  | nil : AllPrintAs [] []
  | cons {expr : Expr} {rest : List Expr} {form : PrintedForm} {forms : List PrintedForm} :
      PrintsAs expr form → AllPrintAs rest forms → AllPrintAs (expr :: rest) (form :: forms)
end

namespace Expr

mutual
theorem PrintsAs.bare_eq {expr other : Expr} {form : PrintedForm} :
    expr.PrintsAs form → other.PrintsAs form → expr.bare = other.bare
  | .nilWord, again | .trueWord, again | .falseWord, again | .number _, again => by
      cases again
      rfl
  | .group head printed, again => by
      cases again with
      | group _ again => exact congrArg Expr.group (printed.bare_eq again)
      | call head' => exact absurd (head.symm.trans head') (by decide)
  | .unary found _ printed, again => by
      cases again with
      | unary found' _ again => simp only [bare, found.bare_eq found', printed.bare_eq again]
  | .binary found operates left right, again => by
      cases again with
      | binary found' _ left' right' =>
          simp only [bare, found.bare_eq found', left.bare_eq left', right.bare_eq right']
      | assign | get | set => cases operates
  | .logical found _ left right, again => by
      cases again with
      | logical found' _ left' right' =>
          simp only [bare, found.bare_eq found', left.bare_eq left', right.bare_eq right']
  | .read found, again => by
      cases again with
      | read found' => simp only [bare, found.bare_eq found']
  | .assign found printed, again => by
      cases again with
      | assign found' again => simp only [bare, found.bare_eq found', printed.bare_eq again]
      | binary _ operates => cases operates
  | .call head paren callee printed, again => by
      cases again with
      | call _ paren' callee' again =>
          simp only [bare, paren.bare_eq paren', callee.bare_eq callee', printed.bare_eq again]
      | group head' => exact absurd (head.symm.trans head') (by decide)
  | .get object found, again => by
      cases again with
      | get object' found' => simp only [bare, object.bare_eq object', found.bare_eq found']
      | binary _ operates => cases operates
  | .set object found printed, again => by
      cases again with
      | set object' found' again =>
          simp only [bare, object.bare_eq object', found.bare_eq found', printed.bare_eq again]
      | binary _ operates => cases operates
  | .this found, again => by
      cases again with
      | this found' => simp only [bare, found.bare_eq found']
  | .super found named, again => by
      cases again with
      | super found' named' => simp only [bare, found.bare_eq found', named.bare_eq named']

theorem AllPrintAs.bare_eq {exprs others : List Expr} {forms : List PrintedForm} :
    AllPrintAs exprs forms → AllPrintAs others forms → allBare exprs = allBare others
  | .nil, again => by
      cases again
      rfl
  | .cons printed several, again => by
      cases again with
      | cons again others => simp only [allBare, printed.bare_eq again, several.bare_eq others]
end

theorem PrintsAs.isCompact {expr : Expr} {form : PrintedForm} (printed : expr.PrintsAs form) :
    form.isCompact = true := by
  cases printed <;> rfl

mutual
theorem PrintsAs.wellFormed {expr : Expr} {form : PrintedForm} :
    expr.PrintsAs form → form.WellFormed
  | .nilWord | .trueWord | .falseWord | .this _ => trivial
  | .number plain => plain
  | .read found => found.written
  | .group head printed => ⟨head ▸ lexeme_group, printed.wellFormed, trivial⟩
  | .unary _ operates printed => ⟨operator_wellFormed operates, printed.wellFormed, trivial⟩
  | .binary _ operates left right =>
      ⟨operator_wellFormed operates, left.wellFormed, right.wellFormed, trivial⟩
  | .logical _ _ left right => ⟨trivial, left.wellFormed, right.wellFormed, trivial⟩
  | .assign found printed => ⟨⟨nofun, nofun⟩, found.written, printed.wellFormed, trivial⟩
  | .call head _ callee printed => ⟨head ▸ lexeme_call, callee.wellFormed, printed.wellFormed⟩
  | .get object found => ⟨⟨nofun, nofun⟩, object.wellFormed, found.written, trivial⟩
  | .set object found printed =>
      ⟨⟨nofun, nofun⟩, ⟨object.isCompact, object.wellFormed, found.written⟩,
        printed.wellFormed, trivial⟩
  | .super _ named => ⟨trivial, named.written, trivial⟩

theorem AllPrintAs.wellFormed {exprs : List Expr} {forms : List PrintedForm} :
    AllPrintAs exprs forms → PrintedForm.AllWellFormed forms
  | .nil => trivial
  | .cons printed several => ⟨printed.wellFormed, several.wellFormed⟩
end

mutual
theorem PrintsAs.text_eq {expr : Expr} {form : PrintedForm} :
    expr.PrintsAs form → expr.text.toList = form.text
  | .nilWord | .trueWord | .falseWord | .number _ | .this _ => rfl
  | .read found => congrArg String.toList found.lexeme
  | .group head printed => by
      simp [Expr.text, PrintedForm.text, PrintedForm.tailText, printed.text_eq, head]
  | .unary found _ printed => by
      simp [Expr.text, PrintedForm.text, PrintedForm.tailText, printed.text_eq, found.lexeme]
  | .binary found _ left right => by
      simp [Expr.text, PrintedForm.text, PrintedForm.tailText, left.text_eq, right.text_eq,
        found.lexeme]
  | .logical found _ left right => by
      simp [Expr.text, PrintedForm.text, PrintedForm.tailText, left.text_eq, right.text_eq,
        found.lexeme]
  | .assign found printed => by
      simp [Expr.text, PrintedForm.text, PrintedForm.tailText, printed.text_eq, found.lexeme,
        Mark.text]
  | .call head _ callee printed => by
      simp [Expr.text, PrintedForm.text, PrintedForm.tailText, callee.text_eq, printed.text_eq,
        head]
  | .get object found => by
      simp [Expr.text, PrintedForm.text, PrintedForm.tailText, object.text_eq, found.lexeme,
        Mark.text]
  | .set object found printed => by
      simp [Expr.text, PrintedForm.text, PrintedForm.tailText, object.text_eq, printed.text_eq,
        found.lexeme, Mark.text]
  | .super _ named => by
      simp [Expr.text, PrintedForm.text, PrintedForm.tailText, named.lexeme, Keyword.text]

theorem AllPrintAs.text_eq {exprs : List Expr} {forms : List PrintedForm} :
    AllPrintAs exprs forms → (tailText exprs).toList = PrintedForm.tailText forms
  | .nil => rfl
  | .cons printed several => by
      simp [tailText, PrintedForm.tailText, printed.text_eq, several.text_eq]
end

end Expr

end Lox
