import Lox.Proofs.Number.Literal
/-! Printed forms can be read in one way only. A form is what the printed form of a tree shows
of it: marks, words, numbers, and lists of forms in parentheses, with spaces between them. -/

namespace Lox

inductive PrintedForm where
  | mark (sign : Mark)
  | keyword (word : Keyword)
  | name (text : String)
  | number (value : Float)
  | dotted (object : PrintedForm) (property : String)
  | list (items : List PrintedForm)

namespace PrintedForm

mutual
def text : PrintedForm → List Char
  | mark sign => sign.text.toList
  | keyword word => word.text.toList
  | name text => text.toList
  | number value => (Number.literalText value).toList
  | dotted object property => object.text ++ '.' :: property.toList
  | list [] => ['(', ')']
  | list (first :: rest) => '(' :: (first.text ++ (tailText rest ++ [')']))

/-- The forms, each with a space in front. -/
def tailText : List PrintedForm → List Char
  | [] => []
  | form :: rest => ' ' :: (form.text ++ tailText rest)
end

/-- Can a property stand behind the form? -/
def isCompact : PrintedForm → Bool
  | keyword _ | name _ | number _ | list _ => true
  | mark _ | dotted _ _ => false

mutual
/-- What trees print: no mark is a parenthesis, no name is a keyword, no number has a sign. -/
def WellFormed : PrintedForm → Prop
  | mark sign => sign ≠ .leftParen ∧ sign ≠ .rightParen
  | keyword _ => True
  | name text => Lexeme text.toList .identifier
  | number value => Number.Plain value
  | dotted object property =>
      object.isCompact = true ∧ object.WellFormed ∧ Lexeme property.toList .identifier
  | list items => AllWellFormed items

def AllWellFormed : List PrintedForm → Prop
  | [] => True
  | form :: rest => form.WellFormed ∧ AllWellFormed rest
end

/-! ## First characters -/

/-- What a form starts with tells these sorts apart. -/
inductive Start where
  | word
  | number
  | list
  | mark
  deriving DecidableEq

def Start.of (first : Char) : Start :=
  if isLetter first then word
  else if isDigit first then number
  else if first = '(' then list
  else mark

def start : PrintedForm → Start
  | keyword _ | name _ => .word
  | number _ => .number
  | list _ => .list
  | mark _ => .mark
  | dotted object _ => object.start

theorem start_ne_mark {form : PrintedForm} (compact : form.isCompact = true) :
    form.start ≠ .mark := by
  cases form with
  | mark | dotted => cases compact
  | keyword | name | number | list => exact Start.noConfusion

theorem Start.of_digit {first : Char} (digit : isDigit first = true) : of first = number := by
  rw [of, isLetter_of_isDigit digit, digit]
  rfl

/-- A name starts with a letter, and only word characters follow. -/
theorem starts_of_name {text : List Char} (lexeme : Lexeme text .identifier) :
    ∃ first rest, text = first :: rest ∧ isLetter first = true ∧
      ∀ character ∈ text, isWordCharacter character = true := by
  cases lexeme with
  | name letter others _ => exact ⟨_, _, rfl, letter, isWordCharacter_word letter others⟩

theorem starts : ∀ {form : PrintedForm}, form.WellFormed →
    ∃ first rest, form.text = first :: rest ∧ Start.of first = form.start ∧ first ≠ ')'
  | mark sign, wellFormed => by
      cases sign with
      | leftParen => exact absurd rfl wellFormed.1
      | rightParen => exact absurd rfl wellFormed.2
      | _ => exact ⟨_, _, rfl, rfl, by decide⟩
  | keyword word, _ => by
      rcases word.starts with ⟨first, rest, equal, letter, _⟩
      refine ⟨first, rest, equal, if_pos letter, ?_⟩
      rintro rfl
      cases letter
  | name text, lexeme => by
      rcases starts_of_name lexeme with ⟨first, rest, equal, letter, _⟩
      refine ⟨first, rest, equal, if_pos letter, ?_⟩
      rintro rfl
      cases letter
  | number value, plain => by
      rcases Number.literalText_decimal plain with ⟨whole, fraction, digits, _, equal⟩
      rcases digits.starts with ⟨first, rest, rfl, digit⟩
      refine ⟨first, _, equal, Start.of_digit digit, ?_⟩
      rintro rfl
      cases digit
  | dotted object property, wellFormed => by
      rcases starts wellFormed.2.1 with ⟨first, rest, equal, sort, unlike⟩
      exact ⟨first, _, by rw [text, equal]; rfl, sort, unlike⟩
  | list [], _ => ⟨_, _, rfl, rfl, by decide⟩
  | list (_ :: _), _ => ⟨_, _, rfl, rfl, by decide⟩

/-- Forms with the same text start alike. -/
theorem start_eq {form other : PrintedForm} (wellFormed : form.WellFormed)
    (wellFormed' : other.WellFormed) {rest rest' : List Char}
    (same : form.text ++ rest = other.text ++ rest') : form.start = other.start := by
  rcases starts wellFormed with ⟨first, more, equal, sort, _⟩
  rcases starts wellFormed' with ⟨first', more', equal', sort', _⟩
  rw [equal, equal'] at same
  rw [← sort, ← sort', (List.cons.inj same).1]

/-! ## Reading a form

What follows a form does not belong to it. -/

/-- No word goes on here. -/
def EndsWord (rest : List Char) : Prop :=
  ∀ next ∈ rest.head?, isWordCharacter next = false

/-- A list ends or goes on here. -/
def EndsItem (rest : List Char) : Prop :=
  ∀ next ∈ rest.head?, next = ' ' ∨ next = ')'

theorem EndsItem.endsWord {rest : List Char} (ends : EndsItem rest) : EndsWord rest := by
  intro next first
  rcases ends next first with rfl | rfl <;> rfl

theorem EndsItem.not_point {rest : List Char} (ends : EndsItem ('.' :: rest)) : False := by
  rcases ends '.' rfl with h | h <;> cases h

/-- A compact form is the only one at the start of the text, even in front of a point. -/
def StandsOut (form : PrintedForm) : Prop :=
  ∀ other rest rest', other.isCompact = true → other.WellFormed → EndsWord rest →
    EndsWord rest' → form.text ++ rest = other.text ++ rest' → form = other ∧ rest = rest'

/-- The form is the only one at the start of the text. -/
def Unique (form : PrintedForm) : Prop :=
  ∀ other rest rest', other.WellFormed → EndsItem rest → EndsItem rest' →
    form.text ++ rest = other.text ++ rest' → form = other ∧ rest = rest'

theorem run_unique {kind : Char → Bool} {run run' rest rest' : List Char}
    (within : ∀ character ∈ run, kind character = true)
    (within' : ∀ character ∈ run', kind character = true)
    (stops : ∀ next ∈ rest.head?, kind next = false)
    (stops' : ∀ next ∈ rest'.head?, kind next = false)
    (same : run ++ rest = run' ++ rest') : run = run' ∧ rest = rest' := by
  have equal : run = run' := by
    rw [← takeWhile_run within stops, same, takeWhile_run within' stops']
  subst equal
  exact ⟨rfl, List.append_cancel_left same⟩

/-! ### Words and numbers -/

theorem keyword_of_text {word other : Keyword} (same : word.text.toList = other.text.toList) :
    word = other := by
  have again : Lexeme word.text.toList (.keyword other) := by
    rw [same]
    exact .keyword other
  cases (Lexeme.keyword word).kind_unique again
  rfl

theorem not_keyword_of_name {word : Keyword} {text : String}
    (lexeme : Lexeme text.toList .identifier) : word.text.toList ≠ text.toList := by
  intro same
  have again : Lexeme text.toList (.keyword word) := by
    rw [← same]
    exact .keyword word
  cases lexeme.kind_unique again

theorem within_keyword (word : Keyword) :
    ∀ character ∈ word.text.toList, isWordCharacter character = true := by
  rcases word.starts with ⟨first, rest, equal, letter, others⟩
  rw [equal]
  exact isWordCharacter_word letter others

theorem within_name {text : List Char} (lexeme : Lexeme text .identifier) :
    ∀ character ∈ text, isWordCharacter character = true := by
  rcases starts_of_name lexeme with ⟨_, _, _, _, within⟩
  exact within

theorem keyword_standsOut (word : Keyword) : (keyword word).StandsOut := by
  intro other rest rest' compact wellFormed ends ends' same
  have start := @start_eq (keyword word) _ trivial wellFormed _ _ same
  cases other with
  | keyword word' =>
      rcases run_unique (within_keyword word) (within_keyword word') ends ends' same with
        ⟨equal, others⟩
      rw [keyword_of_text equal]
      exact ⟨rfl, others⟩
  | name text =>
      have equal := (run_unique (within_keyword word) (within_name wellFormed) ends ends' same).1
      exact absurd equal (not_keyword_of_name wellFormed)
  | number | list => cases start
  | mark | dotted => cases compact

theorem name_standsOut {text : String} (lexeme : Lexeme text.toList .identifier) :
    (name text).StandsOut := by
  intro other rest rest' compact wellFormed ends ends' same
  have start := @start_eq (name text) _ lexeme wellFormed _ _ same
  cases other with
  | keyword word =>
      have equal := (run_unique (within_name lexeme) (within_keyword word) ends ends' same).1
      exact absurd equal.symm (not_keyword_of_name lexeme)
  | name text' =>
      rcases run_unique (within_name lexeme) (within_name wellFormed) ends ends' same with
        ⟨equal, others⟩
      rw [String.toList_inj.mp equal]
      exact ⟨rfl, others⟩
  | number | list => cases start
  | mark | dotted => cases compact

theorem point_endsWord {rest : List Char} : EndsWord ('.' :: rest) := by
  rintro _ ⟨⟩
  rfl

theorem EndsWord.endsNumber {rest : List Char} (ends : EndsWord rest) :
    ∀ next ∈ rest.head?, isDigit next = false := by
  intro next first
  have outside := ends next first
  simp only [isWordCharacter, Bool.or_eq_false_iff] at outside
  exact outside.2

theorem number_standsOut {value : Float} (plain : Number.Plain value) :
    (number value).StandsOut := by
  intro other rest rest' compact wellFormed ends ends' same
  have start := @start_eq (number value) _ plain wellFormed _ _ same
  cases other with
  | number value' =>
      rcases Number.literalText_decimal plain with ⟨whole, fraction, digits, digits', equal⟩
      rcases Number.literalText_decimal wellFormed with ⟨whole', fraction', more, more', equal'⟩
      simp only [text, equal, equal', List.append_assoc, List.cons_append] at same
      rcases run_unique digits.2 more.2 point_endsWord.endsNumber point_endsWord.endsNumber same
        with ⟨rfl, onward⟩
      rcases run_unique digits'.2 more'.2 ends.endsNumber ends'.endsNumber
        (List.cons.inj onward).2 with ⟨rfl, others⟩
      have values : Number.literalText value = Number.literalText value' :=
        String.toList_inj.mp (equal.trans equal'.symm)
      rw [Number.literalText_inj plain wellFormed values]
      exact ⟨rfl, others⟩
  | keyword | name | list => cases start
  | mark | dotted => cases compact

/-! ### Lists -/

theorem endsItem_tailText (items : List PrintedForm) (rest : List Char) :
    EndsItem (tailText items ++ ')' :: rest) := by
  cases items with
  | nil =>
      rintro _ ⟨⟩
      exact .inr rfl
  | cons item items =>
      rintro _ ⟨⟩
      exact .inl rfl

theorem tail_unique {items : List PrintedForm} (unique : ∀ item ∈ items, item.Unique)
    {others : List PrintedForm} (wellFormed : AllWellFormed others) {rest rest' : List Char}
    (same : tailText items ++ ')' :: rest = tailText others ++ ')' :: rest') :
    items = others ∧ rest = rest' := by
  induction items generalizing others with
  | nil =>
      cases others with
      | nil => exact ⟨rfl, (List.cons.inj same).2⟩
      | cons other others => cases same
  | cons item items induction =>
      cases others with
      | nil => cases same
      | cons other others =>
          simp only [tailText, List.cons_append, List.append_assoc] at same
          rw [List.forall_mem_cons] at unique
          rcases unique.1 other _ _ wellFormed.1 (endsItem_tailText _ _) (endsItem_tailText _ _)
            (List.cons.inj same).2 with ⟨rfl, onward⟩
          rcases induction unique.2 wellFormed.2 onward with ⟨rfl, equal⟩
          exact ⟨rfl, equal⟩

/-- No form is mistaken for the end of a list. -/
theorem text_ne_end {form : PrintedForm} (wellFormed : form.WellFormed) (more rest : List Char) :
    form.text ++ more ≠ ')' :: rest := by
  rcases starts wellFormed with ⟨first, others, equal, _, unlike⟩
  rw [equal]
  intro same
  exact unlike (List.cons.inj same).1

theorem list_standsOut {items : List PrintedForm} (wellFormed : AllWellFormed items)
    (unique : ∀ item ∈ items, item.Unique) : (list items).StandsOut := by
  intro other rest rest' compact wellFormed' ends ends' same
  have start := @start_eq (list items) _ wellFormed wellFormed' _ _ same
  cases other with
  | list others =>
      cases items with
      | nil =>
          cases others with
          | nil => exact ⟨rfl, List.append_cancel_left same⟩
          | cons other others =>
              simp only [text, List.cons_append, List.append_assoc] at same
              exact absurd (List.cons.inj same).2.symm (text_ne_end wellFormed'.1 _ _)
      | cons item items =>
          cases others with
          | nil =>
              simp only [text, List.cons_append, List.append_assoc] at same
              exact absurd (List.cons.inj same).2 (text_ne_end wellFormed.1 _ _)
          | cons other others =>
              simp only [text, List.cons_append, List.append_assoc] at same
              rw [List.forall_mem_cons] at unique
              rcases unique.1 other _ _ wellFormed'.1 (endsItem_tailText _ _)
                (endsItem_tailText _ _) (List.cons.inj same).2 with ⟨rfl, onward⟩
              rcases tail_unique unique.2 wellFormed'.2 onward with ⟨rfl, equal⟩
              exact ⟨rfl, equal⟩
  | keyword | name | number => cases start
  | mark | dotted => cases compact

/-! ### All forms -/

/-- The text of a mark goes up to the next space or parenthesis. -/
def goesOn (character : Char) : Bool :=
  character ≠ ' ' && character ≠ ')'

theorem EndsItem.stops {rest : List Char} (ends : EndsItem rest) :
    ∀ next ∈ rest.head?, goesOn next = false := by
  intro next first
  rcases ends next first with rfl | rfl <;> rfl

theorem within_mark {sign : Mark} (wellFormed : (mark sign).WellFormed) :
    ∀ character ∈ sign.text.toList, goesOn character = true := by
  cases sign with
  | leftParen => exact absurd rfl wellFormed.1
  | rightParen => exact absurd rfl wellFormed.2
  | _ => exact List.all_eq_true.mp (by decide)

theorem mark_unique {sign : Mark} (wellFormed : (mark sign).WellFormed) : (mark sign).Unique := by
  intro other rest rest' wellFormed' ends ends' same
  have start := start_eq wellFormed wellFormed' same
  cases other with
  | mark sign' =>
      rcases run_unique (within_mark wellFormed) (within_mark wellFormed') ends.stops ends'.stops
        same with ⟨equal, others⟩
      have again : Lexeme sign.text.toList (.mark sign') := by
        rw [equal]
        exact .mark sign'
      cases (Lexeme.mark sign).kind_unique again
      exact ⟨rfl, others⟩
  | dotted object property => exact absurd start.symm (@start_ne_mark object wellFormed'.1)
  | keyword | name | number | list => cases start

theorem StandsOut.unique {form : PrintedForm} (alone : form.StandsOut)
    (compact : form.isCompact = true) (wellFormed : form.WellFormed) : form.Unique := by
  intro other rest rest' wellFormed' ends ends' same
  cases other with
  | mark sign => exact absurd (start_eq wellFormed wellFormed' same) (start_ne_mark compact)
  | dotted object property =>
      simp only [text, List.append_assoc, List.cons_append] at same
      have onward := (alone object _ _ wellFormed'.1 wellFormed'.2.1 ends.endsWord point_endsWord
        same).2
      rw [onward] at ends
      exact ends.not_point.elim
  | keyword | name | number | list =>
      exact alone _ _ _ rfl wellFormed' ends.endsWord ends'.endsWord same

theorem dotted_unique {object : PrintedForm} {property : String} (alone : object.StandsOut)
    (wellFormed : (dotted object property).WellFormed) : (dotted object property).Unique := by
  intro other rest rest' wellFormed' ends ends' same
  cases other with
  | mark sign =>
      exact absurd (start_eq wellFormed wellFormed' same) (@start_ne_mark object wellFormed.1)
  | dotted object' property' =>
      simp only [text, List.append_assoc, List.cons_append] at same
      rcases alone object' _ _ wellFormed'.1 wellFormed'.2.1 point_endsWord point_endsWord same with
        ⟨rfl, onward⟩
      rcases run_unique (within_name wellFormed.2.2) (within_name wellFormed'.2.2) ends.endsWord
        ends'.endsWord (List.cons.inj onward).2 with ⟨equal, others⟩
      rw [String.toList_inj.mp equal]
      exact ⟨rfl, others⟩
  | keyword | name | number | list =>
      simp only [text, List.append_assoc, List.cons_append] at same
      have onward := (alone _ _ _ rfl wellFormed' point_endsWord ends'.endsWord same).2
      rw [← onward] at ends'
      exact ends'.not_point.elim

mutual
theorem standsOut : ∀ {form : PrintedForm}, form.isCompact = true → form.WellFormed →
    form.StandsOut
  | keyword word, _, _ => keyword_standsOut word
  | name _, _, lexeme => name_standsOut lexeme
  | number _, _, plain => number_standsOut plain
  | list _, _, wellFormed => list_standsOut wellFormed (all_unique wellFormed)

theorem unique : ∀ {form : PrintedForm}, form.WellFormed → form.Unique
  | mark _, wellFormed => mark_unique wellFormed
  | keyword word, wellFormed => (keyword_standsOut word).unique rfl wellFormed
  | name _, lexeme => (name_standsOut lexeme).unique rfl lexeme
  | number _, plain => (number_standsOut plain).unique rfl plain
  | dotted _ _, wellFormed => dotted_unique (standsOut wellFormed.1 wellFormed.2.1) wellFormed
  | list _, wellFormed =>
      (list_standsOut wellFormed (all_unique wellFormed)).unique rfl wellFormed

theorem all_unique : ∀ {items : List PrintedForm}, AllWellFormed items →
    ∀ item ∈ items, item.Unique
  | [], _ => nofun
  | _ :: _, wellFormed =>
      List.forall_mem_cons.mpr ⟨unique wellFormed.1, all_unique wellFormed.2⟩
end

/-- A form can be read from its text in one way only. -/
theorem text_injective {form other : PrintedForm} (wellFormed : form.WellFormed)
    (wellFormed' : other.WellFormed) (same : form.text = other.text) : form = other := by
  have nothing : EndsItem [] := nofun
  exact (unique wellFormed other [] [] wellFormed' nothing nothing (by rw [same])).1

end PrintedForm

end Lox
