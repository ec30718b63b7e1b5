import Lox.Source.Item
/-! The items of a source segment its text: each of them but the last stands for a span
of its own, and what lies between the spans is blank or comment. Nothing is lost, and
nothing is covered twice. -/

namespace Lox

/-- The line on which the text behind `before` starts. -/
def lineAfter (before : List Char) : Nat :=
  1 + before.count '\n'

/-! ## Segments -/

/-- What is skipped in front of `following`. A comment reaches to the end of its line, or
to that of the source. -/
inductive Skipped (following : List Char) : List Char → Prop
  | nothing : Skipped following []
  | blank {character : Char} {rest : List Char} :
      character ∈ [' ', '\t', '\r', '\n'] → Skipped following rest →
      Skipped following (character :: rest)
  | comment {text rest : List Char} :
      '\n' ∉ text → (∀ next ∈ (rest ++ following).head?, next = '\n') →
      Skipped following rest → Skipped following ('/' :: '/' :: (text ++ rest))

/-- What an item tells of the span that it stands for. -/
inductive Item.Describes (before span after : List Char) : Item → Prop
  | lexeme {kind : TokenKind} :
      kind ≠ .endOfInput → span ≠ [] →
      Describes before span after
        (.token ⟨kind, String.ofList span, lineAfter (before ++ span)⟩)
  | stray {character : Char} :
      span = [character] →
      Describes before span after
        (.problem (.lexical (.unexpectedCharacter character) (lineAfter before)))
  | unclosed {contents : List Char} :
      span = '"' :: contents → '"' ∉ contents → after = [] →
      Describes before span after
        (.problem (.lexical .unterminatedString (lineAfter (before ++ span))))

/-- The items stand for the spans of what follows `before`. -/
inductive Segments : List Char → List Char → List Item → Prop
  | finish {before skipped : List Char} :
      Skipped [] skipped →
      Segments before skipped [.token (.endOfInput (lineAfter (before ++ skipped)))]
  | item {before skipped span after : List Char} {item : Item} {items : List Item} :
      Skipped (span ++ after) skipped → item.Describes (before ++ skipped) span after →
      Segments (before ++ skipped ++ span) after items →
      Segments before (skipped ++ (span ++ after)) (item :: items)

/-- The last item ends the input, and no other does. -/
theorem Segments.ends {before rest : List Char} {items : List Item}
    (segments : Segments before rest items) :
    ∃ earlier, items = earlier ++ [.token (.endOfInput (lineAfter (before ++ rest)))] ∧
      ∀ token, .token token ∈ earlier → token.isEnd = false := by
  induction segments with
  | finish _ => exact ⟨[], rfl, nofun⟩
  | @item before skipped span after item items _ describes _ induction =>
      rcases induction with ⟨earlier, rfl, others⟩
      refine ⟨item :: earlier, ?_, ?_⟩
      · simp only [List.cons_append, List.append_assoc]
      · intro token member
        cases member with
        | tail _ member => exact others token member
        | head =>
            cases describes with
            | @lexeme kind noEnd _ =>
                cases kind with
                | endOfInput => exact absurd rfl noEnd
                | _ => rfl

/-- A span with nothing in front of it. -/
theorem Segments.span {before span after : List Char} {item : Item} {items : List Item}
    (describes : item.Describes before span after)
    (others : Segments (before ++ span) after items) :
    Segments before (span ++ after) (item :: items) := by
  rw [← List.append_nil before] at describes others
  exact .item .nothing describes others

/-- What is skipped may start earlier. -/
theorem Segments.skip {before run rest : List Char} {items : List Item}
    (skips : ∀ skipped following, rest = skipped ++ following → Skipped following skipped →
      Skipped following (run ++ skipped))
    (segments : Segments (before ++ run) rest items) : Segments before (run ++ rest) items := by
  cases segments with
  | finish skipped =>
      rw [List.append_assoc]
      exact .finish (skips _ _ (List.append_nil _).symm skipped)
  | item skipped describes others =>
      rw [← List.append_assoc run]
      rw [List.append_assoc] at describes
      rw [List.append_assoc before] at others
      exact .item (skips _ _ rfl skipped) describes others

/-! ## Pieces -/

namespace Piece

/-- What is known of a piece, and of the text behind it. -/
def Shaped (after : List Char) : Piece → Prop
  | blank character => character ∈ [' ', '\t', '\r', '\n']
  | comment text => (∃ body, text = '/' :: '/' :: body ∧ '\n' ∉ body) ∧
      ∀ next ∈ after.head?, next = '\n'
  | lexeme kind text => kind ≠ .endOfInput ∧ text ≠ []
  | stray character => character ≠ '\n'
  | unclosed text => (∃ contents, text = '"' :: contents ∧ '"' ∉ contents) ∧ after = []

theorem isBlank_iff (character : Char) :
    isBlank character = true ↔ character ∈ [' ', '\t', '\r', '\n'] := by
  simp [isBlank, or_assoc]

/-- A text up to a character does not hold it, and what follows starts with it. -/
theorem not_mem_takeWhile_ne (stop : Char) (text : List Char) :
    stop ∉ text.takeWhile (· ≠ stop) := by
  intro member
  simpa using List.all_eq_true.mp List.all_takeWhile stop member

theorem head?_dropWhile_ne (stop : Char) (text : List Char) :
    ∀ next ∈ (text.dropWhile (· ≠ stop)).head?, next = stop := by
  intro next first
  have unlike := List.head?_dropWhile_not (· ≠ stop) text
  rw [Option.mem_def.mp first] at unlike
  simpa using unlike

theorem takeMark_shaped {first : Char} (rest : List Char) (ordinary : first ≠ '\n') :
    (takeMark first rest).1.Shaped (takeMark first rest).2 := by
  unfold takeMark
  split
  · exact ⟨nofun, List.cons_ne_nil _ _⟩
  · split
    · exact ⟨nofun, List.cons_ne_nil _ _⟩
    · exact ordinary

theorem takeComment_shaped (rest : List Char) :
    (takeComment rest).1.Shaped (takeComment rest).2 := by
  have same : (!isLineEnd ·) = (decide <| · ≠ '\n') := by
    funext character
    simp [isLineEnd]
  unfold takeComment
  rw [same]
  exact ⟨⟨_, rfl, not_mem_takeWhile_ne _ _⟩, head?_dropWhile_ne _ _⟩

theorem takeString_shaped (rest : List Char) :
    (takeString rest).1.Shaped (takeString rest).2 := by
  have same : (!isQuote ·) = (decide <| · ≠ '"') := by
    funext character
    simp [isQuote]
  unfold takeString
  split
  · rw [same]
    exact ⟨⟨_, rfl, not_mem_takeWhile_ne _ _⟩, rfl⟩
  · exact ⟨nofun, List.cons_ne_nil _ _⟩

theorem takeNumber_shaped {first : Char} (digit : isDigit first = true) (rest : List Char) :
    (takeNumber (first :: rest)).1.Shaped (takeNumber (first :: rest)).2 := by
  have some := takeNumber_ne_nil digit rest
  revert some
  unfold takeNumber
  split
  · split
    · exact fun some => ⟨nofun, some⟩
    · exact fun some => ⟨nofun, some⟩
  · exact fun some => ⟨nofun, some⟩

theorem takeWord_shaped {first : Char} (letter : isLetter first = true) (rest : List Char) :
    (takeWord (first :: rest)).1.Shaped (takeWord (first :: rest)).2 := by
  refine ⟨?_, takeWord_ne_nil letter rest⟩
  unfold wordKind
  split
  · nofun
  · nofun

theorem take_shaped (first : Char) (rest : List Char) :
    (take first rest).1.Shaped (take first rest).2 := by
  unfold take
  split
  · rename_i blank
    exact (isBlank_iff first).mp blank
  rename_i solid
  split
  · exact takeString_shaped rest
  split
  · rename_i digit
    exact takeNumber_shaped digit rest
  split
  · rename_i letter
    exact takeWord_shaped letter rest
  split
  · exact takeComment_shaped _
  · refine takeMark_shaped _ ?_
    rintro rfl
    exact solid rfl

end Piece

/-! ## The items of a source -/

theorem lineAfter_append (before text : List Char) :
    lineAfter (before ++ text) = lineAfter before + text.countP isLineEnd := by
  have same : text.count '\n' = text.countP isLineEnd := List.count_eq_countP
  rw [lineAfter, lineAfter, List.count_append, same, Nat.add_assoc]

/-- The invariant is that the line is the one on which what is left starts. -/
theorem Item.ofPieces_segments (before rest : List Char) :
    Segments before rest (ofPieces (lineAfter before) (pieces rest)) := by
  induction rest using pieces.induct generalizing before with
  | case1 =>
      rw [pieces_nil, ofPieces]
      have finished : Segments before [] _ := .finish .nothing
      rw [List.append_nil] at finished
      exact finished
  | case2 first rest induction =>
      rw [pieces_cons, ofPieces]
      have shaped := Piece.take_shaped first rest
      have whole := Piece.take_text first rest
      generalize Piece.take first rest = taken at induction shaped whole
      rcases taken with ⟨piece, after⟩
      have others := induction (before ++ piece.text)
      rw [lineAfter_append] at others
      dsimp only at shaped whole ⊢
      rw [← whole]
      -- A piece without an item lengthens what is skipped; any other one is a span.
      cases piece with
      | blank character => exact others.skip fun skipped following _ inner => .blank shaped inner
      | comment text =>
          rcases shaped with ⟨⟨body, rfl, within⟩, ends⟩
          refine others.skip fun skipped following split inner => ?_
          exact .comment within (split ▸ ends) inner
      | lexeme kind text =>
          have describes : Item.Describes before text after _ := .lexeme shaped.1 shaped.2
          rw [lineAfter_append] at describes
          exact .span describes others
      | stray character =>
          have ordinary : character ≠ '\n' := shaped
          have same : lineAfter before + (Piece.stray character).newlines = lineAfter before := by
            simp [Piece.newlines, Piece.text, isLineEnd, ordinary]
          have describes : Item.Describes before [character] after _ := .stray rfl
          rw [← same] at describes
          exact .span describes others
      | unclosed text =>
          rcases shaped with ⟨⟨contents, rfl, within⟩, rfl⟩
          have describes : Item.Describes before ('"' :: contents) [] _ := .unclosed rfl within rfl
          rw [lineAfter_append] at describes
          exact .span describes others

/-- Lexemes, stray characters and a string that never ends, put together with what is skipped
between them, are the source; each item is on the line on which its span ends, and only the last
one ends the input. -/
theorem scan_segments (source : String) :
    Segments [] source.toList (scan source) ∧
      ∃ earlier final, scan source = earlier ++ [.token final] ∧ final.isEnd = true ∧
        ∀ token, .token token ∈ earlier → token.isEnd = false := by
  have segments : Segments [] source.toList (scan source) := Item.ofPieces_segments [] source.toList
  rcases segments.ends with ⟨earlier, split, others⟩
  exact ⟨segments, earlier, _, split, rfl, others⟩

end Lox
