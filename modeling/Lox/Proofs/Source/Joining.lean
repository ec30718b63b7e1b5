import Lox.Proofs.Source.Lexemes
import Lox.Proofs.Grammar.Sentence
/-! Sources put together. A line end parts any two pieces, unless it stands in a string; so
the items of two sources with a line end between them are those of the first one, without
its last, and those of the second one further down. -/

namespace Lox

/-! ## Further down -/

def Token.moved (lines : Nat) (token : Token) : Token :=
  { token with line := token.line + lines }

def Diagnostic.moved (lines : Nat) : Diagnostic → Diagnostic
  | lexical fault line => lexical fault (line + lines)
  | grammar fault blamed => grammar fault (blamed.moved lines)
  | scope fault blamed => scope fault (blamed.moved lines)
  | runtime fault line => runtime fault (line + lines)
  | output fault => output fault

def Item.moved (lines : Nat) : Item → Item
  | token found => token (found.moved lines)
  | problem diagnostic => problem (diagnostic.moved lines)

/-- The source with that many lines in front of it. -/
def below (lines : Nat) (source : String) : String :=
  String.ofList (List.replicate lines '\n') ++ source

/-- Both sources, each on lines of its own. -/
def joined (first second : String) : String :=
  first ++ "\n" ++ second

/-! ## Pieces -/

namespace Piece

/-- Up to which pieces a blank makes no difference: a string has to be closed, and a comment ends
with its line. -/
def EndsAt (parting : Char) : Piece → Prop
  | unclosed _ => False
  | comment _ => parting = '\n'
  | _ => True

/-- What no lexeme goes on with. -/
structure Parts (parting : Char) : Prop where
  digit : isDigit parting = false
  word : isWordCharacter parting = false
  point : parting ≠ '.'
  equals : parting ≠ '='
  slash : parting ≠ '/'

theorem parts_of_blank {parting : Char} (blank : parting ∈ [' ', '\t', '\r', '\n']) :
    Parts parting := by
  have kinds : ∀ other ∈ [' ', '\t', '\r', '\n'], Parts other := by
    simp only [List.forall_mem_cons]
    exact ⟨by constructor <;> decide, by constructor <;> decide, by constructor <;> decide,
      by constructor <;> decide, nofun⟩
  exact kinds parting blank

section

variable {parting : Char} (parts : Parts parting) {rest after : List Char}

/-- Where a run of characters ends does not depend on what comes after a character that is none
of them. -/
theorem takeWhile_parted {kind : Char → Bool} (stops : kind parting = false) :
    (rest ++ parting :: after).takeWhile kind = rest.takeWhile kind := by
  rw [List.takeWhile_append, List.takeWhile_cons, stops]
  split
  · rename_i whole
    rw [(List.takeWhile_prefix kind).eq_of_length whole]
    exact List.append_nil rest
  · rfl

theorem dropWhile_parted {kind : Char → Bool} (stops : kind parting = false) :
    (rest ++ parting :: after).dropWhile kind = rest.dropWhile kind ++ parting :: after := by
  rw [List.dropWhile_append, List.dropWhile_cons, stops]
  split
  · rename_i nothing
    rw [List.isEmpty_iff.mp nothing]
    rfl
  · rfl

/-- What comes first in front of another character comes first without it. -/
theorem starts_of_parted {character : Char} (unlike : parting ≠ character) {others : List Char}
    (same : rest ++ parting :: after = character :: others) :
    ∃ others, rest = character :: others := by
  cases rest with
  | nil => exact absurd (List.cons.inj same).1 unlike
  | cons next rest => exact ⟨rest, congrArg (· :: rest) (List.cons.inj same).1⟩

/-- Without an equals sign behind it a mark is one character. -/
theorem takeMark_single (first : Char) (unlike : ∀ others, rest ≠ '=' :: others) :
    takeMark first rest = match Mark.single? first with
      | some mark => (lexeme (.mark mark) [first], rest)
      | none => (stray first, rest) := by
  unfold takeMark
  split
  · exact absurd rfl (unlike _)
  · rfl

/-- Without a digit behind a point a number is whole. -/
theorem takeNumber_whole (unlike : ∀ digit others,
      rest.dropWhile isDigit = '.' :: digit :: others → isDigit digit = false) :
    takeNumber rest =
      (lexeme (.number (numberValue (rest.takeWhile isDigit) [])) (rest.takeWhile isDigit),
        rest.dropWhile isDigit) := by
  unfold takeNumber
  split
  · rename_i digit others remaining
    rw [unlike digit others remaining, remaining]
    rfl
  · rfl

theorem takeNumber_point {digit : Char} {others : List Char}
    (remaining : rest.dropWhile isDigit = '.' :: digit :: others) (digital : isDigit digit = true) :
    takeNumber rest =
      (lexeme
          (.number (numberValue (rest.takeWhile isDigit) ((digit :: others).takeWhile isDigit)))
          (rest.takeWhile isDigit ++ '.' :: (digit :: others).takeWhile isDigit),
        (digit :: others).dropWhile isDigit) := by
  rw [takeNumber, remaining]
  exact if_pos digital

theorem takeComment_lineEnd :
    takeComment (rest ++ '\n' :: after) =
      ((takeComment rest).1, (takeComment rest).2 ++ '\n' :: after) := by
  rw [takeComment, takeWhile_parted rfl, dropWhile_parted rfl]
  rfl

theorem takeString_parted (closed : (takeString rest).1.EndsAt parting) :
    takeString (rest ++ parting :: after) =
      ((takeString rest).1, (takeString rest).2 ++ parting :: after) := by
  rw [takeString] at closed
  rw [takeString, takeString, List.takeWhile_append, List.dropWhile_append]
  revert closed
  cases remaining : rest.dropWhile (!isQuote ·) with
  | nil => exact False.elim
  | cons quote others =>
      intro _
      have some : ¬ (rest.takeWhile (!isQuote ·)).length = rest.length := by
        have whole := congrArg List.length
          (List.takeWhile_append_dropWhile (p := (!isQuote ·)) (l := rest))
        rw [List.length_append, remaining, List.length_cons] at whole
        omega
      rw [if_neg some]
      rfl

include parts

theorem takeMark_parted (first : Char) :
    takeMark first (rest ++ parting :: after) =
      ((takeMark first rest).1, (takeMark first rest).2 ++ parting :: after) := by
  by_cases equals : ∃ others, rest = '=' :: others
  · rcases equals with ⟨others, rfl⟩
    rw [List.cons_append, takeMark.eq_def, takeMark.eq_def]
    cases Mark.double? first with
    | some mark => rfl
    | none => cases Mark.single? first <;> rfl
  · rw [takeMark_single first (not_exists.mp equals), takeMark_single]
    · cases Mark.single? first <;> rfl
    · intro others same
      exact equals (starts_of_parted parts.equals same)

theorem takeNumber_parted :
    takeNumber (rest ++ parting :: after) =
      ((takeNumber rest).1, (takeNumber rest).2 ++ parting :: after) := by
  by_cases pointed : ∃ digit others,
      rest.dropWhile isDigit = '.' :: digit :: others ∧ isDigit digit = true
  · rcases pointed with ⟨digit, others, remaining, digital⟩
    have remaining' : (rest ++ parting :: after).dropWhile isDigit = _ :=
      dropWhile_parted parts.digit
    rw [remaining, List.cons_append, List.cons_append] at remaining'
    rw [takeNumber_point remaining digital, takeNumber_point remaining' digital,
      ← List.cons_append, takeWhile_parted parts.digit, takeWhile_parted parts.digit,
      dropWhile_parted parts.digit]
  · have whole : ∀ digit others, rest.dropWhile isDigit = '.' :: digit :: others →
        isDigit digit = false := by
      intro digit others remaining
      exact Bool.eq_false_iff.mpr fun digital => pointed ⟨digit, others, remaining, digital⟩
    rw [takeNumber_whole whole, takeNumber_whole, takeWhile_parted parts.digit,
      dropWhile_parted parts.digit]
    rw [dropWhile_parted parts.digit]
    intro digit others remaining
    revert whole remaining
    rcases rest.dropWhile isDigit with _ | ⟨point, _ | ⟨next, rest⟩⟩
    · intro _ remaining
      exact absurd (List.cons.inj remaining).1 parts.point
    · rintro _ ⟨⟩
      exact parts.digit
    · rintro whole ⟨⟩
      exact whole _ _ rfl

theorem takeWord_parted :
    takeWord (rest ++ parting :: after) =
      ((takeWord rest).1, (takeWord rest).2 ++ parting :: after) := by
  rw [takeWord, takeWhile_parted parts.word, dropWhile_parted parts.word]
  rfl

/-- A piece that has an end ends in front of what no lexeme goes on with, if not before. -/
theorem take_parted (first : Char) (ends : (take first rest).1.EndsAt parting) :
    take first (rest ++ parting :: after) =
      ((take first rest).1, (take first rest).2 ++ parting :: after) := by
  rw [take.eq_def] at ends
  rw [take.eq_def, take.eq_def first rest]
  split
  · rfl
  rename_i solid
  rw [if_neg solid] at ends
  split
  · rename_i quoted
    rw [if_pos quoted] at ends
    exact takeString_parted ends
  rename_i unquoted
  rw [if_neg unquoted] at ends
  split
  · have number : takeNumber (first :: rest ++ parting :: after) = _ := takeNumber_parted parts
    exact number
  rename_i notDigit
  rw [if_neg notDigit] at ends
  split
  · have word : takeWord (first :: rest ++ parting :: after) = _ := takeWord_parted parts
    exact word
  rename_i notLetter
  rw [if_neg notLetter] at ends
  by_cases commented : first = '/' ∧ ∃ others, rest = '/' :: others
  · rcases commented with ⟨rfl, others, rfl⟩
    have lineEnd : parting = '\n' := ends
    subst lineEnd
    exact takeComment_lineEnd
  · split
    · rename_i same
      exact absurd ⟨rfl, starts_of_parted parts.slash same⟩ commented
    split
    · exact absurd ⟨rfl, _, rfl⟩ commented
    · exact takeMark_parted parts _

end

end Piece

/-- The pieces of a text do not depend on what comes after it behind a blank, unless the blank
stands in one of them. -/
theorem pieces_append {text : List Char} {parting : Char}
    (blank : parting ∈ [' ', '\t', '\r', '\n']) (after : List Char)
    (ends : ∀ piece ∈ pieces text, piece.EndsAt parting) :
    pieces (text ++ parting :: after) = pieces text ++ .blank parting :: pieces after := by
  induction text using pieces.induct with
  | case1 => rw [pieces_nil, List.nil_append, List.nil_append, pieces_blank blank]
  | case2 first rest induction =>
      rw [pieces_cons, List.forall_mem_cons] at ends
      rw [List.cons_append, pieces_cons, pieces_cons,
        Piece.take_parted (Piece.parts_of_blank blank) first ends.1, induction ends.2,
        List.cons_append]

/-! ## Items -/

namespace Item

/-- Which items there are does not depend on the line on which the first piece starts. -/
theorem ofPieces_moved (line lines : Nat) (pieces : List Piece) :
    ofPieces (line + lines) pieces = (ofPieces line pieces).map (moved lines) := by
  induction pieces generalizing line with
  | nil => rfl
  | cons piece rest induction =>
      rw [ofPieces, ofPieces, List.map_append, Nat.add_right_comm, induction]
      cases piece <;> rfl

theorem ofPieces_ne_nil (line : Nat) (pieces : List Piece) : ofPieces line pieces ≠ [] := by
  induction pieces generalizing line with
  | nil => exact List.cons_ne_nil _ _
  | cons piece rest induction => exact List.append_ne_nil_of_right_ne_nil _ (induction _)

/-- Only the last item is lost when other pieces follow. -/
theorem ofPieces_append (line : Nat) (first second : List Piece) :
    ofPieces line (first ++ second) = (ofPieces line first).dropLast ++
      ofPieces (line + (first.flatMap Piece.text).countP isLineEnd) second := by
  induction first generalizing line with
  | nil => rfl
  | cons piece rest induction =>
      rw [List.cons_append, ofPieces, ofPieces, induction, List.flatMap_cons, List.countP_append,
        List.dropLast_append_of_ne_nil (ofPieces_ne_nil _ rest), List.append_assoc, ← Nat.add_assoc]
      rfl

/-- A string that is never closed is reported. -/
theorem closed_of_ofPieces {line : Nat} {pieces : List Piece}
    (reports : ∀ line', problem (.lexical .unterminatedString line') ∉ ofPieces line pieces) :
    ∀ piece ∈ pieces, piece.EndsAt '\n' := by
  induction pieces generalizing line with
  | nil => nofun
  | cons piece rest induction =>
      rw [ofPieces] at reports
      have others := induction fun line' member => reports line' (List.mem_append_right _ member)
      refine List.forall_mem_cons.mpr ⟨?_, others⟩
      cases piece with
      | unclosed text => exact reports _ (List.mem_append_left _ (List.mem_singleton.mpr rfl))
      | _ => trivial

end Item

/-! ## Sources -/

theorem toList_joined (first second : String) :
    (joined first second).toList = first.toList ++ '\n' :: second.toList := by
  simp [joined]

theorem scan_below (lines : Nat) (source : String) :
    scan (below lines source) = (scan source).map (Item.moved lines) := by
  have blanks (line : Nat) (text : List Char) :
      Item.ofPieces line (pieces (List.replicate lines '\n' ++ text)) =
        Item.ofPieces (line + lines) (pieces text) := by
    induction lines generalizing line with
    | zero => rfl
    | succ lines induction =>
        rw [List.replicate_succ, List.cons_append, pieces_blank (by decide), Item.ofPieces]
        exact (induction (line + 1)).trans (by rw [Nat.add_right_comm, Nat.add_assoc])
  rw [scan, below, String.toList_append, String.toList_ofList, blanks, Item.ofPieces_moved]
  rfl

/-- The items of the first source without its last one, and those of the second one below. -/
theorem scan_join {first : String} (second : String)
    (reports : ∀ line, Item.problem (.lexical .unterminatedString line) ∉ scan first) :
    scan (joined first second) =
      (scan first).dropLast ++ scan (below (lineAfter first.toList) second) := by
  have closed := Item.closed_of_ofPieces reports
  have lines : 1 + lineAfter first.toList = 1 + first.toList.countP isLineEnd + 1 := by
    have same : first.toList.count '\n' = first.toList.countP isLineEnd := List.count_eq_countP
    rw [lineAfter, same]
    omega
  rw [scan_below, scan, toList_joined, pieces_append (by decide) _ closed, Item.ofPieces_append,
    pieces_flatMap_text, scan, scan, ← Item.ofPieces_moved, lines]
  rfl

/-- On the next line a second source yields its items again, further down; the first one keeps
all of its items, the reported ones too, but for the one that ends it. -/
theorem scan_lineEnd {first : String} (second : String)
    (reports : ∀ line, Item.problem (.lexical .unterminatedString line) ∉ scan first) :
    ∃ earlier, scan first = earlier ++ [.token (.endOfInput (lineAfter first.toList))] ∧
      (∀ token, .token token ∈ earlier → token.isEnd = false) ∧
      scan (first ++ "\n" ++ second) =
        earlier ++ (scan second).map (Item.moved (1 + first.toList.count '\n')) := by
  have segments : Segments [] first.toList (scan first) := Item.ofPieces_segments [] first.toList
  rcases segments.ends with ⟨earlier, split, others⟩
  refine ⟨earlier, split, others, ?_⟩
  have whole := scan_join second reports
  rw [split, List.dropLast_concat, scan_below] at whole
  exact whole

/-- Both sources hold an error, and the second one ends in a string that is not closed. -/
theorem scan_lineEnd_erroneous :
    scan ("a@\n5." ++ "\n" ++ "$\"b") =
      [.token ⟨.identifier, "a", 1⟩, .problem (.lexical (.unexpectedCharacter '@') 1),
        .token ⟨.number 5.0, "5", 2⟩, .token ⟨.mark .dot, ".", 2⟩,
        .problem (.lexical (.unexpectedCharacter '$') 3),
        .problem (.lexical .unterminatedString 3), .token (.endOfInput 3)] := by
  have first : scan "a@\n5." =
      [.token ⟨.identifier, "a", 1⟩, .problem (.lexical (.unexpectedCharacter '@') 1),
        .token ⟨.number 5.0, "5", 2⟩, .token ⟨.mark .dot, ".", 2⟩, .token (.endOfInput 2)] := by
    decide +kernel
  have second : scan "$\"b" =
      [.problem (.lexical (.unexpectedCharacter '$') 1),
        .problem (.lexical .unterminatedString 1), .token (.endOfInput 1)] := by decide +kernel
  have reports : ∀ line, Item.problem (.lexical .unterminatedString line) ∉ scan "a@\n5." := by
    simp [first]
  rcases scan_lineEnd "$\"b" reports with ⟨earlier, split, _, whole⟩
  have kept := congrArg List.dropLast split
  rw [first, List.dropLast_concat] at kept
  rw [whole, second, ← kept]
  rfl

theorem tokensOf_below (lines : Nat) (source : String) :
    tokensOf (below lines source) = (tokensOf source).map (Token.moved lines) := by
  rw [tokensOf, tokensOf, scan_below, List.filterMap_map, List.map_filterMap]
  congr 1
  funext item
  cases item <;> rfl

theorem lexicalProblems_below (lines : Nat) (source : String) :
    lexicalProblems (below lines source) =
      (lexicalProblems source).map (Diagnostic.moved lines) := by
  rw [lexicalProblems, lexicalProblems, scan_below, List.filterMap_map, List.map_filterMap]
  congr 1
  funext item
  cases item <;> rfl

section

variable {first : String} (clean : lexicalProblems first = [])

include clean

theorem not_mem_scan_of_clean (diagnostic : Diagnostic) : Item.problem diagnostic ∉ scan first := by
  intro member
  have reported : diagnostic ∈ lexicalProblems first :=
    List.mem_filterMap.mpr ⟨_, member, rfl⟩
  rw [clean] at reported
  cases reported

theorem lexicalProblems_join (second : String) :
    lexicalProblems (joined first second) =
      lexicalProblems (below (lineAfter first.toList) second) := by
  have none : (scan first).dropLast.filterMap Item.problem? = [] := by
    refine List.eq_nil_of_sublist_nil ?_
    rw [← clean]
    exact (List.dropLast_sublist _).filterMap _
  rw [lexicalProblems, scan_join second fun line => not_mem_scan_of_clean clean _,
    List.filterMap_append, none, List.nil_append, lexicalProblems]

/-- The tokens to be parsed are those of the first source and then those of the second one. -/
theorem sentence_join (second : String) :
    sentence (tokensOf (joined first second)) = sentence (tokensOf first) ++
      sentence (tokensOf (below (lineAfter first.toList) second)) := by
  have segments : Segments [] first.toList (scan first) := Item.ofPieces_segments [] first.toList
  rcases segments.ends with ⟨earlier, split, others⟩
  have inside : ∀ token ∈ earlier.filterMap Item.token?, token.isEnd = false := by
    intro token member
    rcases List.mem_filterMap.mp member with ⟨item, known, found⟩
    cases item with
    | token found' =>
        cases found
        exact others token known
    | problem _ => cases found
  have alone : sentence (tokensOf first) = earlier.filterMap Item.token? := by
    rw [tokensOf, split, List.filterMap_append]
    exact Grammar.sentence_append rfl inside
  rw [alone, tokensOf, scan_join second fun line => not_mem_scan_of_clean clean _, split,
    List.dropLast_concat, List.filterMap_append, sentence, List.takeWhile_append_of_pos]
  · rfl
  · intro token member
    rw [inside token member]
    rfl

end

end Lox
