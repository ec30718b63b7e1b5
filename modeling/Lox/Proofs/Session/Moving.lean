import Lox.Proofs.Session.Varying
import Lox.Proofs.Source.Joining
/-! Sources further down. With empty lines in front of it a source does what it does without
them. Only the lines are others; and of these only the lines of its own tokens, not those of
what earlier sources have left. -/

namespace Lox

open Grammar

/-- The ending as it is reported further down. -/
def Ending.moved (lines : Nat) : Ending → Ending
  | success => success
  | rejected problems => rejected (problems.map (Diagnostic.moved lines))
  | failed problem => failed (problem.moved lines)
  | exhausted => exhausted

theorem Ending.moved_zero (ending : Ending) : ending.moved 0 = ending := by
  cases ending with
  | success | exhausted => rfl
  | failed problem => cases problem <;> rfl
  | rejected problems =>
      have same : Diagnostic.moved 0 = id := by
        funext problem
        cases problem <;> rfl
      rw [moved, same, List.map_id]

/-! ## Tokens of two depths -/

/-- The tokens of a source that stands at different depths on the two sides; tokens of earlier
sources stay where they are. -/
def Variation.moving (ids : OccurrenceId → OccurrenceId → Prop) (earlier : Token → Prop)
    (source : String) (lines lines' : Nat) : Variation where
  ids := ids
  tokens := fun token other => earlier token ∧ other = token ∨
    ∃ own ∈ tokensOf source, token = own.moved lines ∧ other = own.moved lines'
  kind := by
    rintro token other (⟨_, rfl⟩ | ⟨own, _, rfl, rfl⟩)
    · rfl
    · rfl
  lexeme := by
    rintro token other (⟨_, rfl⟩ | ⟨own, _, rfl, rfl⟩)
    · rfl
    · rfl

theorem Variation.moving_tokens {ids later : OccurrenceId → OccurrenceId → Prop}
    {earlier more : Token → Prop} (contained : ∀ token, earlier token → more token)
    {source : String} {lines lines' : Nat} {token other : Token}
    (same : (moving ids earlier source lines lines').tokens token other) :
    (moving later more source lines lines').tokens token other :=
  same.imp (And.imp_left (contained token)) id

theorem below_zero (source : String) : below 0 source = source := by
  simp [below]

section

variable {ids : OccurrenceId → OccurrenceId → Prop} {earlier : Token → Prop} {source : String}
  {lines lines' : Nat} {firstId : OccurrenceId} {sink : Sink} {clock : Nat → Float}

theorem sentence_below (lines : Nat) (source : String) :
    sentence (tokensOf (below lines source)) =
      (sentence (tokensOf source)).map (Token.moved lines) := by
  rw [tokensOf_below, sentence, sentence, List.takeWhile_map]
  rfl

theorem texts_below : (Variation.moving ids earlier source lines lines').Texts
    (sentence (tokensOf (below lines source))) (sentence (tokensOf (below lines' source))) := by
  rw [sentence_below, sentence_below, Variation.Texts, List.forall₂_map_left_iff,
    List.forall₂_map_right_iff, List.forall₂_same]
  intro token member
  exact .inr ⟨token, (List.takeWhile_sublist _).subset member, rfl, rfl⟩

/-- The same program is read at any depth, but for the lines of its tokens. -/
theorem readSource_below (earlier : Token → Prop) (source : String) (lines lines' : Nat)
    (firstId : OccurrenceId) :
    ((readSource (below lines source) firstId).problems = [] →
      (readSource (below lines' source) firstId).problems = []) ∧
    (readSource (below lines' source) firstId).nextId =
      (readSource (below lines source) firstId).nextId ∧
    Stmt.AllVary
      (.moving (InStep firstId firstId (readSource (below lines source) firstId).nextId) earlier
        source lines lines')
      (readSource (below lines source) firstId).statements
      (readSource (below lines' source) firstId).statements := by
  have texts : (Variation.moving Eq earlier source lines lines').Texts
      (sentence (tokensOf (below lines source))) (sentence (tokensOf (below lines' source))) :=
    texts_below
  rcases readProgram_varies (Ahead.start texts fun _ => rfl) with ⟨⟨numbered, vary⟩, drafts⟩
  refine ⟨fun clean => ?_, drafts.first.symm, ?_⟩
  · rcases List.append_eq_nil_iff.mp clean with ⟨lexical, grammatical⟩
    rw [lexicalProblems_below, List.map_eq_nil_iff] at lexical
    have errors : (readProgram (sentence (tokensOf (below lines source))) (.start firstId)).2.errors
        = [] := List.map_eq_nil_iff.mp grammatical
    have same := drafts.errors
    rw [errors, List.forall₂_nil_left_iff] at same
    refine List.append_eq_nil_iff.mpr ⟨?_, List.map_eq_nil_iff.mpr same⟩
    rw [lexicalProblems_below, lexical]
    rfl
  · refine vary.weaken (Variation.moving_tokens fun _ => id) fun id member id' related => ?_
    have inside := numbered.within id member
    exact ⟨inside.1, inside.2, congrArg (· + firstId) related⟩

theorem moving_exact {bound : OccurrenceId} :
    (Variation.moving (InStep firstId firstId bound) earlier source lines lines').Exact :=
  fun _ _ _ _ first second => InStep.iff first second

namespace Session

variable {session : Session}

theorem accepts_below (accepted : session.Accepts (below lines source)) (lines' : Nat) :
    session.Accepts (below lines' source) := by
  rcases readSource_below (fun _ => False) source lines lines' session.nextId with ⟨clean, _, vary⟩
  refine ⟨clean accepted.1, ?_⟩
  have resolved := (resolve_varies moving_exact vary).2
  rw [accepted.2, List.forall₂_nil_left_iff] at resolved
  exact resolved

/-- What a session knows about the numbers when a source has been resolved. -/
theorem find?_ready (reachable : Reachable sink clock session) (accepted : session.Accepts source)
    (id : OccurrenceId) :
    (session.ready source).distances.find? id =
      if id < session.nextId then session.machine.distances.find? id
      else (resolve (readSource source session.nextId).statements).distances.find? id := by
  have learns : (session.ready source).distances =
      session.machine.distances.setAll (session.recordedBy source) := by
    rw [recordedBy, if_pos accepted]
    rfl
  rw [learns, Table.find?_setAll (recordedBy_unique session source)]
  split
  · rename_i before
    rw [recordedBy_others session source (.inl before), Option.none_or]
  · rename_i fresh
    rw [reachable.unused id (Nat.le_of_not_lt fresh), Option.or_none, recordedBy, if_pos accepted]

/-! ## Runs of two depths -/

/-- A program that is read at another depth does the same, on a machine that may know more. -/
theorem executes_moved {machine : Machine} {stmts : List Stmt}
    (varies : session.machine.Varies (.ofIds (Taken session.nextId) earlier) machine)
    (vary : Stmt.AllVary
      (.moving (InStep session.nextId session.nextId
        (readSource (below lines source) session.nextId).nextId) earlier source lines lines')
      (readSource (below lines source) session.nextId).statements stmts)
    {distances : Distances}
    (known : ∀ id < (readSource (below lines source) session.nextId).nextId,
      (session.ready (below lines source)).distances.find? id = distances.find? id)
    (fuel : Nat) :
    EndsVary
      (.moving (Taken (readSource (below lines source) session.nextId).nextId) earlier source
        lines lines') Eq
      (executeProgram fuel (readSource (below lines source) session.nextId).statements
        (session.ready (below lines source)))
      (executeProgram fuel stmts { machine with distances := distances }) := by
  have advances := readSource_advances (below lines source) session.nextId
  have vary' := vary.weaken (Variation.moving_tokens fun _ => id) fun id _ id' related =>
    show Taken (readSource (below lines source) session.nextId).nextId id id' from
      ⟨Nat.add_right_cancel related.2.2, related.2.1⟩
  refine executeProgram_varies fuel vary' _ _ ?_
  refine varies.weaken (fun same => Or.inl same.symm) ?_ ?_
  · rintro id id' ⟨same, taken⟩
    exact ⟨same, Nat.lt_of_lt_of_le taken advances⟩
  · rintro id _ ⟨rfl, taken⟩
    exact known id taken

theorem run_below (reachable : Reachable sink clock session)
    (accepted : session.Accepts (below lines source))
    (varies : session.machine.Varies (.ofIds (Taken session.nextId) earlier) session.machine)
    (lines' fuel : Nat) :
    Ending.Varies
      (.moving (Taken (session.run fuel (below lines source)).2.nextId) earlier source lines lines')
      (session.run fuel (below lines source)).1 (session.run fuel (below lines' source)).1 := by
  rcases readSource_below earlier source lines lines' session.nextId with ⟨_, next, vary⟩
  have accepted' := accepts_below accepted lines'
  have known : ∀ id < (readSource (below lines source) session.nextId).nextId,
      (session.ready (below lines source)).distances.find? id =
        (session.ready (below lines' source)).distances.find? id := by
    intro id taken
    rw [find?_ready reachable accepted, find?_ready reachable accepted']
    split
    · rfl
    · rename_i fresh
      exact (resolve_varies moving_exact vary).1 id id ⟨Nat.le_of_not_lt fresh, taken, rfl⟩
  rw [run_nextId, run_ended fuel accepted, run_ended fuel accepted']
  exact (ended_varies (executes_moved varies vary known fuel) _ _).1

end Session

/-! ## Faults that move -/

/-- A bound on the lines of earlier sources tells the tokens of the source from theirs, when it
stands below that bound. So its faults either move with it, wherever it stands, or none of them
does. -/
theorem Ending.moves {bound : Nat} (apart : ∀ token, earlier token → token.line < bound)
    (pivot : Ending) : ∃ (base : Ending) (own : Bool), ∀ lines ending,
      pivot.Varies (.moving ids earlier source bound lines) ending →
        ending = base.moved (if own then lines else 0) ∧
        ∀ fault line, base = .failed (.runtime fault line) → ∃ token, token.line = line ∧
          if own then token ∈ tokensOf source else earlier token := by
  -- Only a fault of the run has a place.
  by_cases placed : ∃ fault line, pivot = .failed (.runtime fault line)
  · rcases placed with ⟨fault, line, rfl⟩
    by_cases own : bound ≤ line
    · refine ⟨.failed (.runtime fault (line - bound)), true, ?_⟩
      rintro lines _ ⟨⟩
      rename_i token other same
      rcases same with ⟨known, _⟩ | ⟨token, member, rfl, rfl⟩
      · exact absurd own (Nat.not_le_of_lt (apart _ known))
      · have depth : (token.moved bound).line - bound = token.line := Nat.add_sub_cancel _ _
        rw [depth]
        refine ⟨rfl, ?_⟩
        rintro _ _ ⟨⟩
        exact ⟨token, rfl, member⟩
    · refine ⟨.failed (.runtime fault line), false, ?_⟩
      rintro lines _ ⟨⟩
      rename_i token other same
      rcases same with ⟨known, rfl⟩ | ⟨token, member, rfl, rfl⟩
      · refine ⟨rfl, ?_⟩
        rintro _ _ ⟨⟩
        exact ⟨_, rfl, known⟩
      · exact absurd (Nat.le_add_left _ _) own
  · refine ⟨pivot, false, ?_⟩
    intro lines ending varies
    refine ⟨?_, fun fault line same => absurd ⟨fault, line, same⟩ placed⟩
    cases varies with
    | runtime _ => exact absurd ⟨_, _, rfl⟩ placed
    | _ => rfl

end

end Lox
