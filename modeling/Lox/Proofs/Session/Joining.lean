import Lox.Proofs.Session.Moving
/-! Sources one after another. To run two sources in a session, one after the other, is the
same as to run one source that consists of both, as long as nothing stops the first one. -/

namespace Lox

open Grammar Lexical World

/-! ## Reading both -/

namespace Grammar

theorem Declarations.append {nearest : Bool} {first middle next : OccurrenceId}
    {tokens others : List Token} {stmts stmts' : List Stmt}
    (declared : Declarations nearest tokens first stmts middle)
    (several : Declarations nearest others middle stmts' next) :
    Declarations nearest (tokens ++ others) first (stmts ++ stmts') next := by
  induction stmts generalizing tokens first with
  | nil =>
      cases declared
      exact several
  | cons stmt rest induction =>
      cases declared with
      | cons declaration declared =>
          rw [List.append_assoc]
          exact .cons declaration (induction declared)

/-- Where a sentence ends is told by the sentence. -/
theorem readProgram_append {first second : List Token} {firstId : OccurrenceId}
    (firstClean : (readProgram first (.start firstId)).2.errors = [])
    (secondClean : (readProgram second
      (.start (readProgram first (.start firstId)).2.nextId)).2.errors = []) :
    readProgram (first ++ second) (.start firstId) =
      ((readProgram first (.start firstId)).1 ++
          (readProgram second (.start (readProgram first (.start firstId)).2.nextId)).1,
        .start
          (readProgram second (.start (readProgram first (.start firstId)).2.nextId)).2.nextId) := by
  have declared := (readProgram_tree firstClean).mpr ⟨rfl, rfl⟩
  have several := (readProgram_tree secondClean).mpr ⟨rfl, rfl⟩
  exact (declared.append several).completes.2 []

end Grammar

/-- The depth of the second source of two that are joined. -/
abbrev depth (first : String) : Nat :=
  lineAfter first.toList

section

variable {first second : String} {firstId : OccurrenceId}

/-- The program of both sources is that of the first and then that of the second. -/
theorem readSource_joined (firstClean : (readSource first firstId).problems = [])
    (secondClean : (readSource (below (depth first) second)
      (readSource first firstId).nextId).problems = []) :
    readSource (joined first second) firstId =
      ⟨[], (readSource first firstId).statements ++
          (readSource (below (depth first) second) (readSource first firstId).nextId).statements,
        (readSource (below (depth first) second) (readSource first firstId).nextId).nextId⟩ := by
  rcases List.append_eq_nil_iff.mp firstClean with ⟨lexical, grammatical⟩
  rcases List.append_eq_nil_iff.mp secondClean with ⟨lexical', grammatical'⟩
  have errors : (readProgram (sentence (tokensOf first)) (.start firstId)).2.errors = [] :=
    List.map_eq_nil_iff.mp grammatical
  have errors' : (readProgram (sentence (tokensOf (below (depth first) second)))
      (.start (readProgram (sentence (tokensOf first)) (.start firstId)).2.nextId)).2.errors = [] :=
    List.map_eq_nil_iff.mp grammatical'
  have read := readProgram_append errors errors'
  rw [← sentence_join lexical] at read
  rw [readSource, parse, read, lexicalProblems_join lexical, lexical']
  rfl

/-! ## Resolving both -/

theorem resolveAll_append (around : Surroundings) (program others : List Stmt) (walk : Walk) :
    Stmt.resolveAll around (program ++ others) walk =
      Stmt.resolveAll around others (Stmt.resolveAll around program walk) := by
  induction program generalizing walk with
  | nil => rfl
  | cons stmt rest induction => exact induction _

/-- There are no scopes at the top level, so that a program tells nothing to the next one. -/
theorem resolve_append {program others variant : List Stmt} {variation : Variation}
    (unique : variation.Exact) (vary : Stmt.AllVary variation variant others)
    (new : ∀ id id', variation.ids id id' → id' ∉ Stmt.allOccurrences program)
    (clean : (resolve program).problems = []) (variantClean : (resolve variant).problems = []) :
    (resolve (program ++ others)).problems = [] ∧
      (∀ id, id ∉ Stmt.allOccurrences others →
        (resolve (program ++ others)).distances.find? id = (resolve program).distances.find? id) ∧
      ∀ id id', variation.ids id id' →
        (resolve variant).distances.find? id = (resolve (program ++ others)).distances.find? id' := by
  have top := List.eq_nil_of_length_eq_zero
    (Stmt.resolveAll_depth ⟨.topLevel, .outside⟩ program .start)
  have start : Walk.start.Varies variation
      (Stmt.resolveAll ⟨.topLevel, .outside⟩ program .start) := by
    refine ⟨top, fun id id' related => (resolve_distances_others (new id id' related)).symm, ?_⟩
    have walkClean : (Stmt.resolveAll ⟨.topLevel, .outside⟩ program .start).problems = [] := clean
    rw [walkClean]
    exact .nil
  have walked := vary.resolveAll unique ⟨.topLevel, .outside⟩ start
  have onward := Stmt.resolveAll_onward ⟨.topLevel, .outside⟩ others
    (Stmt.resolveAll ⟨.topLevel, .outside⟩ program .start)
  have variantWalkClean : (Stmt.resolveAll ⟨.topLevel, .outside⟩ variant .start).problems = [] :=
    variantClean
  have same := walked.problems
  rw [variantWalkClean, List.forall₂_nil_left_iff] at same
  rw [resolve, resolveAll_append]
  exact ⟨same, onward.others, walked.distances⟩

/-! ## Executing both -/

theorem Stmt.allScoped_left {recorded : OccurrenceId → Option Nat → Prop}
    {program others : List Stmt} (holds : Stmt.AllScoped recorded [] (program ++ others)) :
    Stmt.AllScoped recorded [] program := by
  induction program with
  | nil => trivial
  | cons stmt rest induction =>
      have top : stmt.scopesAfter [] = [] := by cases stmt <;> rfl
      rcases holds with ⟨first, rest⟩
      rw [top] at rest
      refine ⟨first, ?_⟩
      rw [top]
      exact induction rest

theorem flush_machine {machine after : Machine} (flushed : Run.flush machine = .ok () after) :
    after = machine := by
  have looked (next : Machine → Run Unit) : (get >>= next) machine = next machine machine := rfl
  rw [Run.flush, looked] at flushed
  cases fault? : machine.sink.flushFault? with
  | none =>
      rw [fault?] at flushed
      cases flushed
      rfl
  | some fault =>
      rw [fault?] at flushed
      cases flushed

/-- A program that has succeeded leaves the machine on which the next one starts. -/
theorem executeProgram_append {fuel : Nat} {program : List Stmt} {machine after : Machine}
    (ran : executeProgram fuel program machine = .ok () after) (others : List Stmt) :
    executeProgram fuel (program ++ others) machine = executeProgram fuel others after := by
  induction program generalizing machine with
  | nil =>
      rw [flush_machine ran]
      rfl
  | cons stmt rest induction =>
      change EStateM.bind (execute fuel stmt) (fun _ => executeProgram fuel rest) machine = _ at ran
      show EStateM.bind (execute fuel stmt) (fun _ => executeProgram fuel (rest ++ others)) machine = _
      rw [EStateM.bind] at ran ⊢
      cases stepped : execute fuel stmt machine with
      | ok flow middle =>
          rw [stepped] at ran
          exact induction ran
      | error stop middle =>
          rw [stepped] at ran
          cases ran

/-- An earlier part of an accepted source leaves the distances alone. -/
theorem Session.distances_of_ran {sink : Sink} {clock : Nat → Float} {session : Session}
    (reachable : Reachable sink clock session) {source : String} (accepted : session.Accepts source)
    {program others : List Stmt}
    (whole : (readSource source session.nextId).statements = program ++ others) {fuel : Nat}
    {after : Machine} (ran : executeProgram fuel program (session.ready source) = .ok () after) :
    after.distances = (session.ready source).distances := by
  rcases reachable_begins reachable accepted with ⟨⟨world, ready, sound, stands⟩, holds⟩
  rw [whole] at holds
  rw [← ready] at ran ⊢
  have agrees := Agrees.executeProgram fuel program sound stands (Stmt.allScoped_left holds)
  rcases agrees.of_ran ran with ⟨_, _, rfl, later, _⟩
  exact later.distances

namespace Session

variable {sink : Sink} {clock : Nat → Float} {session between : Session} {fuel lines : Nat}

/-- A run that has succeeded has executed all of its source. -/
theorem executed_of_success {source : String} (accepted : session.Accepts source)
    (ran : session.run fuel source = (.success, between)) :
    executeProgram fuel (readSource source session.nextId).statements (session.ready source) =
        .ok () between.machine ∧
      between.nextId = (readSource source session.nextId).nextId := by
  rw [run_ended fuel accepted] at ran
  cases executed : executeProgram fuel (readSource source session.nextId).statements
      (session.ready source) with
  | ok _ machine =>
      rw [executed] at ran
      cases ran
      exact ⟨rfl, rfl⟩
  | error stop machine =>
      rw [executed] at ran
      cases stop <;> cases ran

/-! ## Running both -/

section

variable (accepted : session.Accepts first)
  (next : between.nextId = (readSource first session.nextId).nextId)
  (accepted' : between.Accepts (below lines second))

include accepted next accepted'

theorem readSource_join : readSource (joined first second) session.nextId =
    ⟨[], (readSource first session.nextId).statements ++
        (readSource (below (depth first) second) between.nextId).statements,
      (readSource (below lines second) between.nextId).nextId⟩ := by
  rcases readSource_below (fun _ => False) second lines (depth first) between.nextId with
    ⟨clean, same, _⟩
  have clean' := clean accepted'.1
  rw [next] at clean' same ⊢
  rw [readSource_joined accepted.1 clean', same]

/-- Both sources are accepted together, with the distances that either has alone. -/
theorem accepts_joined : session.Accepts (joined first second) ∧
    (∀ id < between.nextId,
      (resolve (readSource (joined first second) session.nextId).statements).distances.find? id =
        (resolve (readSource first session.nextId).statements).distances.find? id) ∧
    ∀ id, between.nextId ≤ id → id < (readSource (below lines second) between.nextId).nextId →
      (resolve (readSource (below lines second) between.nextId).statements).distances.find? id =
        (resolve (readSource (joined first second) session.nextId).statements).distances.find?
          id := by
  rcases readSource_below (fun _ => False) second lines (depth first) between.nextId with
    ⟨_, _, vary⟩
  have read := readSource_join accepted next accepted'
  have new : ∀ id id', InStep between.nextId between.nextId
      (readSource (below lines second) between.nextId).nextId id id' →
        id' ∉ Stmt.allOccurrences (readSource first session.nextId).statements := by
    intro id id' related member
    have inside := (parse_numbered (tokensOf first) session.nextId).within id' member
    have fresh := related.first
    rw [next] at fresh
    exact Nat.not_lt_of_le fresh inside.2
  rcases resolve_append moving_exact vary new accepted.2 accepted'.2 with ⟨clean, before, after⟩
  rw [Accepts, read]
  refine ⟨⟨rfl, clean⟩, fun id taken => before id fun member => ?_, fun id fresh taken => ?_⟩
  · have inside := (parse_numbered _ _).within id member
    exact Nat.not_lt_of_le inside.1 taken
  · exact after id id ⟨fresh, taken, rfl⟩

end

/-- What is known when the first source is executed stays known when both are. -/
theorem find?_ready_joined (reachable : Reachable sink clock session)
    (accepted : session.Accepts first) (ran : session.run fuel first = (.success, between))
    (accepted' : between.Accepts (below lines second)) :
    (∀ id < between.nextId, (session.ready first).distances.find? id =
      (session.ready (joined first second)).distances.find? id) ∧
    ∀ id < (readSource (below lines second) between.nextId).nextId,
      (between.ready (below lines second)).distances.find? id =
        (session.ready (joined first second)).distances.find? id := by
  have next := (executed_of_success accepted ran).2
  have later : Reachable sink clock between := by
    have after := reachable.run fuel first
    rwa [ran] at after
  have learnt : between.machine.distances = (session.ready first).distances := by
    have distances := run_distances reachable fuel first
    rw [ran, recordedBy, if_pos accepted] at distances
    exact distances
  rcases accepts_joined accepted next accepted' with ⟨together, before, after⟩
  have firstKnown : ∀ id < between.nextId, (session.ready first).distances.find? id =
      (session.ready (joined first second)).distances.find? id := by
    intro id taken
    rw [find?_ready reachable accepted, find?_ready reachable together, before id taken]
  refine ⟨firstKnown, fun id taken => ?_⟩
  rw [find?_ready later accepted']
  split
  · rename_i before
    rw [learnt]
    exact firstKnown id before
  · rename_i fresh
    have advances := readSource_advances first session.nextId
    rw [← next] at advances
    have fresh' : ¬ id < session.nextId := fun before =>
      fresh (Nat.lt_of_lt_of_le before advances)
    rw [find?_ready reachable together, if_neg fresh']
    exact after id (Nat.le_of_not_lt fresh) taken

/-- Both sources do together what they do one after the other, the second one at any depth. -/
theorem run_joined (reachable : Reachable sink clock session) (accepted : session.Accepts first)
    (ran : session.run fuel first = (.success, between))
    (accepted' : between.Accepts (below lines second)) {earlier : Token → Prop}
    (varies : session.machine.Varies (.ofIds (Taken session.nextId) earlier) session.machine)
    (all : ∀ token ∈ tokensOf first, earlier token) :
    (session.run fuel (joined first second)).2.nextId =
        (between.run fuel (below lines second)).2.nextId ∧
      Ending.Varies
        (.moving (Taken (between.run fuel (below lines second)).2.nextId) earlier second lines
          (depth first))
        (between.run fuel (below lines second)).1 (session.run fuel (joined first second)).1 ∧
      (between.run fuel (below lines second)).2.machine.Varies
        (.moving (Taken (between.run fuel (below lines second)).2.nextId) earlier second lines
          (depth first))
        (session.run fuel (joined first second)).2.machine := by
  rcases executed_of_success accepted ran with ⟨executed, next⟩
  rcases accepts_joined accepted next accepted' with ⟨together, _⟩
  rcases find?_ready_joined reachable accepted ran accepted' with ⟨firstKnown, known⟩
  have advances := readSource_advances first session.nextId
  rw [← next] at advances
  -- The first source does in front of the second what it does alone.
  have ready : (session.ready first).Varies (.ofIds (Taken between.nextId) earlier)
      (session.ready (joined first second)) := by
    refine varies.weaken (Variation.ofIds_tokens fun _ => id) ?_ ?_
    · rintro id id' ⟨same, taken⟩
      exact ⟨same, Nat.lt_of_lt_of_le taken advances⟩
    · rintro id _ ⟨rfl, taken⟩
      exact firstKnown id taken
  have vary : Stmt.AllVary (.ofIds (Taken between.nextId) earlier)
      (readSource first session.nextId).statements (readSource first session.nextId).statements := by
    refine (readSource_inStep all session.nextId session.nextId).2.2.weaken
      (Variation.ofIds_tokens fun _ => id) fun id _ id' related => ?_
    rw [next]
    exact ⟨Nat.add_right_cancel related.2.2, related.2.1⟩
  have ended := executeProgram_varies fuel vary _ _ ready
  rw [executed] at ended
  cases executed' : executeProgram fuel (readSource first session.nextId).statements
      (session.ready (joined first second)) with
  | error _ _ =>
      rw [executed'] at ended
      exact ended.elim
  | ok _ machine =>
      rw [executed'] at ended
      have read := readSource_join accepted next accepted'
      have learnt := distances_of_ran reachable together (congrArg Program.statements read) executed'
      rw [← learnt] at known
      rcases readSource_below earlier second lines (depth first) between.nextId with ⟨_, _, moved⟩
      have both := ended_varies (executes_moved ended.2 moved known fuel)
        (readSource (below lines second) between.nextId).nextId
        (readSource (below lines second) between.nextId).nextId
      rw [← executeProgram_append executed'] at both
      rw [run_nextId, run_nextId, run_ended fuel accepted', run_ended fuel together, read]
      exact ⟨rfl, both⟩

/-- After a source that has succeeded another one does what it does in one source with the first
one in front of it: the same output is written and the same objects are made, and the run ends in
the same way. Only the lines of the second source are others. A fault that is blamed on one of
them, and so moves with the second source wherever it stands, is reported further down; any other
fault is reported on the same line. -/
theorem runs_joined (reachable : Reachable sink clock session)
    (firstClean : staticProblems first 0 = []) (secondClean : staticProblems second 0 = [])
    (succeeds : (session.run fuel first).1 = .success) :
    let between := (session.run fuel first).2
    let apart := between.run fuel second
    let together := session.run fuel (joined first second)
    staticProblems (joined first second) 0 = [] ∧
      together.2.nextId = apart.2.nextId ∧
      apart.2.machine.Varies
        (.moving (Taken apart.2.nextId) (between.Seen sink clock) second 0 (depth first))
        together.2.machine ∧
      ∃ own : Bool,
        (∀ lines, (between.run fuel (below lines second)).1 =
          apart.1.moved (if own then lines else 0)) ∧
        together.1 = apart.1.moved (if own then depth first else 0) ∧
        ∀ fault line, apart.1 = .failed (.runtime fault line) → ∃ token, token.line = line ∧
          if own then token ∈ tokensOf second else between.Seen sink clock token := by
  intro between apart together
  have ran : session.run fuel first = (.success, between) := Prod.ext succeeds rfl
  have later : Reachable sink clock between := reachable.run fuel first
  have accepted : session.Accepts first := by
    rw [accepts_iff, staticProblems_eq first 0]
    exact firstClean
  have accepted' : between.Accepts (below 0 second) := by
    rw [below_zero, accepts_iff, staticProblems_eq second 0]
    exact secondClean
  have whole : session.Accepts (joined first second) :=
    (accepts_joined accepted (executed_of_success accepted ran).2 accepted').1
  rcases reachable.varies with ⟨_, varies⟩
  rcases varies.step reachable fuel first with ⟨bound, before, all, after⟩
  rcases run_joined reachable accepted ran accepted' (before.allow fun _ => And.left).machine
    (fun token member => (all token member).1) with ⟨next, _, machine⟩
  rw [below_zero] at next machine
  refine ⟨?_, next, machine, ?_⟩
  · rw [← staticProblems_eq (joined first second) 0 session.nextId]
    exact (accepts_iff session _).mp whole
  -- Below the bound the second source has its lines for itself.
  · have pivot := accepts_below accepted' bound
    have seenAbove : ∀ token, between.SeenAbove sink clock bound token → token.line < bound :=
      fun _ => And.right
    rcases Ending.moves seenAbove (between.run fuel (below bound second)).1 with ⟨base, own, moves⟩
    have alone (lines : Nat) := moves lines _ (run_below later pivot after.machine lines fuel)
    have both := moves (depth first) _ (run_joined reachable accepted ran pivot before.machine all).2.1
    have unmoved : apart.1 = base := by
      have same := (alone 0).1
      rw [below_zero, ite_self, Ending.moved_zero] at same
      exact same
    rw [unmoved]
    refine ⟨own, fun lines => (alone lines).1, both.1, fun fault line failed => ?_⟩
    rcases both.2 fault line failed with ⟨token, same, blamed⟩
    refine ⟨token, same, ?_⟩
    cases own with
    | true => exact blamed
    | false => exact blamed.1

/-- The sign of the second source is on the second line of both. -/
theorem runs_joined_fault :
    Reachable .unlimited (fun _ => 0) (start .unlimited fun _ => 0) ∧
      staticProblems "var a;" 0 = [] ∧ staticProblems "-a;" 0 = [] ∧
      ((start .unlimited fun _ => 0).run 9 "var a;").1 = .success ∧
      (((start .unlimited fun _ => 0).run 9 "var a;").2.run 9 "-a;").1 =
        .failed (.runtime .operandNotNumber 1) ∧
      ((start .unlimited fun _ => 0).run 9 (joined "var a;" "-a;")).1 =
        .failed (.runtime .operandNotNumber 2) := by
  have reachable : Reachable .unlimited (fun _ => 0) (start .unlimited fun _ => 0) := .start
  have firstClean : staticProblems "var a;" 0 = [] := by decide +kernel
  have secondClean : staticProblems "-a;" 0 = [] := by decide +kernel
  have succeeds : ((start .unlimited fun _ => 0).run 9 "var a;").1 = .success := by decide +kernel
  have fails : (((start .unlimited fun _ => 0).run 9 "var a;").2.run 9 "-a;").1 =
      .failed (.runtime .operandNotNumber 1) := by decide +kernel
  have failsBelow : (((start .unlimited fun _ => 0).run 9 "var a;").2.run 9 (below 1 "-a;")).1 =
      .failed (.runtime .operandNotNumber 2) := by decide +kernel
  rcases runs_joined reachable firstClean secondClean succeeds with
    ⟨_, _, _, own, alone, together, _⟩
  refine ⟨reachable, firstClean, secondClean, succeeds, fails, ?_⟩
  rw [fails] at together
  cases own with
  | true => exact together
  | false =>
      have same := alone 1
      rw [failsBelow, fails] at same
      cases same

end Session

end

end Lox
