import Lox.Proofs.Lexical.Presence
/-! Occurrence numbers never clash. No number is used twice, within a source or in two
sources of a session; so no recorded distance is overwritten, and what was made by earlier
sources goes on with the distances that were recorded for it. -/

namespace Lox

open Grammar Lexical World

/-! ## What code that keeps the rules knows -/

section

variable {recorded : OccurrenceId → Option Nat → Prop}

mutual
/-- Each occurrence is recorded, with a distance or without. -/
theorem Expr.recorded_of_scoped {scopes : List Scope} : ∀ expr : Expr,
    expr.Scoped recorded scopes → ∀ id ∈ expr.occurrences, ∃ distance?, recorded id distance?
  | .literal _, _ => nofun
  | .group inner, holds => Expr.recorded_of_scoped inner holds
  | .unary _ right, holds => Expr.recorded_of_scoped right holds
  | .binary left _ right, holds | .logical left _ right, holds =>
      List.forall_mem_append.mpr
        ⟨Expr.recorded_of_scoped left holds.1, Expr.recorded_of_scoped right holds.2⟩
  | .read _ _, holds => List.forall_mem_singleton.mpr ⟨_, holds.1⟩
  | .assign _ _ value, holds =>
      List.forall_mem_cons.mpr ⟨⟨_, holds.2.2⟩, Expr.recorded_of_scoped value holds.2.1⟩
  | .call callee _ arguments, holds =>
      List.forall_mem_append.mpr
        ⟨Expr.recorded_of_scoped callee holds.1, Expr.recorded_of_allScoped arguments holds.2⟩
  | .get object _, holds => Expr.recorded_of_scoped object holds
  | .set object _ value, holds =>
      List.forall_mem_append.mpr
        ⟨Expr.recorded_of_scoped object holds.1, Expr.recorded_of_scoped value holds.2⟩
  | .this _ _, ⟨_, _, _, known⟩ => List.forall_mem_singleton.mpr ⟨_, known⟩
  | .super _ _ _, ⟨_, _, _, known⟩ => List.forall_mem_singleton.mpr ⟨_, known⟩

theorem Expr.recorded_of_allScoped {scopes : List Scope} : ∀ exprs : List Expr,
    Expr.AllScoped recorded scopes exprs →
      ∀ id ∈ Expr.allOccurrences exprs, ∃ distance?, recorded id distance?
  | [], _ => nofun
  | expr :: rest, holds =>
      List.forall_mem_append.mpr
        ⟨Expr.recorded_of_scoped expr holds.1, Expr.recorded_of_allScoped rest holds.2⟩
end

theorem Expr.recorded_of_scoped? {scopes : List Scope} : ∀ expr? : Option Expr,
    Expr.Scoped? recorded scopes expr? →
      ∀ id ∈ Expr.occurrences? expr?, ∃ distance?, recorded id distance?
  | none, _ => nofun
  | some expr, holds => Expr.recorded_of_scoped expr holds

mutual
theorem Stmt.recorded_of_scoped {scopes : List Scope} : ∀ stmt : Stmt,
    stmt.Scoped recorded scopes → ∀ id ∈ stmt.occurrences, ∃ distance?, recorded id distance?
  | .expression expr, holds | .print expr, holds => Expr.recorded_of_scoped expr holds
  | .var _ initial, holds => Expr.recorded_of_scoped? initial holds.2
  | .block body, holds => Stmt.recorded_of_allScoped body holds
  | .conditional condition thenBranch none, holds =>
      List.forall_mem_append.mpr
        ⟨Expr.recorded_of_scoped condition holds.1, Stmt.recorded_of_scoped thenBranch holds.2.1⟩
  | .conditional condition thenBranch (some elseBranch), holds =>
      List.forall_mem_append.mpr
        ⟨Expr.recorded_of_scoped condition holds.1, List.forall_mem_append.mpr
          ⟨Stmt.recorded_of_scoped thenBranch holds.2.1.1,
            Stmt.recorded_of_scoped elseBranch holds.2.2.1⟩⟩
  | .loop condition body, holds =>
      List.forall_mem_append.mpr
        ⟨Expr.recorded_of_scoped condition holds.1, Stmt.recorded_of_scoped body holds.2.1⟩
  | .function routine, holds => Routine.recorded_of_scoped routine holds.2
  | .returns _ value, holds => Expr.recorded_of_scoped? value holds
  | .classDecl _ superclass methods, holds =>
      List.forall_mem_append.mpr
        ⟨Expr.recorded_of_scoped? superclass holds.2.1,
          Routine.recorded_of_allScoped methods holds.2.2⟩

theorem Stmt.recorded_of_allScoped {scopes : List Scope} : ∀ stmts : List Stmt,
    Stmt.AllScoped recorded scopes stmts →
      ∀ id ∈ Stmt.allOccurrences stmts, ∃ distance?, recorded id distance?
  | [], _ => nofun
  | stmt :: rest, holds =>
      List.forall_mem_append.mpr
        ⟨Stmt.recorded_of_scoped stmt holds.1, Stmt.recorded_of_allScoped rest holds.2⟩

theorem Routine.recorded_of_scoped {scopes : List Scope} : ∀ routine : Routine,
    routine.Scoped recorded scopes →
      ∀ id ∈ routine.occurrences, ∃ distance?, recorded id distance?
  | .mk _ _ body, holds => Stmt.recorded_of_allScoped body holds.2.2.2

theorem Routine.recorded_of_allScoped {scopes : List Scope} : ∀ methods : List Routine,
    Routine.AllScoped recorded scopes methods →
      ∀ id ∈ Routine.allOccurrences methods, ∃ distance?, recorded id distance?
  | [], _ => nofun
  | method :: rest, holds =>
      List.forall_mem_append.mpr
        ⟨Routine.recorded_of_scoped method holds.1, Routine.recorded_of_allScoped rest holds.2⟩
end

end

/-! ## What a machine holds -/

/-- The closure is a function that has been made, or a method of a class. -/
inductive Machine.Holds (machine : Machine) (closure : Closure FrameId) : Prop
  | function {id : FunctionId} : machine.functions[id]? = some closure → Holds machine closure
  | method {id : ClassId} {info : ClassInfo FrameId} {name : String} :
      machine.classes[id]? = some info → info.methods.find? name = some closure →
      Holds machine closure

/-- Each occurrence in a closure is recorded. -/
theorem Lexical.World.HeapsAlike.recorded {recorded : OccurrenceId → Option Nat → Prop} {world : World}
    (alike : HeapsAlike recorded world) {closure : Closure FrameId}
    (held : world.framed.Holds closure) :
    ∀ id ∈ closure.routine.occurrences, ∃ distance?, recorded id distance? := by
  cases held with
  | @function id found =>
      have entry := alike.functions.entries id
      rw [found] at entry
      generalize world.chained.functions[id]? = other at entry
      cases entry with
      | some same =>
          rcases same.place with ⟨_, _, holds, _⟩
          exact Routine.recorded_of_scoped _ holds
  | @method id info name found known =>
      have entry := alike.classes.entries id
      rw [found] at entry
      generalize world.chained.classes[id]? = other at entry
      cases entry with
      | @some _ other same =>
          have method := same.methods name
          rw [known] at method
          generalize other.methods.find? name = otherMethod at method
          cases method with
          | some same =>
              rcases same.place with ⟨_, _, holds⟩
              exact Routine.recorded_of_scoped _ holds

namespace Session

/-! ## Running on -/

/-- What a session can become by running further sources. -/
inductive Later (session : Session) : Session → Prop
  | here : Later session session
  | run {after} : Later session after → ∀ fuel source, Later session (after.run fuel source).2

variable {sink : Sink} {clock : Nat → Float} {session : Session}

theorem Reachable.later (reachable : Reachable sink clock session) {after : Session}
    (later : session.Later after) : Reachable sink clock after := by
  induction later with
  | here => exact reachable
  | run _ fuel source induction => exact induction.run fuel source

/-! ## What a run records -/

instance (session : Session) (source : String) : Decidable (session.Accepts source) :=
  inferInstanceAs (Decidable (_ ∧ _))

/-- The distances that running a source records. -/
def recordedBy (session : Session) (source : String) : Distances :=
  if session.Accepts source then
    (resolve (readSource source session.nextId).statements).distances
  else
    ∅

theorem run_nextId (fuel : Nat) (session : Session) (source : String) :
    (session.run fuel source).2.nextId = (readSource source session.nextId).nextId := by
  by_cases accepted : session.Accepts source
  · rw [run_accepted fuel accepted]
    split <;> rfl
  · rcases run_rejected fuel accepted with ⟨problems, ended⟩
    rw [ended]

/-- However a run ends, it has recorded the distances of its source and no others. -/
theorem run_distances (reachable : Reachable sink clock session) (fuel : Nat) (source : String) :
    (session.run fuel source).2.machine.distances =
      session.machine.distances.setAll (session.recordedBy source) := by
  rw [recordedBy]
  by_cases accepted : session.Accepts source
  · rcases reachable_begins reachable accepted with ⟨⟨world, begins, sound, stands⟩, holds⟩
    have agrees := Agrees.executeProgram fuel _ sound stands holds
    have learns : session.machine.distances.setAll
        (resolve (readSource source session.nextId).statements).distances =
          world.framed.distances := by
      rw [begins]
      rfl
    rw [if_pos accepted, run_accepted fuel accepted, learns, ← begins]
    cases ended : executeProgram fuel (readSource source session.nextId).statements
        world.framed with
    | ok _ _ =>
        rcases agrees.of_ran ended with ⟨_, _, rfl, later, _⟩
        exact later.distances
    | error _ _ =>
        rcases agrees.of_stopped ended with ⟨_, rfl, later, _⟩
        exact later.distances
  · rcases run_rejected fuel accepted with ⟨problems, ended⟩
    rw [if_neg accepted, ended]
    rfl

theorem recordedBy_unique (session : Session) (source : String) :
    (session.recordedBy source).keys.Nodup := by
  rw [recordedBy]
  split
  · exact resolve_distances_unique _
  · exact List.nodup_nil

/-- A source records distances for its own numbers only. -/
theorem recordedBy_others (session : Session) (source : String) {id : OccurrenceId}
    (outside : id < session.nextId ∨ (readSource source session.nextId).nextId ≤ id) :
    (session.recordedBy source).find? id = none := by
  rw [recordedBy]
  split
  · refine resolve_distances_others fun member => ?_
    have inside := (parse_numbered (tokensOf source) session.nextId).within id member
    rcases outside with before | beyond
    · exact Nat.not_le_of_lt before inside.1
    · exact Nat.not_lt_of_le beyond inside.2
  · rfl

theorem Reachable.unused (reachable : Reachable sink clock session) :
    Unused session.machine.distances session.nextId := by
  rcases reachable_alike reachable with ⟨_, alike⟩
  exact alike.unused

/-- Nothing is recorded yet where the next source records something. -/
theorem recordedBy_fresh (reachable : Reachable sink clock session) (source : String) :
    ∀ id ∈ (session.recordedBy source).keys, session.machine.distances.find? id = none := by
  intro id member
  refine reachable.unused id (Nat.le_of_not_lt fun before => ?_)
  have absent := recordedBy_others session source (.inl before)
  rw [← Table.find?_isSome_iff_mem_keys, absent] at member
  cases member

/-- The distances of a number that has been taken stay as they are. -/
theorem Later.distances (reachable : Reachable sink clock session) {after : Session}
    (later : session.Later after) {id : OccurrenceId} (taken : id < session.nextId) :
    id < after.nextId ∧
      after.machine.distances.find? id = session.machine.distances.find? id := by
  induction later with
  | here => exact ⟨taken, rfl⟩
  | @run after later fuel source induction =>
      have advances := readSource_advances source after.nextId
      rw [run_nextId, run_distances (reachable.later later),
        Table.find?_setAll (recordedBy_unique after source),
        recordedBy_others after source (.inl induction.1), Option.none_or]
      exact ⟨Nat.lt_of_lt_of_le induction.1 advances, induction.2⟩

/-- A number of a source has for ever the distance that running the source has recorded. -/
theorem Later.recorded (reachable : Reachable sink clock session) {fuel : Nat} {source : String}
    {id : OccurrenceId} (first : session.nextId ≤ id)
    (next : id < (session.run fuel source).2.nextId) {after : Session}
    (later : (session.run fuel source).2.Later after) :
    after.machine.distances.find? id = (session.recordedBy source).find? id := by
  rw [(later.distances (reachable.run fuel source) next).2, run_distances reachable,
    Table.find?_setAll (recordedBy_unique session source), reachable.unused id first,
    Option.or_none]

/-- Each number that has been taken was taken by the run of one of the sources. -/
theorem Reachable.taken (reachable : Reachable sink clock session) {id : OccurrenceId}
    (taken : id < session.nextId) :
    ∃ earlier fuel source, Reachable sink clock earlier ∧ earlier.nextId ≤ id ∧
      id < (earlier.run fuel source).2.nextId ∧ (earlier.run fuel source).2.Later session := by
  induction reachable with
  | start => cases taken
  | @run session reachable fuel source induction =>
      rcases Nat.lt_or_ge id session.nextId with before | fresh
      · rcases induction before with ⟨earlier, fuel', source', known, first, next, later⟩
        exact ⟨earlier, fuel', source', known, first, next, later.run fuel source⟩
      · exact ⟨session, fuel, source, reachable, fresh, taken, .here⟩

/-! ## Numbers never clash -/

/-- Whatever the tokens are, the occurrences that are read have different numbers, from the
first one on, and without a fault no number is left out. So the run of a source only adds to
the distances of a session, and whatever a session has made goes on, through all later runs,
with the distances that were recorded by the runs that numbered its occurrences. -/
theorem numbers_never_clash :
    (∀ tokens firstId,
      Numbered firstId (parse tokens firstId).nextId
          (Stmt.allOccurrences (parse tokens firstId).statements) ∧
        ((parse tokens firstId).diagnostics = [] →
          Filled firstId (parse tokens firstId).nextId
            (Stmt.allOccurrences (parse tokens firstId).statements))) ∧
    ∀ sink clock session, Reachable sink clock session →
      (∀ fuel source,
        (session.run fuel source).2.machine.distances.entries =
          session.machine.distances.entries ++ (session.recordedBy source).entries) ∧
      session.machine.distances.keys.Nodup ∧
      ∀ closure, session.machine.Holds closure → ∀ id ∈ closure.routine.occurrences,
        ∃ earlier fuel source, Reachable sink clock earlier ∧ earlier.nextId ≤ id ∧
          id < (earlier.run fuel source).2.nextId ∧ (earlier.run fuel source).2.Later session ∧
          ∀ after, session.Later after →
            after.machine.distances.find? id = (earlier.recordedBy source).find? id := by
  refine ⟨fun tokens firstId => ⟨parse_numbered tokens firstId, parse_filled⟩, ?_⟩
  intro sink clock session reachable
  refine ⟨fun fuel source => ?_, ?_, ?_⟩
  · rw [run_distances reachable]
    exact Table.entries_setAll (recordedBy_unique session source)
      (recordedBy_fresh reachable source)
  · induction reachable with
    | start => exact List.nodup_nil
    | run reachable fuel source induction =>
        rw [run_distances reachable]
        exact Table.keys_setAll_nodup induction _
  · intro closure held id member
    rcases reachable_alike reachable with ⟨_, alike⟩
    rcases alike.machines with ⟨_, sound⟩
    rcases sound.heaps.recorded held id member with ⟨_, taken, _⟩
    rcases reachable.taken taken with ⟨earlier, fuel, source, known, first, next, later⟩
    refine ⟨earlier, fuel, source, known, first, next, later, fun after further => ?_⟩
    rw [(further.distances reachable taken).2]
    exact later.recorded known first next

/-- A function goes on with the distance of its parameter. -/
theorem numbers_never_clash_function :
    ∃ session closure, Reachable .unlimited (fun _ => 0) session ∧
      session.machine.Holds closure ∧ 0 ∈ closure.routine.occurrences ∧
      (parse (tokensOf "fun f(a) { return a; }") 0).diagnostics = [] ∧
      Filled 0 1 (Stmt.allOccurrences (parse (tokensOf "fun f(a) { return a; }") 0).statements) ∧
      ∃ earlier fuel source, Reachable .unlimited (fun _ => 0) earlier ∧ earlier.nextId ≤ 0 ∧
        (earlier.run fuel source).2.Later session ∧
        session.machine.distances.find? 0 = (earlier.recordedBy source).find? 0 := by
  have clean : (parse (tokensOf "fun f(a) { return a; }") 0).diagnostics = [] := by decide +kernel
  have filled := (numbers_never_clash.1 _ _).2 clean
  have next : (parse (tokensOf "fun f(a) { return a; }") 0).nextId = 1 := by decide +kernel
  rw [next] at filled
  let routine : Routine := .mk ⟨.identifier, "f", 1⟩ [⟨.identifier, "a", 1⟩]
    [.returns ⟨.keyword .returnWord, "return", 1⟩ (some (.read 0 ⟨.identifier, "a", 1⟩))]
  have statements : (readSource "fun f(a) { return a; }" 0).statements = [.function routine] := by
    with_unfolding_all rfl
  have accepted : (start .unlimited fun _ => 0).Accepts "fun f(a) { return a; }" := by
    refine ⟨by decide +kernel, ?_⟩
    show (resolve (readSource "fun f(a) { return a; }" 0).statements).problems = []
    rw [statements]
    decide
  let session := ((start .unlimited fun _ => 0).run 9 "fun f(a) { return a; }").2
  have reachable : Reachable .unlimited (fun _ => 0) session := .run .start _ _
  have found : session.machine.functions[0]? = some ⟨routine, 0, false⟩ := by
    have first : (start .unlimited fun _ => 0).nextId = 0 := rfl
    show ((start _ _).run 9 _).2.machine.functions[0]? = _
    rw [run_accepted 9 accepted, first, statements]
    rfl
  have held : session.machine.Holds ⟨routine, 0, false⟩ := .function found
  rcases (numbers_never_clash.2 _ _ _ reachable).2.2 _ held 0 (List.mem_singleton.mpr rfl) with
    ⟨earlier, fuel, source, known, first, _, later, distances⟩
  exact ⟨session, _, reachable, held, List.mem_singleton.mpr rfl, clean, filled, earlier, fuel,
    source, known, first, later, distances session .here⟩

end Session

end Lox
