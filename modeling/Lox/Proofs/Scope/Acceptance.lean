import Lox.Proofs.Grammar.StatementSoundness
import Lox.Proofs.Scope.Resolution
import Lox.Proofs.Variation.Program
/-! Sources that are accepted, and what a session knows of the occurrences that it has
numbered. What was known of earlier sources stays known: a source takes new numbers, and
its distances are recorded under these only. -/

namespace Lox

open Grammar

/-! ## Reading a source -/

/-- What a source without a problem consists of. -/
theorem readSource_declarations {source : String} {firstId : OccurrenceId}
    (clean : (readSource source firstId).problems = []) :
    Declarations false (sentence (tokensOf source)) firstId
      (readSource source firstId).statements (readSource source firstId).nextId := by
  have grammatical : (parse (tokensOf source) firstId).diagnostics = [] :=
    (List.append_eq_nil_iff.mp clean).2
  have errors : (readProgram (sentence (tokensOf source)) (.start firstId)).2.errors = [] :=
    List.map_eq_nil_iff.mp grammatical
  exact (readProgram_finds (sentence (tokensOf source)) (.start firstId) errors).2

theorem sentence_spelled (source : String) : AllSpelled (sentence (tokensOf source)) :=
  fun token member => tokensOf_spelled source token ((List.takeWhile_sublist _).subset member)

/-! ## What is known of occurrences -/

/-- What is recorded for the occurrences with smaller numbers. -/
def Known (distances : Distances) (nextId : OccurrenceId) (id : OccurrenceId)
    (distance? : Option Nat) : Prop :=
  id < nextId ∧ distances.find? id = distance?

/-- Nothing is recorded for occurrences that are yet to come. -/
def Unused (distances : Distances) (nextId : OccurrenceId) : Prop :=
  ∀ id, nextId ≤ id → distances.find? id = none

theorem Known.later {distances : Distances} {first next id : OccurrenceId}
    {distance? : Option Nat} (known : Known distances first id distance?) (later : first ≤ next) :
    Known distances next id distance? :=
  ⟨Nat.lt_of_lt_of_le known.1 later, known.2⟩

theorem Unused.later {distances : Distances} {first next : OccurrenceId}
    (unused : Unused distances first) (later : first ≤ next) : Unused distances next :=
  fun id beyond => unused id (Nat.le_trans later beyond)

/-- A program that is accepted, with what the session knows when it has been resolved. -/
structure Learnt (distances : Distances) (firstId : OccurrenceId) (program : Program) : Prop where
  kept : ∀ id distance?, Known distances firstId id distance? →
    Known (distances.setAll (resolve program.statements).distances) program.nextId id distance?
  unused : Unused (distances.setAll (resolve program.statements).distances) program.nextId
  holds : Stmt.AllScoped
    (Known (distances.setAll (resolve program.statements).distances) program.nextId) []
    program.statements

theorem learnt {distances : Distances} {firstId : OccurrenceId} (source : String)
    (unused : Unused distances firstId) (clean : (readSource source firstId).problems = [])
    (resolved : (resolve (readSource source firstId).statements).problems = []) :
    Learnt distances firstId (readSource source firstId) := by
  have declared := readSource_declarations clean
  generalize readSource source firstId = program at resolved declared
  have numbered := declared.numbered
  have found := Table.find?_setAll (resolve_distances_unique program.statements) distances
  have fresh : ∀ id, id < firstId ∨ program.nextId ≤ id →
      (resolve program.statements).distances.find? id = none := by
    intro id outside
    refine resolve_distances_others fun member => ?_
    have inside := numbered.within id member
    rcases outside with before | beyond
    · exact Nat.not_le_of_lt before inside.1
    · exact Nat.not_lt_of_le beyond inside.2
  refine ⟨?_, ?_, ?_⟩
  · rintro id distance? ⟨before, known⟩
    refine ⟨Nat.lt_of_lt_of_le before numbered.ordered, ?_⟩
    rw [found, fresh id (.inl before), Option.none_or, known]
  · intro id beyond
    rw [found, fresh id (.inr beyond), Option.none_or]
    exact unused id (Nat.le_trans numbered.ordered beyond)
  · refine Stmt.allScoped_mono ?_ _ (resolve_scoped resolved
      (declared.proper (sentence_spelled source)) numbered.nodup)
    rintro id distance? ⟨member, recorded⟩
    have inside := numbered.within id member
    refine ⟨inside.2, ?_⟩
    rw [found, unused id inside.1, Option.or_none]
    exact recorded

/-! ## Running a source -/

namespace Session

variable {session : Session} {source : String}

/-- A source is accepted if there is nothing wrong with it before it runs. -/
def Accepts (session : Session) (source : String) : Prop :=
  (readSource source session.nextId).problems = [] ∧
    (resolve (readSource source session.nextId).statements).problems = []

/-- The machine on which an accepted source runs. -/
def ready (session : Session) (source : String) : Machine :=
  session.machine.learn (resolve (readSource source session.nextId).statements).distances

theorem run_rejected (fuel : Nat) (refused : ¬ session.Accepts source) :
    ∃ problems, session.run fuel source =
      (.rejected problems, { session with nextId := (readSource source session.nextId).nextId }) := by
  rw [run]
  dsimp only
  by_cases clean : (readSource source session.nextId).problems = []
  · have resolved : (resolve (readSource source session.nextId).statements).problems ≠ [] :=
      fun resolved => refused ⟨clean, resolved⟩
    simp only [List.isEmpty_iff, clean, if_true, resolved, if_false]
    exact ⟨_, rfl⟩
  · simp only [List.isEmpty_iff, clean, if_false]
    exact ⟨_, rfl⟩

theorem run_accepted (fuel : Nat) (accepted : session.Accepts source) :
    session.run fuel source =
      match executeProgram fuel (readSource source session.nextId).statements
          (session.ready source) with
      | .ok _ machine => (.success, ⟨machine, (readSource source session.nextId).nextId⟩)
      | .error stop machine =>
          (.ofStop stop, ⟨machine, (readSource source session.nextId).nextId⟩) := by
  rw [run]
  dsimp only
  rw [accepted.1, accepted.2]
  rfl

end Session

end Lox
