import Lox.Proofs.Session.Varying
/-! Rejected sources. What is wrong with a source is wrong with it in every session; and a
source that is rejected leaves no trace, although it has taken numbers. -/

namespace Lox

namespace Session

/-! ## Verdicts -/

/-- A run that has started does not end with a verdict. -/
theorem run_started {session : Session} {source : String} (accepted : session.Accepts source)
    (fuel : Nat) (problems : List Diagnostic) :
    (session.run fuel source).1 ≠ .rejected problems := by
  rw [run_accepted fuel accepted]
  cases executeProgram fuel (readSource source session.nextId).statements
      (session.ready source) with
  | ok _ _ => nofun
  | error stop _ => cases stop <;> nofun

/-- Whether a source is rejected, and why, depends on the source alone. -/
theorem run_rejected_iff (session : Session) (fuel : Nat) (source : String)
    (problems : List Diagnostic) :
    (session.run fuel source).1 = .rejected problems ↔
      problems ≠ [] ∧ staticProblems source 0 = problems := by
  rw [← staticProblems_eq source 0 session.nextId]
  by_cases clean : staticProblems source session.nextId = []
  · refine iff_of_false (run_started ((accepts_iff session source).mpr clean) fuel problems) ?_
    rintro ⟨some, same⟩
    exact some (same.symm.trans clean)
  · rw [run_refused fuel clean]
    constructor
    · rintro ⟨⟩
      exact ⟨clean, rfl⟩
    · rintro ⟨_, rfl⟩
      rfl

/-! ## Records -/

/-- What the run of a source shows: how it ends, and the bytes that it writes. -/
def record (fuel : Nat) (session : Session) (source : String) : Ending × ByteArray :=
  let (ending, after) := session.run fuel source
  (ending, after.machine.sink.written.extract session.machine.sink.written.size
    after.machine.sink.written.size)

/-- What the runs of the sources show, one after another. -/
def records (fuel : Nat) (session : Session) : List String → List (Ending × ByteArray)
  | [] => []
  | source :: rest =>
      session.record fuel source :: (session.run fuel source).2.records fuel rest

variable {sink : Sink} {clock : Nat → Float} {session other : Session}

/-- Sessions that differ in their numbers show the same. -/
theorem Varies.records {ids : OccurrenceId → OccurrenceId → Prop}
    (varies : Varies ids (fun _ => True) session other) (reachable : Reachable sink clock session)
    (reachable' : Reachable sink clock other) (fuel : Nat) (sources : List String) :
    other.records fuel sources = session.records fuel sources := by
  induction sources generalizing session other ids with
  | nil => rfl
  | cons source rest induction =>
      rcases varies.run (fun _ _ => Iff.rfl) reachable reachable' (fun _ _ => trivial) fuel with
        ⟨ending, after⟩
      have others := induction after (reachable.run fuel source) (reachable'.run fuel source)
      have first : other.record fuel source = session.record fuel source := by
        rw [record, record, Prod.mk.injEq]
        refine ⟨ending, ?_⟩
        rw [after.machine.sink, varies.machine.sink]
      rw [Session.records, Session.records, first, others]

/-- The numbers that a refused source has taken do not matter. -/
theorem Reachable.refused (reachable : Reachable sink clock session) {fuel : Nat} {source : String}
    (refused : staticProblems source session.nextId ≠ []) :
    Varies (Taken session.nextId) (fun _ => True) (session.run fuel source).2 session := by
  rw [run_refused fuel refused]
  rcases reachable.varies with ⟨_, varies⟩
  have same := varies.allow fun _ _ => trivial
  refine ⟨same.machine, same.exact, fun id id' related => ?_⟩
  have taken := same.taken id id' related
  exact ⟨Nat.lt_of_lt_of_le taken.1 (readSource_advances source session.nextId), taken.2⟩

theorem record_refused (fuel : Nat) {source : String}
    (refused : staticProblems source session.nextId ≠ []) :
    session.record fuel source =
      (.rejected (staticProblems source session.nextId), ByteArray.empty) := by
  rw [record, run_refused fuel refused, Prod.mk.injEq]
  exact ⟨rfl, by simp⟩

/-! ## Rejected sources leave no trace -/

/-- Whether a source is rejected, and with which diagnostics, depends on the source alone, and
all other runs of a session show the same when a rejected source is left out. -/
theorem rejection_invisible :
    (∀ (session : Session) fuel source problems, (session.run fuel source).1 = .rejected problems ↔
      problems ≠ [] ∧ staticProblems source 0 = problems) ∧
    ∀ sink clock (session : Session), Reachable sink clock session →
      ∀ fuel sources index problems written,
        (session.records fuel sources)[index]? = some (.rejected problems, written) →
          written = ByteArray.empty ∧
          session.records fuel (sources.eraseIdx index) =
            (session.records fuel sources).eraseIdx index := by
  refine ⟨run_rejected_iff, ?_⟩
  intro sink clock session reachable fuel sources
  induction sources generalizing session with
  | nil => nofun
  | cons source rest induction =>
      intro index problems written found
      cases index with
      | zero =>
          have shown : session.record fuel source = (.rejected problems, written) :=
            Option.some.inj found
          have refused : staticProblems source session.nextId ≠ [] := fun clean =>
            run_started ((accepts_iff session source).mpr clean) fuel problems
              (congrArg Prod.fst shown)
          rw [record_refused fuel refused] at shown
          refine ⟨(congrArg Prod.snd shown).symm, ?_⟩
          exact (reachable.refused refused).records (reachable.run fuel source) reachable fuel rest
      | succ index =>
          rcases induction _ (reachable.run fuel source) index problems written found with
            ⟨nothing, others⟩
          exact ⟨nothing, congrArg (session.record fuel source :: ·) others⟩

/-- A source between two others cannot be read. -/
theorem rejection_invisible_between :
    Reachable .unlimited (fun _ => 0) (start .unlimited fun _ => 0) ∧
      ∃ problems written,
        ((start .unlimited fun _ => 0).records 9 ["var a;", "a + ;", "print a;"])[1]? =
          some (.rejected problems, written) ∧
        (start .unlimited fun _ => 0).records 9 ["var a;", "print a;"] =
          ((start .unlimited fun _ => 0).records 9 ["var a;", "a + ;", "print a;"]).eraseIdx 1 := by
  have reachable : Reachable .unlimited (fun _ => 0) (start .unlimited fun _ => 0) := .start
  let after := ((start .unlimited fun _ => 0).run 9 "var a;").2
  have faulty : staticProblems "a + ;" 0 ≠ [] := by decide +kernel
  have refused : staticProblems "a + ;" after.nextId ≠ [] := by
    rw [staticProblems_eq "a + ;" 0 after.nextId]
    exact faulty
  have found : ((start .unlimited fun _ => 0).records 9 ["var a;", "a + ;", "print a;"])[1]? =
      some (.rejected (staticProblems "a + ;" after.nextId), ByteArray.empty) :=
    congrArg some (record_refused 9 refused)
  exact ⟨reachable, _, _, found,
    (rejection_invisible.2 _ _ _ reachable 9 ["var a;", "a + ;", "print a;"] 1 _ _ found).2⟩

end Session

end Lox
