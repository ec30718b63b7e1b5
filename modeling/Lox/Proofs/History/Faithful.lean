import Lox.Proofs.History.Correspondence
/-! A recorded run is the run. Without what it has written down it ends in the same way, with
the same value and the same machine. -/

namespace Lox.History

/-- Without its memory a recorded run ends like the run. -/
def Records {α : Type} (recorded : Recorded α) (run : Run α) : Prop :=
  ∀ chronicle, endIn Chronicle.toMachine (recorded chronicle) = run chronicle.toMachine

theorem Records.bind {α β : Type} {first : Recorded α} {first' : Run α} {next : α → Recorded β}
    {next' : α → Run β} (starts : Records first first')
    (goes : ∀ value, Records (next value) (next' value)) :
    Records (first >>= next) (first' >>= next') := by
  intro chronicle
  have start := starts chronicle
  rw [bind_apply, bind_apply, ← start]
  cases first chronicle with
  | ok value after => exact goes value after
  | error stop after => rfl

theorem records_step {α : Type} (around : Option Activation) (event : Event)
    (owner : Machine → Option Activation) (run : Run α) :
    Records (step around event owner run) run := by
  intro chronicle
  rw [step_apply]
  cases run chronicle.toMachine <;> rfl

theorem Records.inside {α : Type} {body : Recorded α} {body' : Run α} (frame : FrameId)
    (records : Records body body') : Records (inside frame body) (Run.inside frame body') := by
  intro chronicle
  have ended := records { chronicle with current := frame }
  rw [inside_apply, run_inside_apply, ← ended]
  cases body { chronicle with current := frame } <;> rfl

theorem composes_records : Composes Records where
  value _ _ := rfl
  stop _ _ := rfl
  bind starts goes := starts.bind goes
  look _ goes chronicle := goes chronicle chronicle
  note _ _ _ := rfl
  step around _ _ _ := records_step around _ _ _
  prints around _ := records_step around _ _ _
  inside frame records := records.inside frame

theorem compatible_records : Compatible Records :=
  composes_records.compatible fun around info =>
    records_step around .passes (fun _ => around) (Run.newClass info)

theorem records_executeProgram (fuel : Nat) (stmts : List Stmt) :
    Records (executeProgram fuel stmts) (Lox.executeProgram fuel stmts) := by
  induction stmts with
  | nil => exact records_step none .passes (fun _ => none) Run.flush
  | cons stmt rest induction =>
      exact ((compatible_records.corresponds fuel).execute none stmt).bind fun _ => induction

namespace Session

theorem ended_snd (nextId : OccurrenceId) (result : EStateM.Result Stop Chronicle Unit) :
    (ended nextId result).2 = ⟨leftBy result, nextId⟩ := by
  cases result <;> rfl

/-- Whether a source runs, and what is wrong with it if it does not, depends on the number of
the next occurrence only. -/
theorem run_cases (fuel : Nat) (nextId : OccurrenceId) (source : String) :
    (∃ problems, ∀ chronicle, run fuel ⟨chronicle, nextId⟩ source =
      (.rejected problems, ⟨chronicle, (readSource source nextId).nextId⟩)) ∨
    ((readSource source nextId).problems = [] ∧
      (resolve (readSource source nextId).statements).problems = [] ∧
      ∀ chronicle, run fuel ⟨chronicle, nextId⟩ source =
        ended (readSource source nextId).nextId
          (executeProgram fuel (readSource source nextId).statements
            (chronicle.learn (resolve (readSource source nextId).statements).distances))) := by
  by_cases clean : (readSource source nextId).problems = []
  · by_cases resolved : (resolve (readSource source nextId).statements).problems = []
    · exact .inr ⟨clean, resolved, fun chronicle => by simp [run, clean, resolved]⟩
    · exact .inl ⟨(resolve (readSource source nextId).statements).problems, fun chronicle => by
        simp [run, clean, resolved]⟩
  · exact .inl ⟨(readSource source nextId).problems, fun chronicle => by simp [run, clean]⟩

theorem run_forget (fuel : Nat) (session : Session) (source : String) :
    ((session.run fuel source).1, (session.run fuel source).2.forget) =
      session.forget.run fuel source := by
  rw [run, Lox.Session.run]
  dsimp only [forget]
  by_cases clean : (readSource source session.nextId).problems = []
  · by_cases resolved : (resolve (readSource source session.nextId).statements).problems = []
    · simp only [clean, resolved, List.isEmpty_nil, if_true]
      generalize (readSource source session.nextId).statements = stmts
      have ended : endIn Chronicle.toMachine _ =
          Lox.executeProgram fuel stmts (session.chronicle.toMachine.learn _) :=
        records_executeProgram fuel stmts (session.chronicle.learn (resolve stmts).distances)
      rw [← ended]
      generalize executeProgram fuel stmts _ = result
      cases result <;> rfl
    · simp only [clean, List.isEmpty_nil, if_true, List.isEmpty_iff, resolved, if_false]
  · simp only [List.isEmpty_iff, clean, if_false]

theorem forget_of (session : Lox.Session) : (of session).forget = session := rfl

/-- A session, as it runs with a memory. -/
theorem run_of (fuel : Nat) (session : Lox.Session) (source : String) :
    (((of session).run fuel source).1, ((of session).run fuel source).2.forget) =
      session.run fuel source := by
  rw [run_forget, forget_of]

theorem runAll_forget (fuel : Nat) (session : Session) (sources : List String) :
    ((session.runAll fuel sources).1, (session.runAll fuel sources).2.forget) =
      session.forget.runAll fuel sources := by
  induction sources generalizing session with
  | nil => rfl
  | cons source rest induction =>
      have first := run_forget fuel session source
      have others := induction (session.run fuel source).2
      rw [runAll, Lox.Session.runAll, ← first]
      dsimp only
      rw [← others]

end Session

end Lox.History
