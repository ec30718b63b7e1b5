import Lox.Proofs.History.Preservation
import Lox.Proofs.Lexical.Session
/-! Sessions stay in order: every moment in the history of a session is in order, and from one
moment to the next nothing is undone. -/

namespace Lox

open Scope History

namespace History

variable {recorded later : OccurrenceId → Option Nat → Prop} {scopes : List Scope}
  {chronicle : Chronicle}

/-! ## Programs -/

theorem Carries.executeProgram (fuel : Nat) (stmts : List Stmt)
    (ready : chronicle.Ready recorded scopes none) (holds : Stmt.AllScoped recorded scopes stmts) :
    Carries recorded (fun _ _ => True) chronicle (executeProgram fuel stmts chronicle) := by
  induction stmts generalizing chronicle scopes with
  | nil => exact .take ready.sound ready.sound.present.flush
  | cons stmt rest induction =>
      refine ((preserves recorded fuel).execute stmt ready holds.1 nofun).bind
        fun _ after continues _ => ?_
      exact induction ((ready.later continues).scopesAfter holds.1) holds.2

theorem distances_executeProgram (fuel : Nat) (stmts : List Stmt) (chronicle : Chronicle) :
    (leftBy (executeProgram fuel stmts chronicle)).distances = chronicle.distances := by
  have ended := records_executeProgram fuel stmts chronicle
  have kept := (keeps_executeProgram fuel stmts chronicle.toMachine).distances
  rw [← ended, leftBy_endIn] at kept
  exact kept

end History

namespace Machine.Present

variable {machine : Machine} {recorded later : OccurrenceId → Option Nat → Prop}
  {owners : Array (Option Activation)}

/-- Further occurrences are recorded. -/
theorem learn (present : machine.Present recorded owners)
    (kept : ∀ id distance?, recorded id distance? → later id distance?) {distances : Distances}
    (known : ∀ id distance?, later id distance? → distances.find? id = distance?) :
    Machine.Present later { machine with distances := distances } owners := by
  have steady : machine.Steady { machine with distances := distances } :=
    .ofHeap { Later.refl machine with } rfl
  refine {
    distances := known
    root := present.root
    globals := steady.opens _ present.globals
    counted := present.counted
    functions := fun id closure found => ?_
    methods := fun id info name method declared found => ?_
    values := fun frame name value bound =>
      (present.values frame name value bound).later steady.toLater
    fields := fun id object name value found field =>
      (present.fields id object name value found field).later steady.toLater }
  · obtain ⟨⟨scopes, lies, holds⟩, declared, arises⟩ :=
      (present.functions id closure found).later steady
    exact ⟨⟨scopes, lies, Routine.scoped_mono kept _ holds⟩, declared, arises⟩
  · have offers := (present.methods id info name method declared found).later steady
    generalize info.superclass = superclass at offers
    cases offers with
    | plain lies holds => exact .plain lies (Routine.scoped_mono kept _ holds)
    | derived own linked lies holds =>
        exact .derived own linked lies (Routine.scoped_mono kept _ holds)

end Machine.Present

namespace History.Session

/-! ## Sessions -/

/-- What is true of a session between two sources. -/
structure Sound (session : Session) : Prop where
  sound : session.chronicle.Sound (Known session.chronicle.distances session.nextId)
  unused : Unused session.chronicle.distances session.nextId
  outermost : session.chronicle.current = session.chronicle.globals

theorem Sound.start (sink : Sink) (clock : Nat → Float) :
    Sound (.of (Lox.Session.start sink clock)) := by
  have own := Lexical.own?_start sink clock
  have free (name : String) (other : name ≠ "clock") :
      (Machine.start sink clock).forest.own? 0 name = none := by
    rw [own, if_neg fun same => other same.2]
  have nothing {α : Type} {index : Nat} {value : α} : (#[] : Array α)[index]? ≠ some value := by
    simp
  refine ⟨⟨?_, fun _ member => absurd member List.not_mem_nil, .nil,
    fun _ member => absurd member List.not_mem_nil⟩, fun _ _ => rfl, rfl⟩
  exact {
    distances := fun _ _ known => absurd known.1 (Nat.not_lt_zero _)
    root := rfl
    globals := ⟨Nat.succ_pos _, free thisName (by decide), free superName (by decide)⟩
    counted := rfl
    functions := fun _ _ found => absurd found nothing
    methods := fun _ _ _ _ known _ => absurd known nothing
    values := fun frame name value bound => by
      have bound := (own frame name).symm.trans bound
      split at bound
      · cases bound
        trivial
      · cases bound
    fields := fun _ _ _ _ known _ => absurd known nothing }

/-- The session takes numbers, and nothing else happens. -/
theorem Sound.advance {chronicle : Chronicle} {nextId next : OccurrenceId}
    (sound : Sound ⟨chronicle, nextId⟩) (advances : nextId ≤ next) : Sound ⟨chronicle, next⟩ := by
  refine ⟨{ sound.sound with present := ?_ }, sound.unused.later advances, sound.outermost⟩
  exact sound.sound.present.learn (fun _ _ known => known.later advances) fun _ _ => And.right

theorem Sound.run {session : Session} (sound : session.Sound) (fuel : Nat) (source : String) :
    (session.run fuel source).2.Sound := by
  obtain ⟨chronicle, nextId⟩ := session
  rcases run_cases fuel nextId source with ⟨problems, rejected⟩ | ⟨clean, resolved, ran⟩
  · rw [rejected]
    exact sound.advance (readSource_advances source nextId)
  · have learnt := learnt source sound.unused clean resolved
    rw [ran]
    generalize readSource source nextId = program at learnt
    obtain ⟨⟨present, moments, steadily, since⟩, unused, outermost⟩ := sound
    have known := present.learn learnt.kept fun _ _ => And.right
    have steady : chronicle.toMachine.Steady (chronicle.learn
        (resolve program.statements).distances).toMachine :=
      .ofHeap { Machine.Later.refl chronicle.toMachine with } rfl
    have here : (chronicle.learn (resolve program.statements).distances).current =
        (chronicle.learn (resolve program.statements).distances).globals := outermost
    have ready : Chronicle.Ready _ [] none
        (chronicle.learn (resolve program.statements).distances) :=
      ⟨⟨known, moments, steadily, fun moment member => (since moment member).trans steady⟩,
        here ▸ .outermost, here ▸ known.globals⟩
    have continues := (Carries.executeProgram fuel program.statements ready learnt.holds).continues
    have distances := distances_executeProgram fuel program.statements
      (chronicle.learn (resolve program.statements).distances)
    rw [ended_snd]
    refine ⟨?_, ?_, ?_⟩
    · rw [distances]
      exact continues.sound
    · rw [distances]
      exact learnt.unused
    · exact continues.current.trans (here.trans continues.steady.globals.symm)

theorem Sound.runAll {session : Session} (sound : session.Sound) (fuel : Nat)
    (sources : List String) : (session.runAll fuel sources).2.Sound := by
  induction sources generalizing session with
  | nil => exact sound
  | cons source rest induction => exact induction (sound.run fuel source)

end History.Session

end Lox
