import Lox.Proofs.Lexical.Simulation
import Lox.Proofs.Scope.Acceptance
/-! Whole sessions. Sessions that have run the same sources, one with distances and one
without, have had the same output and the same endings. -/

namespace Lox.Lexical

open Scope World

/-! ## Learning -/

section

variable {recorded later : OccurrenceId → Option Nat → Prop} {world : World}
  (kept : ∀ id distance?, recorded id distance? → later id distance?)

include kept

theorem World.FunctionsAlike.know {framed : Closure FrameId} {chained : Closure Environment}
    (alike : FunctionsAlike recorded world framed chained) :
    FunctionsAlike later world framed chained := by
  rcases alike.place with ⟨scopes, fits, holds, initializes⟩
  exact ⟨alike.routine, alike.isInitializer, scopes, fits, Routine.scoped_mono kept _ holds,
    initializes⟩

theorem World.MethodsAlike.know {framed : Closure FrameId} {chained : Closure Environment}
    (alike : MethodsAlike recorded world framed chained) :
    MethodsAlike later world framed chained := by
  rcases alike.place with ⟨scopes, fits, holds⟩
  exact ⟨alike.routine, alike.isInitializer, scopes, fits, Routine.scoped_mono kept _ holds⟩

theorem World.HeapsAlike.know (alike : HeapsAlike recorded world) : HeapsAlike later world :=
  ⟨alike.functions.mono fun _ _ same => same.know kept,
    alike.classes.mono fun _ _ same =>
      ⟨same.name, same.superclass, same.methods.mono fun _ _ method => method.know kept⟩,
    alike.objects⟩

/-- More distances may be recorded, if those that are known stay as they are. -/
theorem World.Sound.learn (sound : Sound recorded world) {distances : Distances}
    (known : ∀ id distance?, later id distance? → distances.find? id = distance?) :
    Sound later ⟨world.layout, { world.framed with distances := distances }, world.chained⟩ := by
  have alike := sound.heaps.know kept
  exact ⟨known, ⟨sound.cells.length, sound.cells.nodup, sound.cells.contents,
    sound.cells.covered, sound.cells.root, sound.cells.present, sound.cells.globals⟩,
    alike.mono (fun _ _ _ => id) rfl rfl, sound.sorted, sound.sink, sound.clock, sound.ticks⟩

end

/-! ## Sessions side by side -/

/-- What relates the two sessions between two sources. -/
structure SessionsAlike (framed : Lox.Session) (chained : Session) : Prop where
  nextId : chained.nextId = framed.nextId
  unused : Unused framed.machine.distances framed.nextId
  outermost : framed.machine.current = framed.machine.globals
  machines : ∃ layout, Sound (Known framed.machine.distances framed.nextId)
    ⟨layout, framed.machine, chained.machine⟩

/-- Names are at their places at the start. -/
theorem own?_start (sink : Sink) (clock : Nat → Float) (frame : FrameId) (name : String) :
    (Lox.Machine.start sink clock).forest.own? frame name =
      if frame = 0 ∧ name = "clock" then some (.native .clock) else none := by
  show ((Forest.empty.addRoot).define 0 "clock" (Value.native .clock)).own? frame name = _
  have present : 0 < (Forest.empty.addRoot : Forest Value).size := by
    rw [Forest.addRoot, Forest.size_add]
    exact Nat.succ_pos _
  rw [Forest.own?_define _ present]
  split
  · rfl
  · cases frame with
    | zero => rfl
    | succ frame => rfl

theorem SessionsAlike.start (sink : Sink) (clock : Nat → Float) :
    SessionsAlike (Lox.Session.start sink clock) (Session.start sink clock) := by
  refine ⟨rfl, fun _ _ => rfl, rfl, [], ?_⟩
  have own := own?_start sink clock
  refine ⟨fun _ _ known => known.2, ⟨rfl, List.nodup_nil, nofun, ?_, rfl, ?_, ?_⟩,
    ⟨.empty, .empty, rfl⟩, ?_, rfl, rfl, rfl⟩
  · intro frame name inner bound
    have bound := (congrArg Option.isSome (own frame name)).symm.trans bound
    rw [if_neg fun same => inner same.1] at bound
    cases bound
  · exact Nat.succ_pos _
  · intro name
    refine (own 0 name).trans ?_
    show _ = ((Table.empty : Table String Value).set "clock" (.native .clock)).find? name
    rw [Table.find?_set]
    simp
  · intro frame name value bound
    have bound := (own frame name).symm.trans bound
    split at bound
    · rename_i same
      rw [same.2]
      exact ⟨nofun, nofun⟩
    · cases bound

/-- An accepted source starts at the top level, where everything fits. -/
theorem SessionsAlike.begins {framed : Lox.Session} {chained : Session}
    (alike : SessionsAlike framed chained) {program : Program}
    (learnt : Learnt framed.machine.distances framed.nextId program) :
    ∃ layout,
      Sound (Known (framed.machine.distances.setAll (resolve program.statements).distances)
        program.nextId)
        ⟨layout, framed.machine.learn (resolve program.statements).distances, chained.machine⟩ ∧
      StandsHere []
        ⟨layout, framed.machine.learn (resolve program.statements).distances, chained.machine⟩
        .outermost := by
  rcases alike.machines with ⟨layout, sound⟩
  have sound := sound.learn learnt.kept fun _ _ known => known.2
  refine ⟨layout, sound, ?_, ?_⟩
  · show Fits _ framed.machine.globals layout framed.machine.current [] .outermost
    rw [alike.outermost]
    exact .outermost
  · intro location name found
    exact absurd alike.outermost (sound.cells.contents location _ name found).2.1

theorem SessionsAlike.run {framed : Lox.Session} {chained : Session}
    (alike : SessionsAlike framed chained) (fuel : Nat) (source : String) :
    (chained.run fuel source).1 = (framed.run fuel source).1 ∧
      SessionsAlike (framed.run fuel source).2 (chained.run fuel source).2 := by
  have advances := readSource_advances source framed.nextId
  have learns := learnt source alike.unused
  rw [Session.run, Lox.Session.run, alike.nextId]
  generalize readSource source framed.nextId = program at advances learns
  have rejected : SessionsAlike { framed with nextId := program.nextId }
      { chained with nextId := program.nextId } := by
    rcases alike.machines with ⟨layout, sound⟩
    have later := sound.learn (fun _ _ known => known.later advances) fun _ _ known => known.2
    exact ⟨rfl, alike.unused.later advances, alike.outermost, layout, later⟩
  dsimp only
  by_cases clean : program.problems = []
  · simp only [clean, List.isEmpty_nil, if_true]
    by_cases resolved : (resolve program.statements).problems = []
    · simp only [resolved, List.isEmpty_nil, if_true]
      have learnt := learns clean resolved
      rcases alike.begins learnt with ⟨layout, sound, stands⟩
      have ended := Agrees.executeProgram fuel program.statements sound stands learnt.holds
      have outermost := alike.outermost
      have after {machine : Lox.Machine} {other : Machine} {layout' : Layout}
          (later : Later (· = framed.machine.current)
            ⟨layout, framed.machine.learn (resolve program.statements).distances, chained.machine⟩
            ⟨layout', machine, other⟩)
          (sound : Sound (Known (framed.machine.distances.setAll
            (resolve program.statements).distances) program.nextId) ⟨layout', machine, other⟩) :
          SessionsAlike ⟨machine, program.nextId⟩ ⟨other, program.nextId⟩ := by
        have distances : machine.distances =
            framed.machine.distances.setAll (resolve program.statements).distances :=
          later.distances
        refine ⟨rfl, ?_, later.current.trans (outermost.trans later.globals.symm), layout', ?_⟩
        · rw [distances]
          exact learnt.unused
        · rw [distances]
          exact sound
      rw [Agrees] at ended
      revert ended
      dsimp only
      generalize Lox.executeProgram fuel program.statements
        (framed.machine.learn (resolve program.statements).distances) = framedEnd
      generalize executeProgram fuel program.statements chained.machine = chainedEnd
      intro ended
      cases framedEnd with
      | ok _ _ =>
          cases chainedEnd with
          | ok _ _ =>
              rcases ended with ⟨_, later, sound, _⟩
              exact ⟨rfl, after later sound⟩
          | error _ _ => exact ended.elim
      | error _ _ =>
          cases chainedEnd with
          | ok _ _ => exact ended.elim
          | error _ _ =>
              rcases ended with ⟨rfl, _, _, later, sound⟩
              exact ⟨rfl, after later sound⟩
    · simp only [List.isEmpty_iff, resolved, if_false]
      exact ⟨trivial, rejected⟩
  · simp only [List.isEmpty_iff, clean, if_false]
    exact ⟨trivial, rejected⟩

/-- With distances and frames that are shared and extended, programs do what they do
with chains of cells and without distances: whatever sources a session runs, their endings are
the same, and so is the output. -/
theorem runs_lexically (fuel : Nat) (sink : Sink) (clock : Nat → Float) (sources : List String) :
    ((Lox.Session.start sink clock).runAll fuel sources).1 =
        ((Session.start sink clock).runAll fuel sources).1 ∧
      ((Lox.Session.start sink clock).runAll fuel sources).2.machine.sink =
        ((Session.start sink clock).runAll fuel sources).2.machine.sink := by
  have several (framed : Lox.Session) (chained : Session) (alike : SessionsAlike framed chained) :
      (framed.runAll fuel sources).1 = (chained.runAll fuel sources).1 ∧
        SessionsAlike (framed.runAll fuel sources).2 (chained.runAll fuel sources).2 := by
    induction sources generalizing framed chained with
    | nil => exact ⟨rfl, alike⟩
    | cons source rest induction =>
        have first := alike.run fuel source
        have others := induction _ _ first.2
        refine ⟨?_, others.2⟩
        exact congr (congrArg List.cons first.1.symm) others.1
  rcases several _ _ (.start sink clock) with ⟨endings, alike⟩
  rcases alike.machines with ⟨_, sound⟩
  exact ⟨endings, sound.sink.symm⟩

end Lox.Lexical
