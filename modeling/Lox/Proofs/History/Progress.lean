import Lox.Proofs.History.Faithful
import Lox.Proofs.History.Lodging
/-! How recorded runs go on. At each moment that has been written down the machine was in order, and
what happened suited it; from one moment to the next nothing was undone. Recorded steps keep this,
and so does putting them together. -/

namespace Lox

open Scope History

/-! ## Moments -/

/-- The values are there. -/
def Machine.HasAll (machine : Machine) (values : List Value) : Prop :=
  ∀ value ∈ values, machine.Has value

theorem Machine.HasAll.later {machine after : Machine} {values : List Value}
    (has : machine.HasAll values) (later : Machine.Later machine after) : after.HasAll values :=
  fun value member => (has value member).later later

/-- The task can be done by code in this method call: the code stands where it can stand, and the
values are there. -/
def Task.Orderly (recorded : OccurrenceId → Option Nat → Prop) (machine : Machine)
    (around : Option Activation) : Task → Prop
  | .evaluate expr => ∃ scopes, machine.Stands scopes around ∧ expr.Scoped recorded scopes ∧
      machine.Declared around expr.receivers
  | .evaluateAll exprs => ∃ scopes, machine.Stands scopes around ∧
      Expr.AllScoped recorded scopes exprs ∧ machine.Declared around (Expr.allReceivers exprs)
  | .store _ _ value => machine.Has value
  | .call callee _ arguments => machine.Has callee ∧ machine.HasAll arguments
  | .invoke closure arguments => machine.Lodged recorded closure around ∧ machine.HasAll arguments
  | .instantiate _ arguments => machine.HasAll arguments
  | .execute stmt => ∃ scopes, machine.Stands scopes around ∧ stmt.Scoped recorded scopes ∧
      machine.Declared around stmt.receivers
  | .executeAll stmts => ∃ scopes, machine.Stands scopes around ∧
      Stmt.AllScoped recorded scopes stmts ∧ machine.Declared around (Stmt.allReceivers stmts)

namespace History

def Event.Orderly (recorded : OccurrenceId → Option Nat → Prop) (machine : Machine)
    (around : Option Activation) : Event → Prop
  | .starts task => task.Orderly recorded machine around
  | .yields _ value => machine.Has value
  | .prints value => machine.Has value
  | .passes => True

/-- The machine is in order, and what happens suits it. -/
def Moment.Orderly (moment : Moment) : Prop :=
  ∃ recorded, moment.machine.Present recorded moment.owners ∧
    moment.event.Orderly recorded moment.machine moment.around

/-- The chronicle is in order, and has been at each moment. -/
structure Chronicle.Sound (recorded : OccurrenceId → Option Nat → Prop) (chronicle : Chronicle) :
    Prop where
  present : chronicle.toMachine.Present recorded chronicle.owners
  moments : ∀ moment ∈ chronicle.past, moment.Orderly
  steadily : chronicle.past.Pairwise fun later earlier => earlier.machine.Steady later.machine
  since : ∀ moment ∈ chronicle.past, moment.machine.Steady chronicle.toMachine

/-- What a chronicle that is in order comes to when a piece of code is done. -/
structure Continues (recorded : OccurrenceId → Option Nat → Prop) (before after : Chronicle) :
    Prop where
  sound : after.Sound recorded
  steady : before.toMachine.Steady after.toMachine
  current : after.current = before.current

/-- The run goes on from the chronicle to the end, and this is true of its value. -/
structure Carries {α : Type} (recorded : OccurrenceId → Option Nat → Prop)
    (yields : Machine → α → Prop) (chronicle : Chronicle)
    (result : EStateM.Result Stop Chronicle α) : Prop where
  continues : Continues recorded chronicle (leftBy result)
  yields : ∀ value after, result = .ok value after → yields after.toMachine value

variable {recorded : OccurrenceId → Option Nat → Prop} {α β : Type}
  {before middle after chronicle : Chronicle}

theorem Continues.refl (sound : chronicle.Sound recorded) :
    Continues recorded chronicle chronicle :=
  ⟨sound, .refl _, rfl⟩

theorem Continues.trans (first : Continues recorded before middle)
    (second : Continues recorded middle after) : Continues recorded before after :=
  ⟨second.sound, first.steady.trans second.steady, second.current.trans first.current⟩

/-- Code that goes on stands where it stood. -/
theorem Continues.stands {scopes : List Scope} {around : Option Activation}
    (continues : Continues recorded before after)
    (stands : before.toMachine.Stands scopes around) : after.toMachine.Stands scopes around :=
  stands.later continues.steady continues.current

/-! ## Putting together -/

namespace Carries

variable {yields : Machine → α → Prop} {yields' : Machine → β → Prop}

theorem value {value : α} (sound : chronicle.Sound recorded)
    (holds : yields chronicle.toMachine value) :
    Carries recorded yields chronicle ((pure value : Recorded α) chronicle) :=
  ⟨.refl sound, by rintro _ _ ⟨⟩; exact holds⟩

theorem stop {stop : Stop} (sound : chronicle.Sound recorded) :
    Carries recorded yields chronicle ((throw stop : Recorded α) chronicle) :=
  ⟨.refl sound, nofun⟩

theorem ofExcept {result : Except RuntimeFault α} {blamed : Token}
    (sound : chronicle.Sound recorded)
    (holds : ∀ value, result = .ok value → yields chronicle.toMachine value) :
    Carries recorded yields chronicle ((Run.ofExcept result blamed : Recorded α) chronicle) := by
  cases result with
  | ok found => exact value sound (holds found rfl)
  | error problem => exact stop sound

theorem bind {first : Recorded α} {next : α → Recorded β}
    (starts : Carries recorded yields chronicle (first chronicle))
    (goes : ∀ value after, Continues recorded chronicle after → yields after.toMachine value →
      Carries recorded yields' after (next value after)) :
    Carries recorded yields' chronicle ((first >>= next) chronicle) := by
  rw [bind_apply]
  cases ended : first chronicle with
  | error stop after =>
      rw [ended] at starts
      exact ⟨starts.continues, nofun⟩
  | ok value after =>
      rw [ended] at starts
      have further := goes value after starts.continues (starts.yields value after rfl)
      exact ⟨starts.continues.trans further.continues, further.yields⟩

theorem look {next : Chronicle → Recorded α}
    (goes : Carries recorded yields chronicle (next chronicle chronicle)) :
    Carries recorded yields chronicle ((get >>= next) chronicle) :=
  goes

theorem weaken {result : EStateM.Result Stop Chronicle α} {other : Machine → α → Prop}
    (carries : Carries recorded yields chronicle result)
    (weaker : ∀ machine value, yields machine value → other machine value) :
    Carries recorded other chronicle result :=
  ⟨carries.continues, fun value after ended => weaker _ _ (carries.yields value after ended)⟩

end Carries

/-- A moment is written down. -/
theorem Chronicle.Sound.noted (sound : chronicle.Sound recorded) (around : Option Activation)
    {event : Event} (orderly : event.Orderly recorded chronicle.toMachine around) :
    (chronicle.note around event).Sound recorded where
  present := sound.present
  moments := by
    intro moment member
    rcases List.mem_cons.mp member with rfl | member
    · exact ⟨recorded, sound.present, orderly⟩
    · exact sound.moments moment member
  steadily := List.pairwise_cons.mpr ⟨sound.since, sound.steadily⟩
  since := by
    intro moment member
    rcases List.mem_cons.mp member with rfl | member
    · exact .refl _
    · exact sound.since moment member

namespace Carries

theorem noted {around : Option Activation} {event : Event} {next : Recorded α}
    {yields : Machine → α → Prop} (sound : chronicle.Sound recorded)
    (orderly : event.Orderly recorded chronicle.toMachine around)
    (goes : ∀ after, Continues recorded chronicle after →
      Carries recorded yields after (next after)) :
    Carries recorded yields chronicle ((note around event >>= fun _ => next) chronicle) := by
  have written : Carries recorded (fun _ _ => True) chronicle (note around event chronicle) :=
    ⟨⟨sound.noted around orderly, .refl _, rfl⟩, fun _ _ _ => trivial⟩
  exact written.bind fun _ after continues _ => goes after continues

/-- Code that runs in another frame and comes back. -/
theorem inside {frame : FrameId} {body : Recorded α} {yields : Machine → α → Prop}
    (sound : chronicle.Sound recorded)
    (anywhere : ∀ (machine : Machine) (current : FrameId) value, yields machine value →
      yields { machine with current := current } value)
    (goes : ∀ entered : Chronicle, entered = { chronicle with current := frame } →
      entered.Sound recorded → Carries recorded yields entered (body entered)) :
    Carries recorded yields chronicle (inside frame body chronicle) := by
  have entered : Chronicle.Sound recorded { chronicle with current := frame } :=
    ⟨sound.present.moveTo frame, sound.moments, sound.steadily, fun moment member =>
      (sound.since moment member).trans (.moveTo chronicle.toMachine frame)⟩
  have carries := goes _ rfl entered
  have left := carries.continues.sound
  have back := Machine.Steady.moveTo
    (leftBy (body { chronicle with current := frame })).toMachine chronicle.current
  rw [inside_apply]
  refine ⟨⟨?_, ?_, ?_⟩, ?_⟩
  · rw [leftBy_endIn]
    exact ⟨left.present.moveTo chronicle.current, left.moments, left.steadily,
      fun moment member => (left.since moment member).trans back⟩
  · rw [leftBy_endIn]
    exact (Machine.Steady.moveTo chronicle.toMachine frame).trans
      (carries.continues.steady.trans back)
  · rw [leftBy_endIn]
  · intro value after ended
    cases done : body { chronicle with current := frame } with
    | error stop left =>
        rw [done] at ended
        cases ended
    | ok value left =>
        rw [done] at ended
        cases ended
        exact anywhere _ _ _ (carries.yields value left done)

end Carries

end History

end Lox
