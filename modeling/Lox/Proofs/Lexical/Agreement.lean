import Lox.Proofs.Lexical.World
/-! Runs that agree. Two runs agree in a world if they end in the same way, and in a
world that is sound again. Agreement is built up from steps; the elementary steps of
the two machines agree. -/

namespace Lox

/-- Faults that a program in which the walk finds no fault can end with. -/
def RuntimeFault.Expected : RuntimeFault → Prop
  | .scopeTooShallow _ => False
  | .superOutsideClass => False
  | _ => True

def Stop.Expected : Stop → Prop
  | .fault problem _ => problem.Expected
  | _ => True

/-! Operators blame operands and nothing else. -/

theorem applyUnary_expected {operator : Token} {operand : Value} {problem : RuntimeFault}
    (failed : applyUnary operator operand = .error problem) : problem.Expected := by
  rw [applyUnary.eq_def] at failed
  split at failed
  · cases failed
  · cases failed
  · cases failed
    trivial

theorem applyArithmetic_expected {operator : Token} {left right : Float} {problem : RuntimeFault}
    (failed : applyArithmetic operator left right = .error problem) : problem.Expected := by
  rw [applyArithmetic.eq_def] at failed
  split at failed
  all_goals cases failed
  trivial

theorem applyBinary_expected {operator : Token} {left right : Value} {problem : RuntimeFault}
    (failed : applyBinary operator left right = .error problem) : problem.Expected := by
  rw [applyBinary.eq_def] at failed
  split at failed
  · cases failed
  · cases failed
  · split at failed
    · cases failed
    · cases failed
    · cases failed
      trivial
  · split at failed
    · exact applyArithmetic_expected failed
    · cases failed
      trivial

namespace Lexical

open Scope World

variable {recorded : OccurrenceId → Option Nat → Prop} {α β γ δ : Type}

/-! ## Agreement -/

section

variable (recorded) (extends? : FrameId → Prop) (world : World) (related : World → α → β → Prop)

/-- Two runs from this world end in the same way. -/
def EndAlike : EStateM.Result Stop Lox.Machine α → EStateM.Result Stop Machine β → Prop
  | .ok value framed, .ok other chained => ∃ layout,
      Later extends? world ⟨layout, framed, chained⟩ ∧ Sound recorded ⟨layout, framed, chained⟩ ∧
        related ⟨layout, framed, chained⟩ value other
  | .error stop framed, .error other chained => other = stop ∧ stop.Expected ∧ ∃ layout,
      Later extends? world ⟨layout, framed, chained⟩ ∧ Sound recorded ⟨layout, framed, chained⟩
  | _, _ => False

def Agrees (actual : Lox.Run α) (lexical : Run β) : Prop :=
  EndAlike recorded extends? world related (actual world.framed) (lexical world.chained)

end

/-- The end of a run, seen from another world. -/
theorem EndAlike.seen {extends? other : FrameId → Prop} {world before : World}
    {related : World → α → β → Prop} {framedEnd : EStateM.Result Stop Lox.Machine α}
    {chainedEnd : EStateM.Result Stop Machine β}
    (alike : EndAlike recorded extends? world related framedEnd chainedEnd)
    (later : ∀ final, Later extends? world final → Later other before final) :
    EndAlike recorded other before related framedEnd chainedEnd := by
  cases framedEnd with
  | ok value framed =>
      cases chainedEnd with
      | ok final chained =>
          rcases alike with ⟨layout, further, sound, holds⟩
          exact ⟨layout, later _ further, sound, holds⟩
      | error _ _ => exact alike
  | error stop framed =>
      cases chainedEnd with
      | ok _ _ => exact alike
      | error _ _ =>
          rcases alike with ⟨same, expected, layout, further, sound⟩
          exact ⟨same, expected, layout, later _ further, sound⟩

/-- The same value on both sides. -/
abbrev Same : World → α → α → Prop :=
  fun _ value other => other = value

namespace Agrees

variable {extends? : FrameId → Prop} {world after : World} {related : World → α → β → Prop}
  {actual : Lox.Run α} {lexical : Run β}

theorem of_ok (value : α) (other : β) (framed : actual world.framed = .ok value after.framed)
    (chained : lexical world.chained = .ok other after.chained)
    (later : Later extends? world after) (sound : Sound recorded after)
    (holds : related after value other) :
    Agrees recorded extends? world related actual lexical := by
  rw [Agrees, framed, chained]
  exact ⟨after.layout, later, sound, holds⟩

theorem of_error {stop : Stop} (framed : actual world.framed = .error stop after.framed)
    (chained : lexical world.chained = .error stop after.chained) (expected : stop.Expected)
    (later : Later extends? world after) (sound : Sound recorded after) :
    Agrees recorded extends? world related actual lexical := by
  rw [Agrees, framed, chained]
  exact ⟨rfl, expected, after.layout, later, sound⟩

theorem pure {value : α} {other : β} (sound : Sound recorded world)
    (holds : related world value other) :
    Agrees recorded extends? world related (pure value) (pure other) :=
  of_ok value other rfl rfl (.refl world) sound holds

theorem fault {problem : RuntimeFault} {blamed : Token} (expected : problem.Expected)
    (sound : Sound recorded world) :
    Agrees recorded extends? world related (Run.fault problem blamed) (Run.fault problem blamed) :=
  of_error rfl rfl expected (.refl world) sound

theorem exhausted (sound : Sound recorded world) :
    Agrees recorded extends? world related (throw .exhausted) (throw .exhausted) :=
  of_error rfl rfl trivial (.refl world) sound

/-- Both runs look at their machines first. -/
theorem get {next : Lox.Machine → Lox.Run α} {continued : Machine → Run β}
    (agrees : Agrees recorded extends? world related (next world.framed)
      (continued world.chained)) :
    Agrees recorded extends? world related (get >>= next) (get >>= continued) :=
  agrees

theorem ofExcept {result : Except RuntimeFault α} {blamed : Token}
    (expected : ∀ problem, result = .error problem → problem.Expected) (sound : Sound recorded world) :
    Agrees recorded extends? world Same (Run.ofExcept result blamed) (Run.ofExcept result blamed) := by
  cases result with
  | ok value => exact pure sound rfl
  | error problem => exact fault (expected problem rfl) sound

/-- One run after another; the second may extend more. -/
theorem followed {other : FrameId → Prop} {next : α → Lox.Run γ} {continued : β → Run δ}
    {finish : World → γ → δ → Prop}
    (first : Agrees recorded extends? world related actual lexical)
    (contained : ∀ frame, extends? frame → world.forest.size ≤ frame ∨ other frame)
    (second : ∀ after value final, Later extends? world after → Sound recorded after →
      related after value final →
        Agrees recorded other after finish (next value) (continued final)) :
    Agrees recorded other world finish (actual >>= next) (lexical >>= continued) := by
  rw [Agrees] at first ⊢
  show EndAlike _ _ _ _ (EStateM.bind actual next world.framed)
    (EStateM.bind lexical continued world.chained)
  rw [EStateM.bind, EStateM.bind]
  generalize actual world.framed = framedEnd at first ⊢
  generalize lexical world.chained = chainedEnd at first ⊢
  cases framedEnd with
  | ok value framed =>
      cases chainedEnd with
      | ok final chained =>
          rcases first with ⟨layout, later, sound, holds⟩
          exact EndAlike.seen (second _ value final later sound holds)
            fun _ => (later.weaken contained).trans
      | error _ _ => exact first.elim
  | error stop framed =>
      cases chainedEnd with
      | ok _ _ => exact first.elim
      | error _ _ =>
          rcases first with ⟨same, expected, layout, later, sound⟩
          exact ⟨same, expected, layout, later.weaken contained, sound⟩

theorem bind {next : α → Lox.Run γ} {continued : β → Run δ} {finish : World → γ → δ → Prop}
    (first : Agrees recorded extends? world related actual lexical)
    (second : ∀ after value other, Later extends? world after → Sound recorded after →
      related after value other →
        Agrees recorded extends? after finish (next value) (continued other)) :
    Agrees recorded extends? world finish (actual >>= next) (lexical >>= continued) :=
  first.followed (fun _ => .inr) second

/-- A step that has been taken on either side. -/
theorem after_step (taken : Lox.Run α) (other : Run β) (later : Later extends? world after)
    (framed : actual world.framed = taken after.framed)
    (chained : lexical world.chained = other after.chained)
    (agrees : Agrees recorded extends? after related taken other) :
    Agrees recorded extends? world related actual lexical := by
  rw [Agrees, framed, chained]
  exact EndAlike.seen agrees fun _ => later.trans

theorem weaken {other : FrameId → Prop}
    (agrees : Agrees recorded extends? world related actual lexical)
    (contained : ∀ frame, extends? frame → world.forest.size ≤ frame ∨ other frame) :
    Agrees recorded other world related actual lexical :=
  EndAlike.seen agrees fun _ later => later.weaken contained

/-- What is left when a run that agrees has succeeded. -/
theorem of_ran (agrees : Agrees recorded extends? world related actual lexical) {value : α}
    {framed : Lox.Machine} (ran : actual world.framed = .ok value framed) :
    ∃ after other, after.framed = framed ∧ Later extends? world after ∧ Sound recorded after ∧
      related after value other := by
  rw [Agrees, ran] at agrees
  generalize lexical world.chained = chainedEnd at agrees
  cases chainedEnd with
  | ok other chained =>
      rcases agrees with ⟨layout, later, sound, holds⟩
      exact ⟨⟨layout, framed, chained⟩, other, rfl, later, sound, holds⟩
  | error _ _ => exact agrees.elim

/-- A run that agrees ends early for expected reasons only. -/
theorem expected (agrees : Agrees recorded extends? world related actual lexical) {stop : Stop}
    {framed : Lox.Machine} (failed : actual world.framed = .error stop framed) : stop.Expected := by
  rw [Agrees, failed] at agrees
  generalize lexical world.chained = chainedEnd at agrees
  cases chainedEnd with
  | ok _ _ => exact agrees.elim
  | error _ _ => exact agrees.2.1

/-- What it leaves when it ends early. -/
theorem of_stopped (agrees : Agrees recorded extends? world related actual lexical) {stop : Stop}
    {framed : Lox.Machine} (failed : actual world.framed = .error stop framed) :
    ∃ after, after.framed = framed ∧ Later extends? world after ∧ Sound recorded after := by
  rw [Agrees, failed] at agrees
  generalize lexical world.chained = chainedEnd at agrees
  cases chainedEnd with
  | ok _ _ => exact agrees.elim
  | error _ chained =>
      rcases agrees with ⟨_, _, layout, later, sound⟩
      exact ⟨⟨layout, framed, chained⟩, rfl, later, sound⟩

theorem imply {finish : World → α → β → Prop}
    (agrees : Agrees recorded extends? world related actual lexical)
    (holds : ∀ after value other, Later extends? world after → Sound recorded after →
      related after value other → finish after value other) :
    Agrees recorded extends? world finish actual lexical := by
  rw [Agrees] at agrees ⊢
  generalize actual world.framed = framedEnd at agrees ⊢
  generalize lexical world.chained = chainedEnd at agrees ⊢
  cases framedEnd with
  | ok value framed =>
      cases chainedEnd with
      | ok other chained =>
          rcases agrees with ⟨layout, later, sound, related⟩
          exact ⟨layout, later, sound, holds _ _ _ later sound related⟩
      | error _ _ => exact agrees
  | error stop framed =>
      cases chainedEnd with
      | ok _ _ => exact agrees
      | error _ _ => exact agrees

/-- Whatever may be extended. -/
theorem extending (agrees : Agrees recorded Nothing world related actual lexical) :
    Agrees recorded extends? world related actual lexical :=
  agrees.weaken nofun

/-- Only a new frame is extended. -/
theorem within {frame : FrameId} (new : world.forest.size ≤ frame)
    (agrees : Agrees recorded (· = frame) world related actual lexical) :
    Agrees recorded Nothing world related actual lexical := by
  refine agrees.weaken ?_
  rintro _ rfl
  exact .inl new

end Agrees

end Lexical

end Lox
