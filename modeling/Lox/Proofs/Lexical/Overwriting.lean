import Lox.Proofs.Lexical.Presence
/-! Assignments overwrite. A variable is there before it is written to, or else the assignment
fails; only while a local variable waits for its initial value an assignment to it is an earlier
declaration. -/

namespace Lox

/-! ## Occurrences of a task -/

/-- The occurrences that a task evaluates without entering a body. -/
def Task.occurrences : Task → List OccurrenceId
  | evaluate expr => expr.occurrences
  | evaluateAll exprs => Expr.allOccurrences exprs
  | store id _ _ => [id]
  | _ => []

namespace Lexical

open Scope World

/-- A variable waits for its value since its declaration has been started, and the task belongs to
its initial value. -/
def Initializes (started : Task → Lox.Machine → Prop) (pending : Option (String × FrameId))
    (task : Task) : Prop :=
  ∃ declared initial before, started (.execute (.var declared (some initial))) before ∧
    pending = some (declared.lexeme, before.current) ∧ task.occurrences ⊆ initial.occurrences

theorem Starts.waits {fuel : Nat} {task part : Task} {machine middle : Lox.Machine}
    (starts : Starts fuel task machine part middle) (pending : Option (String × FrameId)) :
    pendingDuring pending machine task = pending ∧ part.occurrences ⊆ task.occurrences ∨
      pendingDuring pending machine task = none ∨
      Initializes (fun started before => started = task ∧ before = machine)
        (pendingDuring pending machine task) part := by
  cases starts with
  | group | unary | getObject => exact .inl ⟨rfl, List.Subset.refl _⟩
  | initial => exact .inr (.inr ⟨_, _, _, ⟨rfl, rfl⟩, rfl, List.Subset.refl _⟩)
  | binaryLeft | logicalLeft | callee | setObject | head =>
      exact .inl ⟨rfl, List.subset_append_left _ _⟩
  | binaryRight | logicalRight | arguments | setValue | tail =>
      exact .inl ⟨rfl, List.subset_append_right _ _⟩
  | assigned => exact .inl ⟨rfl, List.subset_cons_self _ _⟩
  | assignment => exact .inl ⟨rfl, List.cons_subset_cons _ (List.nil_subset _)⟩
  | called => exact .inl ⟨rfl, List.nil_subset _⟩
  | _ => exact .inr (.inl rfl)

/-- Whenever a task is done, either no variable waits for its value, or it waits since the
beginning, or its declaration has been started in between. -/
theorem Reaches.waits {recorded : OccurrenceId → Option Nat → Prop} {fuel : Nat}
    {task last : Task} {machine final : Lox.Machine}
    (reaches : Reaches fuel task machine last final) {pending : Option (String × FrameId)}
    (suits : Suits recorded pending machine task) :
    ∃ later, Suits recorded later final last ∧
      (later = pending ∧ last.occurrences ⊆ task.occurrences ∨ later = none ∨
        Initializes (Reaches fuel task machine) later last) := by
  induction reaches generalizing pending with
  | here => exact ⟨pending, suits, .inl ⟨rfl, List.Subset.refl _⟩⟩
  | part starts _ induction =>
      rcases induction (Starts.suits starts suits) with ⟨later, placed, waits⟩
      refine ⟨later, placed, ?_⟩
      rcases waits with ⟨rfl, inside⟩ | none | ⟨declared, initial, before, reached, rest⟩
      · rcases Starts.waits starts pending with
          ⟨same, contained⟩ | none | ⟨declared, initial, before, ⟨rfl, rfl⟩, same, contained⟩
        · exact .inl ⟨same, List.Subset.trans inside contained⟩
        · exact .inr (.inl none)
        · exact .inr (.inr ⟨declared, initial, _, .here, same, List.Subset.trans inside contained⟩)
      · exact .inr (.inl none)
      · exact .inr (.inr ⟨declared, initial, before, .part starts reached, rest⟩)

end Lexical

/-! ## Assignments -/

namespace Machine

/-- The frame that an assignment is to write to: the one at its distance, or else the global
one. -/
def Targets (machine : Machine) (id : OccurrenceId) (target : FrameId) : Prop :=
  match machine.distances.find? id with
  | some distance => machine.forest.ancestor? machine.current distance = some target
  | none => target = machine.globals

/-- The frames bind the same names. -/
def SameNames (machine after : Machine) : Prop :=
  ∀ frame name, (after.forest.own? frame name).isSome = (machine.forest.own? frame name).isSome

theorem define_sameNames {machine : Machine} {target : FrameId} {name : String}
    (bound : (machine.forest.own? target name).isSome) (value : Value) :
    machine.SameNames (machine.define target name value) := by
  intro frame query
  show ((machine.forest.define target name value).own? frame query).isSome = _
  rw [Forest.own?_define _ (Forest.lt_size_of_own? bound)]
  split
  · rename_i same
    rw [same.1, same.2, bound]
    rfl
  · rfl

theorem store_of_place {machine : Machine} {id : OccurrenceId} {name : Token} {target : FrameId}
    (placed : machine.place id name.lexeme = .ok target) (value : Value) :
    Run.store id name value machine = .ok () (machine.define target name.lexeme value) := by
  show (Run.ofExcept (machine.place id name.lexeme) name >>= _) machine = _
  rw [placed]
  rfl

end Machine

namespace Session

open Lexical World

/-- An assignment overwrites a binding in the frame that it is to write to, and all frames bind
the same names afterwards; or it means a global variable that is not defined, and fails without
any effect. There is one exception: in the initial value of a local variable an assignment to this
very variable defines it, in the frame in which the declaration is about to do so. -/
theorem assignments_overwrite {sink : Sink} {clock : Nat → Float} {session : Session}
    (reachable : Reachable sink clock session) {fuel : Nat} {source : String} {id : OccurrenceId}
    {name : Token} {value : Value} {machine : Machine}
    (executes : session.Executes fuel source (.store id name value) machine) :
    (∃ target, machine.Targets id target ∧ (machine.forest.own? target name.lexeme).isSome ∧
      Run.store id name value machine = .ok () (machine.define target name.lexeme value) ∧
      machine.SameNames (machine.define target name.lexeme value)) ∨
    (machine.distances.find? id = none ∧
      machine.forest.own? machine.globals name.lexeme = none ∧
      Run.store id name value machine =
        .error (.fault (.undefinedVariable name.lexeme) name.line) machine) ∨
    (machine.distances.find? id = some 0 ∧
      machine.forest.own? machine.current name.lexeme = none ∧
      Run.store id name value machine = .ok () (machine.define machine.current name.lexeme value) ∧
      ∃ declared initial before,
        session.Executes fuel source (.execute (.var declared (some initial))) before ∧
        declared.lexeme = name.lexeme ∧ before.current = machine.current ∧
        id ∈ initial.occurrences) := by
  rcases executes with ⟨accepted, reaches⟩
  rcases reachable_begins reachable accepted with ⟨begins, holds⟩
  rcases ProgramReaches.statement reaches begins holds with ⟨stmt, before, suits, reached, whole⟩
  rcases Lexical.Reaches.waits reached suits with ⟨pending, ⟨world, rfl, sound, placed⟩, waits⟩
  rcases placed with ⟨scopes, environment, fits, awaits, known⟩
  have recorded := sound.distances _ _ known
  rw [Scope.distance?] at recorded
  cases located : Scope.locate? scopes name.lexeme with
  | none =>
      rw [located] at recorded
      have placed := Forest.place_root sound.cells.root name.lexeme
      by_cases bound : (world.framed.forest.own? world.framed.globals name.lexeme).isSome
      · have target : world.framed.place id name.lexeme = .ok world.framed.globals := by
          rw [Machine.place, recorded]
          exact placed.trans (if_pos bound)
        refine .inl ⟨world.framed.globals, ?_, bound, Machine.store_of_place target value,
          Machine.define_sameNames bound value⟩
        rw [Machine.Targets, recorded]
        rfl
      · have missing : world.framed.place id name.lexeme =
            .error (.undefinedVariable name.lexeme) := by
          rw [Machine.place, recorded]
          exact placed.trans (if_neg bound)
        refine .inr (.inl ⟨recorded, Option.not_isSome_iff_eq_none.mp bound, ?_⟩)
        show (Run.ofExcept (world.framed.place id name.lexeme) name >>= _) world.framed = _
        rw [missing]
        rfl
  | some found =>
      rcases found with ⟨distance, state⟩
      rw [located] at recorded
      rcases fits.present located with ⟨target, _, reached, _, _, ready⟩
      have placed : world.framed.place id name.lexeme = .ok target := by
        rw [Machine.place, recorded]
        show world.framed.forest.placeAt world.framed.current distance name.lexeme = _
        rw [Forest.placeAt, reached]
      by_cases bound : (world.framed.forest.own? target name.lexeme).isSome
      · refine .inl ⟨target, ?_, bound, Machine.store_of_place placed value,
          Machine.define_sameNames bound value⟩
        rw [Machine.Targets, recorded]
        exact reached
      · cases state with
        | ready => exact absurd (ready rfl) bound
        | declared =>
            rcases awaits name.lexeme distance located with ⟨rfl, waiting⟩
            cases reached
            refine .inr (.inr ⟨recorded, Option.not_isSome_iff_eq_none.mp bound,
              Machine.store_of_place placed value, ?_⟩)
            rcases waits with ⟨none, _⟩ | none | ⟨declared, initial, start, started, same, inside⟩
            · cases none.symm.trans waiting
            · cases none.symm.trans waiting
            · have own := Prod.mk.inj (Option.some.inj (same.symm.trans waiting))
              exact ⟨declared, initial, start, ⟨accepted, whole _ _ started⟩, own.1, own.2,
                inside (List.mem_singleton.mpr rfl)⟩

/-- A variable that is assigned in its own initial value is there before it is declared. -/
theorem assignments_overwrite_early :
    Reachable .unlimited (fun _ => 0) (start .unlimited fun _ => 0) ∧
      ∃ machine,
        (start .unlimited fun _ => 0).Executes 9 "{ var a = (a = nil); }"
            (.store 0 ⟨.identifier, "a", 1⟩ .nil) machine ∧
          machine.forest.own? machine.current "a" = none ∧
          Run.store 0 ⟨.identifier, "a", 1⟩ .nil machine =
            .ok () (machine.define machine.current "a" .nil) := by
  have reachable : Reachable .unlimited (fun _ => 0) (start .unlimited fun _ => 0) := .start
  let program : List Stmt := [.block [.var ⟨.identifier, "a", 1⟩
    (some (.group (.assign 0 ⟨.identifier, "a", 1⟩ (.literal .nil))))]]
  have statements : (readSource "{ var a = (a = nil); }" 0).statements = program := by
    with_unfolding_all rfl
  have accepted : (start .unlimited fun _ => 0).Accepts "{ var a = (a = nil); }" := by
    refine ⟨by decide +kernel, ?_⟩
    show (resolve (readSource "{ var a = (a = nil); }" 0).statements).problems = []
    rw [statements]
    decide
  have reaches (machine : Machine) : ∃ final, ProgramReaches 9 program machine
      (.store 0 ⟨.identifier, "a", 1⟩ .nil) final ∧ final.distances = machine.distances ∧
      final.forest = machine.forest.addChild machine.current ∧
      final.current = machine.forest.size :=
    ⟨_, .first (.part (.block rfl) (.part .first (.part .initial (.part .group
      (.part (.assignment rfl) .here))))), rfl, rfl, rfl⟩
  rcases reaches ((start .unlimited fun _ => 0).ready "{ var a = (a = nil); }") with
    ⟨machine, reaches, distances, forest, current⟩
  have executes : (start .unlimited fun _ => 0).Executes 9 "{ var a = (a = nil); }"
      (.store 0 ⟨.identifier, "a", 1⟩ .nil) machine := by
    refine ⟨accepted, ?_⟩
    show ProgramReaches 9 (readSource "{ var a = (a = nil); }" 0).statements _ _ _
    rw [statements]
    exact reaches
  have unbound : machine.forest.own? machine.current "a" = none := by
    rw [forest, current, Forest.own?_addChild, Forest.own?, Forest.frame?_of_le _ (Nat.le_refl _)]
    rfl
  have recorded : machine.distances.find? 0 = some 0 := by
    rw [distances]
    show (Table.setAll ∅ (resolve (readSource "{ var a = (a = nil); }" 0).statements).distances).find?
      0 = _
    rw [statements]
    rfl
  refine ⟨reachable, machine, executes, unbound, ?_⟩
  rcases assignments_overwrite reachable executes with
    ⟨target, targets, bound, _⟩ | ⟨unrecorded, _⟩ | ⟨_, _, stored, _⟩
  · rw [Machine.Targets, recorded] at targets
    cases targets
    rw [unbound] at bound
    cases bound
  · cases recorded.symm.trans unrecorded
  · exact stored

end Session

end Lox
