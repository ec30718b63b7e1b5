import Lox.Proofs.History.Faithful
import Lox.Proofs.Lexical.Fitting
/-! What no code can change. Whatever is done on whatever machine, and however it ends: the code
that follows stands where it stood, frames keep the frame that encloses them, functions and
classes stay what they are, and instances keep their class. Each step keeps this, and so does
each way of putting steps together. -/

namespace Lox

open History

/-- What is bound stays bound. -/
theorem Forest.own?_define_isSome {α : Type} (forest : Forest α) (frame other : FrameId)
    (name query : String) (value : α) (bound : (forest.own? other query).isSome) :
    ((forest.define frame name value).own? other query).isSome := by
  by_cases same : other = frame
  · have present : frame < forest.size := same ▸ Forest.lt_size_of_own? bound
    rw [Forest.own?_define _ present]
    split
    · rfl
    · exact bound
  · rw [Forest.own?_define_other _ _ _ _ _ _ (.inl same)]
    exact bound

namespace Machine

/-- The code stands where it stood, and no frame that was there lies inside another one than
before. -/
structure Restored (before after : Machine) : Prop where
  current : after.current = before.current
  globals : after.globals = before.globals
  links : ∀ frame, frame < before.forest.size →
    after.forest.enclosing? frame = before.forest.enclosing? frame

/-- What a machine can come to, wherever the code stands and whatever distances are known. -/
structure Later (before after : Machine) : Prop where
  globals : after.globals = before.globals
  frames : before.forest.size ≤ after.forest.size
  links : ∀ frame, frame < before.forest.size →
    after.forest.enclosing? frame = before.forest.enclosing? frame
  bound : ∀ frame name, (before.forest.own? frame name).isSome →
    (after.forest.own? frame name).isSome
  functions : ∀ (id : Nat) (closure : Closure FrameId), before.functions[id]? = some closure →
    after.functions[id]? = some closure
  classes : ∀ (id : ClassId) (info : ClassInfo FrameId), before.classes[id]? = some info →
    after.classes[id]? = some info
  objects : ∀ (id : ObjectId) (object : Instance), before.objects[id]? = some object →
    ∃ later : Instance, after.objects[id]? = some later ∧ later.classId = object.classId

/-- What a machine can come to when a piece of code is done. -/
structure Onward (before after : Machine) : Prop extends Later before after where
  current : after.current = before.current
  distances : after.distances = before.distances

variable {before middle after : Machine}

theorem Later.refl (machine : Machine) : Later machine machine :=
  ⟨rfl, Nat.le_refl _, fun _ _ => rfl, fun _ _ => id, fun _ _ => id, fun _ _ => id,
    fun _ object found => ⟨object, found, rfl⟩⟩

theorem Later.trans (first : Later before middle) (second : Later middle after) :
    Later before after where
  globals := second.globals.trans first.globals
  frames := Nat.le_trans first.frames second.frames
  links frame present := (second.links frame (Nat.lt_of_lt_of_le present first.frames)).trans
    (first.links frame present)
  bound frame name known := second.bound frame name (first.bound frame name known)
  functions id closure found := second.functions id closure (first.functions id closure found)
  classes id info found := second.classes id info (first.classes id info found)
  objects id object found := by
    obtain ⟨kept, foundKept, same⟩ := first.objects id object found
    obtain ⟨later, foundLater, again⟩ := second.objects id kept foundKept
    exact ⟨later, foundLater, again.trans same⟩

/-- An instance that is there stays there. -/
theorem Later.objects_size (later : Later before after) :
    before.objects.size ≤ after.objects.size := by
  apply Nat.le_of_not_lt
  intro fewer
  obtain ⟨object, found, _⟩ := later.objects after.objects.size _ (Array.getElem?_eq_getElem fewer)
  exact absurd (Array.getElem?_eq_some_iff.mp found).1 (Nat.lt_irrefl _)

namespace Onward

theorem refl (machine : Machine) : Onward machine machine :=
  ⟨.refl machine, rfl, rfl⟩

theorem trans (first : Onward before middle) (second : Onward middle after) :
    Onward before after :=
  ⟨first.toLater.trans second.toLater, second.current.trans first.current,
    second.distances.trans first.distances⟩

theorem restored (onward : Onward before after) : Restored before after :=
  ⟨onward.current, onward.globals, onward.links⟩

/-! ### Steps -/

/-- Frames may be added and written to. -/
theorem withForest {forest : Forest Value} (frames : before.forest.size ≤ forest.size)
    (links : ∀ frame, frame < before.forest.size →
      forest.enclosing? frame = before.forest.enclosing? frame)
    (bound : ∀ frame name, (before.forest.own? frame name).isSome →
      (forest.own? frame name).isSome) :
    Onward before { before with forest := forest } :=
  { refl before with frames := frames, links := links, bound := bound }

theorem define (machine : Machine) (frame : FrameId) (name : String) (value : Value) :
    Onward machine (machine.define frame name value) :=
  withForest (Nat.le_of_eq (Forest.size_define _ _ _ _).symm)
    (fun other _ => Forest.enclosing?_define _ _ other _ _)
    fun other query known => Forest.own?_define_isSome _ frame other name query value known

theorem defineAll (machine : Machine) (frame : FrameId) (entries : List (String × Value)) :
    Onward machine { machine with forest := machine.forest.defineAll frame entries } := by
  induction entries generalizing machine with
  | nil => exact refl machine
  | cons entry rest induction =>
      exact (define machine frame entry.1 entry.2).trans (induction (machine.define frame _ _))

theorem addFrame (machine : Machine) (outer : FrameId) : Onward machine (machine.addFrame outer) :=
  withForest
    (Nat.le_trans (Nat.le_succ _) (Nat.le_of_eq (Forest.size_add machine.forest outer).symm))
    (fun _ present => Forest.enclosing?_addChild_of_lt _ outer present)
    fun frame name known =>
      (congrArg Option.isSome (Forest.own?_addChild _ _ frame name)).trans known

theorem getElem?_push_of_some {α : Type} {array : Array α} {index : Nat} {value new : α}
    (found : array[index]? = some value) : (array.push new)[index]? = some value := by
  have present := (Array.getElem?_eq_some_iff.mp found).1
  rw [Array.getElem?_push, if_neg (Nat.ne_of_lt present), found]

theorem addFunction (machine : Machine) (closure : Closure FrameId) :
    Onward machine (machine.onHeap (·.addFunction closure)) :=
  { refl machine with functions := fun _ _ => getElem?_push_of_some }

theorem addClass (machine : Machine) (info : ClassInfo FrameId) :
    Onward machine (machine.onHeap (·.addClass info)) :=
  { refl machine with classes := fun _ _ => getElem?_push_of_some }

theorem addObject (machine : Machine) (object : Instance) :
    Onward machine (machine.onHeap (·.addObject object)) :=
  { refl machine with objects := fun _ old found => ⟨old, getElem?_push_of_some found, rfl⟩ }

/-- A field is written, but the class stays. -/
theorem setField (machine : Machine) (id : ObjectId) (name : String) (value : Value) :
    Onward machine (machine.onHeap (·.setField id name value)) := by
  refine { refl machine with objects := fun other object found => ?_ }
  show ∃ later, (machine.objects.modify id _)[other]? = some later ∧ _
  rw [Array.getElem?_modify, found]
  split
  · exact ⟨_, rfl, rfl⟩
  · exact ⟨object, rfl, rfl⟩

theorem withOutput (machine : Machine) (sink : Sink) (ticks : Nat) :
    Onward machine { machine with sink := sink, ticks := ticks } :=
  { refl machine with }

end Onward

end Machine

/-! ## Runs -/

namespace Run

variable {α β : Type}

/-- The run takes every machine to one that it can come to. -/
def Keeps (run : Run α) : Prop :=
  ∀ machine : Machine, machine.Onward (leftBy (run machine))

theorem Keeps.bind {first : Run α} {next : α → Run β} (starts : first.Keeps)
    (goes : ∀ value, (next value).Keeps) : (first >>= next).Keeps := by
  intro machine
  exact leftBy_bind Machine.Onward Machine.Onward.trans (starts machine) fun value middle _ _ =>
    goes value middle

theorem closed_keeps : Closed fun run => run.Keeps where
  value _ machine := .refl machine
  stop _ machine := .refl machine
  bind starts goes := starts.bind goes
  look _ goes machine := goes machine machine
  change {_} change machine := by
    cases change with
    | define frame name value => exact .define machine frame name value
    | defineAll frame entries => exact .defineAll machine frame entries
    | addFrame outer => exact .addFrame machine outer
    | addFunction closure => exact .addFunction machine closure
    | addObject object => exact .addObject machine object
    | setField id name value => exact .setField machine id name value
    | tick => exact .withOutput machine machine.sink (machine.ticks + 1)

/-- Afterwards the previous frame is the current one again. -/
theorem Keeps.inside {body : Run α} (frame : FrameId) (keeps : body.Keeps) :
    (Run.inside frame body).Keeps := by
  intro machine
  have kept := keeps { machine with current := frame }
  rw [run_inside_apply, leftBy_endIn]
  exact { kept with current := rfl }

/-- The line is written as far as it fits, and only then it shows whether it does. -/
theorem print_eq (value : Value) (machine : Machine) :
    print value machine = match machine.sink.writeFault? (machine.text value ++ "\n") with
      | none => .ok () (machine.write (machine.text value ++ "\n"))
      | some fault => .error (.sink fault) (machine.write (machine.text value ++ "\n")) := by
  show (match machine.sink.writeFault? (machine.text value ++ "\n") with
    | none => pure ()
    | some fault => throw (.sink fault) : Run Unit) (machine.write (machine.text value ++ "\n")) = _
  cases machine.sink.writeFault? (machine.text value ++ "\n") <;> rfl

theorem flush_eq (machine : Machine) :
    flush machine = match machine.sink.flushFault? with
      | none => .ok () machine
      | some fault => .error (.sink fault) machine := by
  show (match machine.sink.flushFault? with
    | none => pure ()
    | some fault => throw (.sink fault) : Run Unit) machine = _
  cases machine.sink.flushFault? <;> rfl

theorem keeps_print (value : Value) : (print value).Keeps := by
  intro machine
  rw [print_eq]
  split <;> exact .withOutput machine (machine.sink.write _) machine.ticks

theorem keeps_newClass (info : ClassInfo FrameId) : (newClass info).Keeps :=
  fun machine => .addClass machine info

theorem keeps_flush : flush.Keeps := by
  intro machine
  rw [flush_eq]
  split <;> exact .refl machine

end Run

theorem composes_keeps : Composes fun _ run => run.Keeps where
  value := Run.closed_keeps.value
  stop := Run.closed_keeps.stop
  bind starts goes := starts.bind goes
  look _ goes machine := goes (.of machine) machine
  note _ _ := Run.closed_keeps.value ()
  step _ _ elementary _ := Run.closed_keeps.elementary elementary
  prints _ := Run.keeps_print
  inside frame keeps := keeps.inside frame

theorem compatible_keeps : Compatible fun _ run => run.Keeps :=
  composes_keeps.compatible fun _ => Run.keeps_newClass

/-- All code takes every machine to one that it can come to. -/
theorem code_keeps (fuel : Nat) : Corresponds (fun _ run => run.Keeps) fuel :=
  compatible_keeps.corresponds fuel

theorem evaluate_onward {fuel : Nat} {expr : Expr} {machine after : Machine} {value : Value}
    (ran : evaluate fuel expr machine = .ok value after) : machine.Onward after := by
  have kept := (code_keeps fuel).evaluate none expr machine
  rwa [ran] at kept

theorem execute_onward {fuel : Nat} {stmt : Stmt} {machine after : Machine} {flow : Flow}
    (ran : execute fuel stmt machine = .ok flow after) : machine.Onward after := by
  have kept := (code_keeps fuel).execute none stmt machine
  rwa [ran] at kept

theorem keeps_executeProgram (fuel : Nat) (stmts : List Stmt) :
    (executeProgram fuel stmts).Keeps := by
  induction stmts with
  | nil => exact Run.keeps_flush
  | cons stmt rest induction =>
      exact ((code_keeps fuel).execute none stmt).bind fun _ => induction

/-! ## Sources -/

/-- A source, accepted or not, and however it ends. -/
theorem Session.restored_run (fuel : Nat) (session : Session) (source : String) :
    session.machine.Restored (session.run fuel source).2.machine := by
  by_cases accepted : session.Accepts source
  · rw [Session.run_accepted fuel accepted]
    have kept := keeps_executeProgram fuel (readSource source session.nextId).statements
      (session.ready source)
    revert kept
    cases executeProgram fuel (readSource source session.nextId).statements
      (session.ready source) with
    | ok _ machine => exact fun kept => ⟨kept.current, kept.globals, kept.links⟩
    | error stop machine => exact fun kept => ⟨kept.current, kept.globals, kept.links⟩
  · rcases Session.run_rejected fuel accepted with ⟨problems, ended⟩
    rw [ended]
    exact (Machine.Onward.refl session.machine).restored

/-- Code of any kind, on any machine and however it ends, leaves the current frame and the global
one as they were, and every frame inside the one that it was in; so between two sources of a
session the current frame is the global one. -/
theorem surroundings_restored (fuel : Nat) :
    (∀ machine : Machine,
      (∀ stmt, machine.Restored (leftBy (execute fuel stmt machine))) ∧
      (∀ expr, machine.Restored (leftBy (evaluate fuel expr machine))) ∧
      (∀ frame stmts,
        machine.Restored (leftBy (Run.inside frame (executeAll fuel stmts) machine))) ∧
      (∀ callee paren arguments,
        machine.Restored (leftBy (call fuel callee paren arguments machine))) ∧
      (∀ closure arguments, machine.Restored (leftBy (invoke fuel closure arguments machine))) ∧
      ∀ id arguments, machine.Restored (leftBy (instantiate fuel id arguments machine))) ∧
    (∀ (session : Session) source,
      session.machine.Restored (session.run fuel source).2.machine) ∧
    ∀ sink clock sources,
      ((Session.start sink clock).runAll fuel sources).2.machine.current =
        ((Session.start sink clock).runAll fuel sources).2.machine.globals := by
  have keeps := code_keeps fuel
  refine ⟨fun machine => ⟨?_, ?_, ?_, ?_, ?_, ?_⟩, Session.restored_run fuel, ?_⟩
  · intro stmt
    exact (keeps.execute none stmt machine).restored
  · intro expr
    exact (keeps.evaluate none expr machine).restored
  · intro frame stmts
    exact ((keeps.executeAll none stmts).inside frame machine).restored
  · intro callee paren arguments
    exact (keeps.call none callee paren arguments machine).restored
  · intro closure arguments
    exact (keeps.invoke none closure arguments machine).restored
  · intro id arguments
    exact (keeps.instantiate none id arguments machine).restored
  · intro sink clock sources
    have several (session : Session)
        (outermost : session.machine.current = session.machine.globals) :
        (session.runAll fuel sources).2.machine.current =
          (session.runAll fuel sources).2.machine.globals := by
      induction sources generalizing session with
      | nil => exact outermost
      | cons source rest induction =>
          have kept := Session.restored_run fuel session source
          exact induction _ (kept.current.trans (outermost.trans kept.globals.symm))
    exact several _ rfl

end Lox
