import Lox.Evaluate
import Lox.Proofs.Alike
import Lox.Proofs.Variation.Weaker
/-! Machines that have run variants of the same programs. They are equal but for the trees
that closures hold, and the distances that are recorded for the numbers in them; so each
step does the same on both. -/

namespace Lox

variable {variation weaker : Variation}

/-! ## What has been made -/

structure Closure.Varies (variation : Variation) (closure other : Closure FrameId) : Prop where
  routine : closure.routine.Varies variation other.routine
  place : other.place = closure.place
  isInitializer : other.isInitializer = closure.isInitializer

structure ClassInfo.Varies (variation : Variation) (info other : ClassInfo FrameId) : Prop where
  name : other.name = info.name
  superclass : other.superclass = info.superclass
  methods : TablesAlike (Closure.Varies variation) info.methods other.methods

/-- What relates the two machines between any two steps. -/
structure Machine.Varies (variation : Variation) (machine other : Machine) : Prop where
  functions : ArraysAlike (Closure.Varies variation) machine.functions other.functions
  classes : ArraysAlike (ClassInfo.Varies variation) machine.classes other.classes
  objects : other.objects = machine.objects
  forest : other.forest = machine.forest
  distances : ∀ id id', variation.ids id id' →
    machine.distances.find? id = other.distances.find? id'
  globals : other.globals = machine.globals
  current : other.current = machine.current
  sink : other.sink = machine.sink
  clock : other.clock = machine.clock
  ticks : other.ticks = machine.ticks

/-- The same fault, blamed on the same place. -/
inductive Stop.Varies (variation : Variation) : Stop → Stop → Prop
  | fault {problem token token'} : variation.tokens token token' →
      Varies variation (.fault problem token.line) (.fault problem token'.line)
  | sink {problem} : Varies variation (.sink problem) (.sink problem)
  | exhausted : Varies variation .exhausted .exhausted

theorem Variation.Texts.lexemes {tokens others : List Token}
    (texts : variation.Texts tokens others) :
    others.map Token.lexeme = tokens.map Token.lexeme := by
  induction texts with
  | nil => rfl
  | cons same _ induction => rw [List.map_cons, List.map_cons, induction, variation.lexeme same]

section

variable {routine routine' : Routine}

theorem Routine.Varies.name (varies : routine.Varies variation routine') :
    routine'.name.lexeme = routine.name.lexeme := by
  cases varies with
  | mk same _ _ => exact variation.lexeme same

theorem Routine.Varies.arity (varies : routine.Varies variation routine') :
    routine'.arity = routine.arity := by
  cases varies with
  | mk _ parameters _ => exact parameters.length_eq.symm

theorem Routine.Varies.parameters (varies : routine.Varies variation routine') :
    routine'.parameters.map Token.lexeme = routine.parameters.map Token.lexeme := by
  cases varies with
  | mk _ parameters _ => exact Variation.Texts.lexemes parameters

theorem Routine.Varies.body (varies : routine.Varies variation routine') :
    Stmt.AllVary variation routine.body routine'.body := by
  cases varies with
  | mk _ _ body => exact body

end

namespace Machine.Varies

variable {machine other : Machine}

/-! ## Looking -/

theorem method? (varies : machine.Varies variation other) (id : ClassId) (name : String) :
    Option.Rel (Closure.Varies variation) (machine.method? id name) (other.method? id name) := by
  induction id using Nat.strongRecOn with
  | ind id induction =>
      rw [Heap.method?.eq_def machine.toHeap, Heap.method?.eq_def other.toHeap]
      have entry := varies.classes.entries id
      revert entry
      generalize machine.classes[id]? = info?
      generalize other.classes[id]? = info?'
      rintro (@⟨info, info', same⟩ | _)
      · have method := same.methods name
        dsimp only
        rw [same.superclass]
        revert method
        generalize info.methods.find? name = method?
        generalize info'.methods.find? name = method?'
        rintro (found | _)
        · exact .some found
        · cases info.superclass with
          | none => exact .none
          | some superclass =>
              by_cases older : superclass < id
              · simp only [older, if_true]
                exact induction superclass older
              · simp only [older, if_false]
                exact .none
      · exact .none

theorem arity? (varies : machine.Varies variation other) (callee : Value) :
    other.arity? callee = machine.arity? callee := by
  cases callee with
  | function id =>
      have entry := varies.functions.entries id
      show (other.functions[id]?).map _ = (machine.functions[id]?).map _
      revert entry
      generalize machine.functions[id]? = closure?
      generalize other.functions[id]? = closure?'
      rintro (same | _)
      · exact congrArg some same.routine.arity
      · rfl
  | classRef id =>
      have entry := varies.method? id initializerName
      show some (((other.method? id initializerName).map _).getD 0) =
        some (((machine.method? id initializerName).map _).getD 0)
      revert entry
      generalize machine.method? id initializerName = method?
      generalize other.method? id initializerName = method?'
      rintro (same | _)
      · exact congrArg some same.routine.arity
      · rfl
  | _ => rfl

theorem className (varies : machine.Varies variation other) (id : ClassId) :
    other.className id = machine.className id := by
  have entry := varies.classes.entries id
  rw [Heap.className, Heap.className]
  revert entry
  generalize machine.classes[id]? = info?
  generalize other.classes[id]? = info?'
  rintro (same | _)
  · exact same.name
  · rfl

/-- A value prints the same on both sides. -/
theorem text (varies : machine.Varies variation other) (value : Value) :
    other.text value = machine.text value := by
  cases value with
  | function id =>
      have entry := varies.functions.entries id
      show "<fn " ++ ((other.functions[id]?).map _).getD "" ++ ">" =
        "<fn " ++ ((machine.functions[id]?).map _).getD "" ++ ">"
      revert entry
      generalize machine.functions[id]? = closure?
      generalize other.functions[id]? = closure?'
      rintro (same | _)
      · exact congrArg (fun name => "<fn " ++ name ++ ">") same.routine.name
      · rfl
  | classRef id => exact varies.className id
  | object id =>
      show ((other.objects[id]?).map _).getD "" ++ " instance" =
        ((machine.objects[id]?).map _).getD "" ++ " instance"
      rw [varies.objects]
      cases machine.objects[id]? with
      | none => rfl
      | some object => exact congrArg (· ++ " instance") (varies.className object.classId)
  | bool value => cases value <;> rfl
  | _ => rfl

theorem place (varies : machine.Varies variation other) {id id' : OccurrenceId}
    (ids : variation.ids id id') (name : String) : other.place id' name = machine.place id name := by
  rw [Machine.place, Machine.place, ← varies.distances id id' ids, varies.forest, varies.current,
    varies.globals]

theorem valueOf (varies : machine.Varies variation other) {id id' : OccurrenceId}
    (ids : variation.ids id id') (name : String) :
    other.valueOf id' name = machine.valueOf id name := by
  rw [Machine.valueOf, Machine.valueOf, varies.place ids, varies.forest]

/-! ## Changing -/

theorem withForest (varies : machine.Varies variation other)
    (change : Forest Value → Forest Value) :
    Machine.Varies variation { machine with forest := change machine.forest }
      { other with forest := change other.forest } :=
  ⟨varies.functions, varies.classes, varies.objects, congrArg change varies.forest,
    varies.distances, varies.globals, varies.current, varies.sink, varies.clock, varies.ticks⟩

theorem define (varies : machine.Varies variation other) (frame : FrameId) (name : String)
    (value : Value) :
    (machine.define frame name value).Varies variation (other.define frame name value) :=
  varies.withForest (·.define frame name value)

theorem move (varies : machine.Varies variation other) (frame : FrameId) :
    Machine.Varies variation { machine with current := frame } { other with current := frame } :=
  ⟨varies.functions, varies.classes, varies.objects, varies.forest, varies.distances,
    varies.globals, rfl, varies.sink, varies.clock, varies.ticks⟩

theorem addFunction (varies : machine.Varies variation other) {closure closure' : Closure FrameId}
    (same : closure.Varies variation closure') :
    (machine.onHeap (·.addFunction closure)).Varies variation
      (other.onHeap (·.addFunction closure')) :=
  ⟨varies.functions.push same, varies.classes, varies.objects, varies.forest, varies.distances,
    varies.globals, varies.current, varies.sink, varies.clock, varies.ticks⟩

theorem addClass (varies : machine.Varies variation other) {info info' : ClassInfo FrameId}
    (same : info.Varies variation info') :
    (machine.onHeap (·.addClass info)).Varies variation (other.onHeap (·.addClass info')) :=
  ⟨varies.functions, varies.classes.push same, varies.objects, varies.forest, varies.distances,
    varies.globals, varies.current, varies.sink, varies.clock, varies.ticks⟩

/-- A change that does not depend on closures. -/
theorem onObjects (varies : machine.Varies variation other)
    (change : Array Instance → Array Instance) :
    (machine.onHeap fun heap => { heap with objects := change heap.objects }).Varies variation
      (other.onHeap fun heap => { heap with objects := change heap.objects }) :=
  ⟨varies.functions, varies.classes, congrArg change varies.objects, varies.forest,
    varies.distances, varies.globals, varies.current, varies.sink, varies.clock, varies.ticks⟩

theorem write (varies : machine.Varies variation other) (text : String) :
    (machine.write text).Varies variation (other.write text) :=
  ⟨varies.functions, varies.classes, varies.objects, varies.forest, varies.distances,
    varies.globals, varies.current, congrArg (·.write text) varies.sink, varies.clock,
    varies.ticks⟩

theorem tick (varies : machine.Varies variation other) :
    Machine.Varies variation { machine with ticks := machine.ticks + 1 }
      { other with ticks := other.ticks + 1 } :=
  ⟨varies.functions, varies.classes, varies.objects, varies.forest, varies.distances,
    varies.globals, varies.current, varies.sink, varies.clock, congrArg (· + 1) varies.ticks⟩

end Machine.Varies

/-! ## Runs -/

variable {α β : Type}

/-- The two runs end alike. -/
def EndsVary (variation : Variation) (related : α → α → Prop) :
    EStateM.Result Stop Machine α → EStateM.Result Stop Machine α → Prop
  | .ok value machine, .ok value' machine' => related value value' ∧ machine.Varies variation machine'
  | .error stop machine, .error stop' machine' =>
      stop.Varies variation stop' ∧ machine.Varies variation machine'
  | _, _ => False

/-- From machines that vary each other the two runs end alike. -/
def Run.Varies (variation : Variation) (related : α → α → Prop) (run other : Run α) : Prop :=
  ∀ machine machine', machine.Varies variation machine' →
    EndsVary variation related (run machine) (other machine')

namespace Run

variable {related : α → α → Prop} {found : β → β → Prop} {run other : Run α}

theorem varies_pure {value value' : α} (holds : related value value') :
    (pure value : Run α).Varies variation related (pure value') :=
  fun _ _ varies => ⟨holds, varies⟩

theorem Varies.bind {next next' : α → Run β} (first : run.Varies variation related other)
    (second : ∀ value value', related value value' →
      (next value).Varies variation found (next' value')) :
    (run >>= next).Varies variation found (other >>= next') := by
  intro machine machine' varies
  have ended := first machine machine' varies
  show EndsVary variation found (EStateM.bind run next machine) (EStateM.bind other next' machine')
  rw [EStateM.bind, EStateM.bind]
  revert ended
  generalize run machine = result
  generalize other machine' = result'
  intro ended
  cases result with
  | ok value machine =>
      cases result' with
      | ok value' machine' => exact second value value' ended.1 machine machine' ended.2
      | error _ _ => exact ended.elim
  | error stop machine =>
      cases result' with
      | ok _ _ => exact ended.elim
      | error _ _ => exact ended

/-- A step that yields the same value on both sides. -/
theorem Varies.same {next next' : α → Run β} (first : run.Varies variation Eq other)
    (second : ∀ value, (next value).Varies variation found (next' value)) :
    (run >>= next).Varies variation found (other >>= next') := by
  refine first.bind ?_
  rintro value _ rfl
  exact second value

/-- Both runs look at their machines first. -/
theorem varies_get {next next' : Machine → Run β}
    (second : ∀ machine machine', machine.Varies variation machine' →
      (next machine).Varies variation found (next' machine')) :
    (get >>= next).Varies variation found (get >>= next') :=
  fun machine machine' varies => second machine machine' varies machine machine' varies

theorem varies_modify {change change' : Machine → Machine}
    (kept : ∀ machine machine', machine.Varies variation machine' →
      (change machine).Varies variation (change' machine')) :
    (modify change : Run Unit).Varies variation Eq (modify change') :=
  fun machine machine' varies => ⟨rfl, kept machine machine' varies⟩

theorem varies_fault (problem : RuntimeFault) {token token' : Token}
    (same : variation.tokens token token') :
    Run.Varies variation related (fault problem token : Run α) (fault problem token') :=
  fun _ _ varies => ⟨.fault same, varies⟩

theorem varies_exhausted : (throw .exhausted : Run α).Varies variation related (throw .exhausted) :=
  fun _ _ varies => ⟨.exhausted, varies⟩

theorem varies_ofExcept (result : Except RuntimeFault α) {token token' : Token}
    (same : variation.tokens token token') :
    Run.Varies variation Eq (ofExcept result token : Run α) (ofExcept result token') := by
  cases result with
  | ok value => exact varies_pure rfl
  | error problem => exact varies_fault problem same

/-! ## Elementary steps -/

theorem varies_lookUp {id id' : OccurrenceId} (ids : variation.ids id id') {name name' : Token}
    (same : variation.tokens name name') :
    (lookUp id name).Varies variation Eq (lookUp id' name') := by
  refine varies_get fun machine machine' varies => ?_
  rw [variation.lexeme same, varies.valueOf ids]
  exact varies_ofExcept _ same

theorem varies_store {id id' : OccurrenceId} (ids : variation.ids id id') {name name' : Token}
    (same : variation.tokens name name') (value : Value) :
    (store id name value).Varies variation Eq (store id' name' value) := by
  refine varies_get fun machine machine' varies => ?_
  rw [variation.lexeme same, varies.place ids]
  refine (varies_ofExcept _ same).same fun target => varies_modify fun _ _ varies => ?_
  exact varies.define target name.lexeme value

theorem varies_define (name : String) (value : Value) :
    (define name value).Varies variation Eq (define name value) := by
  refine varies_modify fun machine machine' varies => ?_
  rw [varies.current]
  exact varies.define machine.current name value

theorem varies_storeByName {name name' : Token} (same : variation.tokens name name')
    (value : Value) : (storeByName name value).Varies variation Eq (storeByName name' value) := by
  refine varies_get fun machine machine' varies => ?_
  rw [variation.lexeme same, varies.forest, varies.current]
  refine (varies_ofExcept _ same).same fun target => varies_modify fun _ _ varies => ?_
  exact varies.define target name.lexeme value

theorem varies_newFrame (enclosing : FrameId) :
    (newFrame enclosing).Varies variation Eq (newFrame enclosing) := by
  refine varies_get fun machine machine' varies => ?_
  rw [varies.forest]
  refine (varies_modify fun _ _ varies => ?_).same fun _ => varies_pure rfl
  exact varies.withForest (·.addChild enclosing)

theorem varies_newFunction {closure closure' : Closure FrameId}
    (same : closure.Varies variation closure') :
    (newFunction closure).Varies variation Eq (newFunction closure') := by
  refine varies_get fun machine machine' varies => ?_
  rw [varies.functions.size]
  exact (varies_modify fun _ _ varies => varies.addFunction same).same fun _ => varies_pure rfl

theorem varies_newClass {info info' : ClassInfo FrameId} (same : info.Varies variation info') :
    (newClass info).Varies variation Eq (newClass info') := by
  refine varies_get fun machine machine' varies => ?_
  rw [varies.classes.size]
  exact (varies_modify fun _ _ varies => varies.addClass same).same fun _ => varies_pure rfl

theorem varies_newObject (classId : ClassId) :
    (newObject classId).Varies variation Eq (newObject classId) := by
  refine varies_get fun machine machine' varies => ?_
  rw [varies.objects]
  refine (varies_modify fun _ _ varies => ?_).same fun _ => varies_pure rfl
  exact varies.onObjects (·.push ⟨classId, ∅⟩)

theorem varies_bind {method method' : Closure FrameId} (same : method.Varies variation method')
    (receiver : ObjectId) :
    (bind method receiver).Varies variation (Closure.Varies variation) (bind method' receiver) := by
  rw [bind, bind, same.place]
  refine (varies_newFrame method.place).same fun frame =>
    (varies_modify fun _ _ varies => ?_).same fun _ => varies_pure ?_
  · exact varies.define frame thisName (.object receiver)
  · exact ⟨same.routine, rfl, same.isInitializer⟩

/-- A copy of a method, as a value. -/
theorem varies_newMethod {method method' : Closure FrameId} (same : method.Varies variation method')
    (receiver : ObjectId) :
    (do newFunction (← bind method receiver)).Varies variation Eq
      (do newFunction (← bind method' receiver)) :=
  (varies_bind same receiver).bind fun _ _ bound => varies_newFunction bound

theorem Varies.inside {body body' : Run α} (varies : body.Varies variation related body')
    (frame : FrameId) : (inside frame body).Varies variation related (inside frame body') := by
  intro machine machine' start
  have ended := varies _ _ (start.move frame)
  rw [Run.inside, Run.inside, start.current]
  revert ended
  generalize body { machine with current := frame } = result
  generalize body' { machine' with current := frame } = result'
  intro ended
  cases result with
  | ok value after =>
      cases result' with
      | ok _ _ => exact ⟨ended.1, ended.2.move machine.current⟩
      | error _ _ => exact ended.elim
  | error stop after =>
      cases result' with
      | ok _ _ => exact ended.elim
      | error _ _ => exact ⟨ended.1, ended.2.move machine.current⟩

theorem varies_print (value : Value) : (print value).Varies variation Eq (print value) := by
  refine varies_get fun machine machine' varies => ?_
  rw [varies.text, varies.sink]
  refine (varies_modify fun _ _ varies => varies.write _).same fun _ => ?_
  split
  · exact varies_pure rfl
  · exact fun _ _ varies => ⟨.sink, varies⟩

theorem varies_flush : flush.Varies variation Eq flush := by
  refine varies_get fun machine machine' varies => ?_
  rw [varies.sink]
  split
  · exact varies_pure rfl
  · exact fun _ _ varies => ⟨.sink, varies⟩

theorem varies_property (id : ObjectId) {name name' : Token} (same : variation.tokens name name') :
    (property id name).Varies variation Eq (property id name') := by
  refine varies_get fun machine machine' varies => ?_
  dsimp only
  rw [variation.lexeme same, varies.objects]
  split
  · exact varies_pure rfl
  · cases machine.objects[id]? with
    | none => exact varies_fault _ same
    | some object =>
        have entry := varies.method? object.classId name.lexeme
        simp only [Option.bind_some]
        revert entry
        generalize machine.method? object.classId name.lexeme = method?
        generalize machine'.method? object.classId name.lexeme = method?'
        rintro (method | _)
        · exact varies_newMethod method id
        · exact varies_fault _ same

theorem varies_readClock : readClock.Varies variation Eq readClock := by
  refine varies_get fun machine machine' varies => ?_
  rw [varies.clock, varies.ticks]
  exact (varies_modify fun _ _ varies => varies.tick).same fun _ => varies_pure rfl

end Run

end Lox
