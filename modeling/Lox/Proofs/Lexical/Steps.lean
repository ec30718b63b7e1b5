import Lox.Proofs.Lexical.Agreement
/-! The elementary steps of the two machines agree: reading and writing variables, making
functions, classes and instances, binding methods, and what the sink and the clock do. -/

namespace Lox.Lexical

open Scope World

variable {recorded : OccurrenceId → Option Nat → Prop} {world : World} {frame : FrameId}
  {scopes : List Scope} {environment : Environment}

/-! ## Variables -/

namespace World

/-- A name that is declared around the code means the same on both sides. -/
theorem Sound.content?_declared (sound : Sound recorded world)
    (fits : world.Fits frame scopes environment) {name : String} {distance : Nat}
    {state : NameState} (known : locate? scopes name = some (distance, state)) :
    ∃ target, world.forest.ancestor? frame distance = some target ∧
      world.chained.content? environment name = world.forest.own? target name ∧
      (state = .ready → (world.forest.own? target name).isSome) := by
  rcases fits.present known with ⟨target, location, reached, found, located, bound⟩
  rcases sound.cells.contents location target name located with ⟨_, _, content⟩
  refine ⟨target, reached, ?_, bound⟩
  rw [Machine.content?, found]
  exact congrArg Option.join content

theorem Sound.content?_global (sound : Sound recorded world)
    (fits : world.Fits frame scopes environment) {name : String}
    (unknown : locate? scopes name = none) :
    world.chained.content? environment name = world.forest.own? world.framed.globals name := by
  rw [Machine.content?, fits.absent unknown]
  exact (sound.cells.globals name).symm

/-- A name that has its value can be read at its distance. -/
theorem Sound.getAt (sound : Sound recorded world) (fits : world.Fits frame scopes environment)
    {name : String} {distance : Nat} (known : locate? scopes name = some (distance, .ready)) :
    ∃ target value, world.forest.ancestor? frame distance = some target ∧
      world.forest.own? target name = some value ∧
      world.forest.getAt frame distance name = .ok value ∧
      world.chained.valueOf environment name = .ok value := by
  rcases sound.content?_declared fits known with ⟨target, reached, same, bound⟩
  rcases Option.isSome_iff_exists.mp (bound rfl) with ⟨value, found⟩
  refine ⟨target, value, reached, found, ?_, ?_⟩
  · rw [Forest.getAt, Forest.placeAt, reached]
    show world.forest.readOwn name target = _
    rw [Forest.readOwn, found]
  · rw [Machine.valueOf, same, found]

theorem Sound.valueOf (sound : Sound recorded world)
    (fits : world.Fits world.framed.current scopes environment) {id : OccurrenceId} {name : String}
    (known : recorded id (distance? scopes name)) :
    world.framed.valueOf id name = world.chained.valueOf environment name := by
  have recorded := sound.distances _ _ known
  rw [Lox.Machine.valueOf, Lox.Machine.place, recorded, Machine.valueOf, distance?]
  cases located : locate? scopes name with
  | none =>
      rw [sound.content?_global fits located]
      show (world.forest.place world.framed.globals name >>= world.forest.readOwn name) = _
      rw [Forest.place_root sound.cells.root]
      cases found : world.forest.own? world.framed.globals name with
      | none => rfl
      | some value =>
          show world.forest.readOwn name world.framed.globals = _
          rw [Forest.readOwn, found]
  | some declared =>
      rcases declared with ⟨distance, state⟩
      rcases sound.content?_declared fits located with ⟨target, reached, same, _⟩
      show (world.forest.placeAt world.framed.current distance name >>=
        world.forest.readOwn name) = _
      rw [Forest.placeAt, reached, same]
      show world.forest.readOwn name target = _
      rw [Forest.readOwn]
      cases world.forest.own? target name <;> rfl

end World

/-- Reading a name that has no value is the only thing that can go wrong. -/
theorem Machine.valueOf_expected {machine : Machine} {name : String} {problem : RuntimeFault}
    (failed : machine.valueOf environment name = .error problem) : problem.Expected := by
  rw [Machine.valueOf] at failed
  split at failed
  · cases failed
  · cases failed
    trivial

theorem Agrees.lookUp (sound : Sound recorded world)
    (fits : world.Fits world.framed.current scopes environment) {id : OccurrenceId} {name : Token}
    (known : recorded id (distance? scopes name.lexeme)) :
    Agrees recorded Nothing world Same (Run.lookUp id name) (lookUp environment name) := by
  refine Agrees.get ?_
  rw [sound.valueOf fits known]
  exact .ofExcept (fun _ => Machine.valueOf_expected) sound

theorem sorted_ordinary {name : Token} (ordinary : name.Ordinary) (value : Value) :
    Sorted name.lexeme value :=
  ⟨fun same => absurd same ordinary.notThis, fun same => absurd same ordinary.notSuper⟩

theorem Agrees.assign (sound : Sound recorded world)
    (fits : world.Fits world.framed.current scopes environment) {id : OccurrenceId} {name : Token}
    (ordinary : name.Ordinary) (known : recorded id (distance? scopes name.lexeme))
    (value : Value) :
    Agrees recorded Nothing world Same (Run.store id name value)
      (assign environment name value) := by
  have sort := sorted_ordinary ordinary value
  have recorded' := sound.distances _ _ known
  refine Agrees.get ?_
  rw [Lox.Machine.place, recorded', Machine.canAssign, distance?]
  cases located : locate? scopes name.lexeme with
  | none =>
      show Agrees _ _ _ _ (Run.ofExcept
        (world.forest.place world.framed.globals name.lexeme) name >>= _) _
      have same := sound.cells.globals name.lexeme
      rw [Forest.place_root sound.cells.root, fits.absent located, Table.contains_eq, ← same]
      cases found : world.forest.own? world.framed.globals name.lexeme with
      | none => exact .fault trivial sound
      | some old =>
          have written := sound.writeGlobal sort
          refine Agrees.of_ok _ _ rfl ?_ later_define written rfl
          show EStateM.Result.ok PUnit.unit (world.chained.set environment name.lexeme value) = _
          rw [Machine.set, fits.absent located]
  | some declared =>
      rcases declared with ⟨distance, state⟩
      rcases fits.present located with ⟨target, location, reached, found, placed, _⟩
      show Agrees _ _ _ _ (Run.ofExcept
        (world.forest.placeAt world.framed.current distance name.lexeme) name >>= _) _
      rw [Forest.placeAt, reached, found]
      have written := sound.write placed sort
      refine Agrees.of_ok _ _ rfl ?_ later_define written rfl
      show EStateM.Result.ok PUnit.unit (world.chained.set environment name.lexeme value) = _
      rw [Machine.set, found]

/-! ## Declarations -/

namespace World

/-- Parameters and arguments are declared together, one after another. -/
theorem Stands.defineAll {scope : Scope} (parameters : List Token) (arguments : List Value)
    (stands : world.Stands frame (scope :: scopes) environment) (sound : Sound recorded world)
    (enough : arguments.length = parameters.length)
    (ordinary : ∀ parameter ∈ parameters, parameter.Ordinary)
    (free : ∀ parameter ∈ parameters, scope.find? parameter.lexeme = none)
    (distinct : (parameters.map Token.lexeme).Nodup) :
    ∃ environment' after,
      after.framed = { world.framed with
        forest := world.forest.defineAll frame ((parameters.map Token.lexeme).zip arguments) } ∧
      defineAll environment ((parameters.map Token.lexeme).zip arguments) world.chained =
        .ok environment' after.chained ∧
      Later (· = frame) world after ∧ Sound recorded after ∧
      after.Stands frame
        (parameters.foldl (fun scope name => scope.set name.lexeme .ready) scope :: scopes)
        environment' := by
  induction parameters generalizing arguments scope environment world with
  | nil => exact ⟨environment, world, rfl, rfl, .refl world, sound, stands⟩
  | cons parameter parameters induction =>
      cases arguments with
      | nil => cases enough
      | cons argument arguments =>
          have mine := ordinary parameter List.mem_cons_self
          have unscoped : Free (scope :: scopes) parameter.lexeme := by
            rintro _ ⟨⟩
            exact free parameter List.mem_cons_self
          rcases stands.declare sound unscoped with
            ⟨inner, declared, framed, chained, later, declaredSound, declaredStands⟩
          rcases declaredStands.define declaredSound (sorted_ordinary mine argument) with
            ⟨defined, definedFramed, definedChained, further, definedSound, definedStands⟩
          rcases List.nodup_cons.mp distinct with ⟨new, distinct⟩
          have others : ∀ other ∈ parameters,
              (scope.set parameter.lexeme .ready).find? other.lexeme = none := by
            intro other member
            rw [Table.find?_set_other]
            · exact free other (List.mem_cons_of_mem _ member)
            · intro same
              exact new (same ▸ List.mem_map_of_mem member)
          rcases induction arguments definedStands definedSound (Nat.succ.inj enough)
            (fun other member => ordinary other (List.mem_cons_of_mem _ member)) others
            distinct with ⟨final, after, framedAll, chainedAll, last, afterSound, afterStands⟩
          refine ⟨final, after, ?_, ?_, ?_, afterSound, afterStands⟩
          · rw [framedAll, World.forest, definedFramed, framed]
            rfl
          · show EStateM.bind (Lexical.declare environment parameter.lexeme) _ world.chained = _
            rw [EStateM.bind, chained]
            show Lexical.defineAll inner _ (declared.chained.set _ _ _) = _
            rw [← definedChained]
            exact chainedAll
          · exact (later.trans (further.weaken fun _ => False.elim)).trans last

end World

/-! ## What is made -/

section

variable {extends? : FrameId → Prop}

namespace World

/-- The same place, after things have been made. -/
def withHeaps (world : World) (framed : Heap FrameId) (chained : Heap Environment) : World :=
  ⟨world.layout, { world.framed with toHeap := framed }, { world.chained with toHeap := chained }⟩

variable {framed : Heap FrameId} {chained : Heap Environment}

theorem later_withHeaps : Later extends? world (world.withHeaps framed chained) := by
  refine ⟨rfl, rfl, rfl, Nat.le_refl _, fun _ _ => id, fun _ _ => id, List.prefix_rfl, ?_⟩
  intro index other query beyond found
  cases (List.getElem?_eq_none beyond).symm.trans found

theorem Sound.withHeaps (sound : Sound recorded world)
    (functions : ArraysAlike (FunctionsAlike recorded world) framed.functions chained.functions)
    (classes : ArraysAlike (ClassesAlike recorded world) framed.classes chained.classes)
    (objects : chained.objects = framed.objects) :
    Sound recorded (world.withHeaps framed chained) := by
  refine ⟨sound.distances, ⟨sound.cells.length, sound.cells.nodup, sound.cells.contents,
    sound.cells.covered, sound.cells.root, sound.cells.present, sound.cells.globals⟩,
    ⟨?_, ?_, objects⟩, sound.sorted, sound.sink, sound.clock, sound.ticks⟩
  · exact functions.mono fun _ _ same => same.mono fun _ _ _ => id
  · exact classes.mono fun _ _ same => same.mono fun _ _ _ => id

/-- Objects are the same on both sides, so they can be changed in the same way. -/
theorem Sound.changed (sound : Sound recorded world) (change : Array Instance → Array Instance) :
    Sound recorded (world.withHeaps
      { world.framed.toHeap with objects := change world.framed.objects }
      { world.chained.toHeap with objects := change world.chained.objects }) :=
  sound.withHeaps sound.heaps.functions sound.heaps.classes (congrArg change sound.heaps.objects)

end World

namespace Agrees

theorem newFunction (sound : Sound recorded world) {framed : Closure FrameId}
    {chained : Closure Environment} (alike : FunctionsAlike recorded world framed chained) :
    Agrees recorded extends? world Same (Run.newFunction framed) (newFunction chained) := by
  have heaps := sound.heaps
  have grown : Sound recorded (world.withHeaps (world.framed.addFunction framed)
      (world.chained.addFunction chained)) :=
    sound.withHeaps (heaps.functions.push alike) heaps.classes heaps.objects
  exact .of_ok _ _ rfl rfl later_withHeaps grown (congrArg Value.function heaps.functions.size.symm)

theorem newClass (sound : Sound recorded world) {framed : ClassInfo FrameId}
    {chained : ClassInfo Environment} (alike : ClassesAlike recorded world framed chained) :
    Agrees recorded extends? world
      (fun _ value other => other = value ∧ ∃ id, value = .classRef id)
      (Run.newClass framed) (newClass chained) := by
  have heaps := sound.heaps
  have grown : Sound recorded (world.withHeaps (world.framed.addClass framed)
      (world.chained.addClass chained)) :=
    sound.withHeaps heaps.functions (heaps.classes.push alike) heaps.objects
  exact .of_ok _ _ rfl rfl later_withHeaps grown
    ⟨congrArg Value.classRef heaps.classes.size.symm, _, rfl⟩

theorem setField (sound : Sound recorded world) (id : ObjectId) (name : String) (value : Value) :
    Agrees recorded extends? world Same
      (modify (·.onHeap (·.setField id name value)) : Lox.Run PUnit)
      (modify (·.onHeap (·.setField id name value)) : Run PUnit) :=
  .of_ok _ _ rfl rfl later_withHeaps (sound.changed fun objects => objects.modify id fun object =>
    { object with fields := object.fields.set name value }) rfl

/-- A new object changes no class. -/
theorem newObject (sound : Sound recorded world) (classId : ClassId) :
    Agrees recorded extends? world
      (fun after object other => other = object ∧ after.framed.classes = world.framed.classes)
      (Run.newObject classId) (newObject classId) :=
  .of_ok _ _ rfl rfl later_withHeaps (sound.changed (·.push ⟨classId, ∅⟩))
    ⟨congrArg Array.size sound.heaps.objects, rfl⟩

end Agrees

end

/-! ## Methods -/

/-- Methods are found in classes only. -/
theorem method?_of_classes {Place : Type} {heap other : Heap Place}
    (classes : heap.classes = other.classes)
    (id : ClassId) (name : String) : heap.method? id name = other.method? id name := by
  induction id using Nat.strongRecOn with
  | ind id induction =>
      rw [Heap.method?, Heap.method?.eq_def other, classes]
      cases other.classes[id]? with
      | none => rfl
      | some info =>
          dsimp only
          cases info.methods.find? name with
          | some method => rfl
          | none =>
              cases info.superclass with
              | none => rfl
              | some superclass =>
                  dsimp only
                  split
                  · exact induction superclass ‹_›
                  · rfl

namespace World

theorem HeapsAlike.method? (alike : HeapsAlike recorded world) (id : ClassId) (name : String) :
    Option.Rel (MethodsAlike recorded world) (world.framed.method? id name)
      (world.chained.method? id name) := by
  induction id using Nat.strongRecOn with
  | ind id induction =>
      rw [Heap.method?.eq_def world.framed.toHeap, Heap.method?.eq_def world.chained.toHeap]
      have entry := alike.classes.entries id
      revert entry
      generalize world.framed.classes[id]? = framed?
      generalize world.chained.classes[id]? = chained?
      rintro (same | _)
      · rename_i framed chained
        have method := same.methods name
        dsimp only
        rw [same.superclass]
        revert method
        generalize framed.methods.find? name = framedMethod?
        generalize chained.methods.find? name = chainedMethod?
        rintro (found | _)
        · exact .some found
        · cases framed.superclass with
          | none => exact .none
          | some superclass =>
              by_cases older : superclass < id
              · simp only [older, if_true]
                exact induction superclass older
              · simp only [older, if_false]
                exact .none
      · exact .none

theorem HeapsAlike.arity? (alike : HeapsAlike recorded world) (callee : Value) :
    world.chained.arity? callee = world.framed.arity? callee := by
  cases callee with
  | function id =>
      have entry := alike.functions.entries id
      show (world.chained.functions[id]?).map _ = (world.framed.functions[id]?).map _
      revert entry
      generalize world.framed.functions[id]? = framed?
      generalize world.chained.functions[id]? = chained?
      rintro (same | _)
      · exact congrArg (fun routine => some routine.arity) same.routine
      · rfl
  | classRef id =>
      have entry := alike.method? id initializerName
      show some (((world.chained.method? id initializerName).map _).getD 0) =
        some (((world.framed.method? id initializerName).map _).getD 0)
      revert entry
      generalize world.framed.method? id initializerName = framed?
      generalize world.chained.method? id initializerName = chained?
      rintro (same | _)
      · exact congrArg (fun routine => some routine.arity) same.routine
      · rfl
  | _ => rfl

theorem HeapsAlike.className (alike : HeapsAlike recorded world) (id : ClassId) :
    world.chained.className id = world.framed.className id := by
  have entry := alike.classes.entries id
  rw [Heap.className, Heap.className]
  revert entry
  generalize world.framed.classes[id]? = framed?
  generalize world.chained.classes[id]? = chained?
  rintro (same | _)
  · exact same.name
  · rfl

/-- A value prints the same on both sides. -/
theorem HeapsAlike.text (alike : HeapsAlike recorded world) (value : Value) :
    world.chained.text value = world.framed.text value := by
  cases value with
  | function id =>
      have entry := alike.functions.entries id
      show "<fn " ++ ((world.chained.functions[id]?).map _).getD "" ++ ">" =
        "<fn " ++ ((world.framed.functions[id]?).map _).getD "" ++ ">"
      revert entry
      generalize world.framed.functions[id]? = framed?
      generalize world.chained.functions[id]? = chained?
      rintro (same | _)
      · exact congrArg (fun routine : Routine => "<fn " ++ routine.name.lexeme ++ ">") same.routine
      · rfl
  | classRef id => exact alike.className id
  | object id =>
      show (world.chained.objects[id]?.map fun object =>
        world.chained.className object.classId).getD "" ++ " instance" = _
      rw [alike.objects]
      simp only [alike.className]
      rfl
  | bool value => cases value <;> rfl
  | _ => rfl

end World

/-- Code in a frame of its own, with one name in it. -/
theorem World.Sound.enclosed (sound : Sound recorded world)
    (fits : world.Fits frame scopes environment) {name : String} {value : Value}
    (sort : Sorted name value) :
    ∃ environment' declared after,
      after.framed =
        (world.framed.addFrame frame).define world.framed.forest.size name value ∧
      declare environment.enter name world.chained = .ok environment' declared ∧
      after.chained = declared.set environment' name value ∧
      Later Nothing world after ∧ Sound recorded after ∧
      after.Fits world.framed.forest.size ((∅ : Scope).set name .ready :: scopes) environment' := by
  have entered := stands_addFrame sound fits
  have unscoped : Free (∅ :: scopes) name := by
    rintro _ ⟨⟩
    rfl
  rcases entered.declare (sound.addFrame frame) unscoped with
    ⟨inner, declared, framed, chained, later, declaredSound, declaredStands⟩
  rcases declaredStands.define declaredSound sort with
    ⟨after, afterFramed, afterChained, further, afterSound, afterStands⟩
  have step : Later (· = world.forest.size) world after :=
    ((later_addFrame frame).trans later).trans (further.weaken nofun)
  refine ⟨inner, declared.chained, after, ?_, chained, afterChained, ?_, afterSound,
    afterStands.fits⟩
  · rw [afterFramed, framed]
    rfl
  · refine step.weaken ?_
    rintro _ rfl
    exact .inl (Nat.le_refl _)

namespace Agrees

theorem bind_method (sound : Sound recorded world) {framed : Closure FrameId}
    {chained : Closure Environment} (alike : MethodsAlike recorded world framed chained)
    (object : ObjectId) :
    Agrees recorded Nothing world
      (fun after bound other => FunctionsAlike recorded after bound other ∧
        bound.routine = framed.routine)
      (Run.bind framed object) (Lexical.bind chained object) := by
  rcases alike.place with ⟨scopes, fits, holds⟩
  have sort : Sorted thisName (.object object) := ⟨fun _ => ⟨object, rfl⟩, nofun⟩
  rcases sound.enclosed fits sort with
    ⟨environment, declared, after, framedAfter, chainedDeclared, chainedAfter, later, afterSound,
      afterFits⟩
  refine .of_ok { framed with place := world.framed.forest.size }
    { chained with place := environment } ?_ ?_ later afterSound ?_
  · rw [framedAfter]
    rfl
  · rw [Lexical.bind]
    show EStateM.bind (Lexical.declare chained.place.enter thisName) _ world.chained = _
    rw [EStateM.bind, chainedDeclared, chainedAfter]
    rfl
  · exact ⟨⟨alike.routine, alike.isInitializer, _, afterFits, holds, fun _ => ⟨_, rfl⟩⟩, rfl⟩

/-- A bound method as a value. -/
theorem newMethod (sound : Sound recorded world) {framed : Closure FrameId}
    {chained : Closure Environment} (alike : MethodsAlike recorded world framed chained)
    (object : ObjectId) :
    Agrees recorded Nothing world Same (Run.bind framed object >>= Run.newFunction)
      (Lexical.bind chained object >>= Lexical.newFunction) :=
  (bind_method sound alike object).bind fun _ _ _ _ afterSound same =>
    newFunction afterSound same.1

theorem property (sound : Sound recorded world) (id : ObjectId) (name : Token) :
    Agrees recorded Nothing world Same (Run.property id name) (Lexical.property id name) := by
  refine Agrees.get ?_
  dsimp only
  rw [sound.heaps.objects]
  cases world.framed.objects[id]? with
  | none => exact .fault trivial sound
  | some object =>
      dsimp only [Option.bind_some]
      cases object.fields.find? name.lexeme with
      | some value => exact .pure sound rfl
      | none =>
          have entry := sound.heaps.method? object.classId name.lexeme
          dsimp only
          revert entry
          generalize world.framed.method? object.classId name.lexeme = framed?
          generalize world.chained.method? object.classId name.lexeme = chained?
          rintro (same | _)
          · exact newMethod sound same id
          · exact .fault trivial sound

end Agrees

namespace World

theorem Sound.receiver (sound : Sound recorded world)
    (fits : world.Fits frame scopes environment) {distance : Nat}
    (receives : Receives scopes distance) :
    ∃ target id, world.forest.ancestor? frame distance = some target ∧
      world.forest.own? target thisName = some (.object id) ∧
      world.forest.getAt frame distance thisName = .ok (.object id) ∧
      world.chained.valueOf environment thisName = .ok (.object id) := by
  rcases sound.getAt fits receives with ⟨target, value, reached, own, framed, chained⟩
  rcases (sound.sorted target thisName value own).1 rfl with ⟨id, rfl⟩
  exact ⟨target, id, reached, own, framed, chained⟩

theorem Sound.superclass (sound : Sound recorded world)
    (fits : world.Fits frame scopes environment) {distance : Nat}
    (inherits : Inherits scopes distance) :
    ∃ target id, world.forest.ancestor? frame (distance + 1) = some target ∧
      world.forest.own? target superName = some (.classRef id) ∧
      world.forest.getAt frame (distance + 1) superName = .ok (.classRef id) ∧
      world.chained.valueOf environment superName = .ok (.classRef id) := by
  rcases sound.getAt fits inherits.2 with ⟨target, value, reached, own, framed, chained⟩
  rcases (sound.sorted target superName value own).2 rfl with ⟨id, rfl⟩
  exact ⟨target, id, reached, own, framed, chained⟩

end World

namespace Agrees

theorem readSuperMethod (sound : Sound recorded world)
    (fits : world.Fits world.framed.current scopes environment) {id : OccurrenceId}
    {keyword : Token} (method : Token) {distance : Nat} (spelled : keyword.lexeme = superName)
    (inherits : Inherits scopes distance) (known : recorded id (some (distance + 1))) :
    Agrees recorded Nothing world Same (Lox.readSuperMethod id keyword method)
      (Lexical.readSuperMethod environment keyword method) := by
  rcases sound.superclass fits inherits with ⟨_, superclass, _, _, framedSuper, chainedSuper⟩
  rcases sound.receiver fits inherits.1 with ⟨_, object, _, _, framedThis, chainedThis⟩
  refine Agrees.get ?_
  rw [sound.distances _ _ known, spelled]
  show Agrees _ _ _ _
    (Run.ofExcept (world.forest.getAt world.framed.current (distance + 1) superName) keyword >>= _)
    (Run.ofExcept (world.chained.valueOf environment superName) keyword >>= _)
  rw [framedSuper, chainedSuper]
  show Agrees _ _ _ _
    (Run.ofExcept (world.forest.getAt world.framed.current distance thisName) keyword >>= _)
    (Run.ofExcept (world.chained.valueOf environment thisName) keyword >>= _)
  rw [framedThis, chainedThis]
  have entry := sound.heaps.method? superclass method.lexeme
  simp only [Run.ofExcept, pure_bind]
  revert entry
  generalize world.framed.method? superclass method.lexeme = framed?
  generalize world.chained.method? superclass method.lexeme = chained?
  rintro (same | _)
  · exact newMethod sound same object
  · exact .fault trivial sound

end Agrees

/-! ## The sink and the clock -/

namespace World

/-- The same place, after something has been written and the clock has been read. -/
def withOutput (world : World) (sink : Sink) (ticks : Nat) : World :=
  ⟨world.layout, { world.framed with sink := sink, ticks := ticks },
    { world.chained with sink := sink, ticks := ticks }⟩

variable {extends? : FrameId → Prop} {sink : Sink} {ticks : Nat}

theorem later_withOutput : Later extends? world (world.withOutput sink ticks) := by
  refine ⟨rfl, rfl, rfl, Nat.le_refl _, fun _ _ => id, fun _ _ => id, List.prefix_rfl, ?_⟩
  intro index other query beyond found
  cases (List.getElem?_eq_none beyond).symm.trans found

theorem Sound.withOutput (sound : Sound recorded world) :
    Sound recorded (world.withOutput sink ticks) :=
  ⟨sound.distances, ⟨sound.cells.length, sound.cells.nodup, sound.cells.contents,
    sound.cells.covered, sound.cells.root, sound.cells.present, sound.cells.globals⟩,
    sound.heaps.mono (fun _ _ _ => id) rfl rfl, sound.sorted, rfl, sound.clock, rfl⟩

end World

namespace Agrees

variable {extends? : FrameId → Prop}

theorem print (sound : Sound recorded world) (value : Value) :
    Agrees recorded extends? world Same (Run.print value) (Lexical.print value) := by
  have line : world.chained.text value = world.framed.text value := sound.heaps.text value
  refine Agrees.get ?_
  dsimp only
  rw [line, sound.sink]
  generalize world.framed.text value ++ "\n" = line
  have after : Sound recorded (world.withOutput (world.framed.sink.write line)
      world.framed.ticks) := sound.withOutput
  have chained : { world.chained with sink := world.framed.sink.write line } =
      (world.withOutput (world.framed.sink.write line) world.framed.ticks).chained := by
    rw [withOutput, ← sound.ticks]
  rw [chained]
  cases world.framed.sink.writeFault? line with
  | none => exact .of_ok _ _ rfl rfl later_withOutput after rfl
  | some fault => exact .of_error rfl rfl trivial later_withOutput after

theorem readClock (sound : Sound recorded world) :
    Agrees recorded extends? world Same Run.readClock Lexical.readClock := by
  have after : Sound recorded (world.withOutput world.framed.sink (world.framed.ticks + 1)) :=
    sound.withOutput
  refine .of_ok _ _ rfl ?_ later_withOutput after rfl
  show EStateM.Result.ok (Value.number (world.chained.clock world.chained.ticks))
    { world.chained with ticks := world.chained.ticks + 1 } = _
  rw [sound.clock, sound.ticks, withOutput, ← sound.sink]

theorem flush (sound : Sound recorded world) :
    Agrees recorded extends? world Same Run.flush Lexical.flush := by
  refine Agrees.get ?_
  rw [sound.sink]
  cases world.framed.sink.flushFault? with
  | none => exact .pure sound rfl
  | some fault => exact .of_error rfl rfl trivial (.refl world) sound

end Agrees

/-! ## Declaring -/

theorem Machine.set_onHeap (machine : Machine) (change : Heap Environment → Heap Environment)
    (name : String) (value : Value) :
    (machine.onHeap change).set environment name value =
      (machine.set environment name value).onHeap change := by
  rw [set, set]
  split <;> rfl

/-- What stands at the current frame of a world. -/
abbrev StandsHere (scopes : List Scope) (world : World) (environment : Environment) : Prop :=
  world.Stands world.framed.current scopes environment

namespace Agrees

variable {α β : Type} {extends? : FrameId → Prop} {related : World → α → β → Prop}

/-- A new cell changes nothing for the frames. -/
theorem declare {actual : Lox.Run α} {continued : Environment → Run β} {name : String}
    (stands : StandsHere scopes world environment) (sound : Sound recorded world)
    (free : Free scopes name) (may : extends? world.framed.current)
    (rest : ∀ environment' after, after.framed = world.framed → Later extends? world after →
      Sound recorded after → StandsHere (bindIn scopes name .declared) after environment' →
        Agrees recorded extends? after related actual (continued environment')) :
    Agrees recorded extends? world related actual
      (Lexical.declare environment name >>= continued) := by
  rcases stands.declare sound free with
    ⟨inner, after, framed, chained, later, afterSound, afterStands⟩
  have here : StandsHere (bindIn scopes name .declared) after inner := by
    rw [StandsHere, framed]
    exact afterStands
  have extending : Later extends? world after := by
    refine later.weaken ?_
    rintro _ rfl
    exact .inr may
  refine Agrees.after_step _ _ extending (by rw [framed]) ?_
    (rest inner after framed extending afterSound here)
  show EStateM.bind (Lexical.declare environment name) continued world.chained = _
  rw [EStateM.bind, chained]

theorem define {name : String} {state : NameState} {value : Value}
    (stands : StandsHere (bindIn scopes name state) world environment)
    (sound : Sound recorded world) (sort : Sorted name value) :
    Agrees recorded Nothing world
      (fun after _ _ => StandsHere (bindIn scopes name .ready) after environment ∧
        (after.forest.own? after.framed.current name).isSome)
      (Run.define name value) (Lexical.define environment name value) := by
  rcases stands.define sound sort with ⟨after, framed, chained, later, afterSound, afterStands⟩
  refine .of_ok () () ?_ ?_ later afterSound ⟨?_, ?_⟩
  · rw [framed]
    rfl
  · rw [chained]
    rfl
  · rw [StandsHere, later.current]
    exact afterStands
  · rw [World.forest, framed]
    show ((world.forest.define world.framed.current name value).own? world.framed.current
      name).isSome
    rw [Forest.own?_define_same _ (sound.lt_size stands.fits)]
    rfl

/-- A name that the current frame binds is the nearest of its kind. -/
theorem storeByName {name : Token} {state : NameState} {value : Value}
    (stands : StandsHere (bindIn scopes name.lexeme state) world environment)
    (sound : Sound recorded world) (sort : Sorted name.lexeme value)
    (bound : (world.forest.own? world.framed.current name.lexeme).isSome) :
    Agrees recorded Nothing world
      (fun after _ _ => StandsHere (bindIn scopes name.lexeme .ready) after environment ∧
        (after.forest.own? after.framed.current name.lexeme).isSome)
      (Run.storeByName name value) (Lexical.define environment name.lexeme value) := by
  refine Agrees.after_step _ _ (.refl world) ?_ rfl (define stands sound sort)
  show EStateM.bind (Run.ofExcept
    (world.forest.place world.framed.current name.lexeme) name) _ world.framed = _
  rw [Forest.place_own bound]
  rfl

/-- The class is made in a place inside of its name's, and written to its name. -/
theorem completeClass (sound : Sound recorded world) {name : Token} (ordinary : name.Ordinary)
    (stands : StandsHere (bindIn scopes name.lexeme .ready) world environment)
    (bound : (world.forest.own? world.framed.current name.lexeme).isSome)
    (superclass : Option ClassId) {inner : List Scope} {around : Environment}
    (fits : world.Fits frame inner around) {methods : List Routine}
    (holds : Routine.AllScoped recorded (receiver :: inner) methods) :
    Agrees recorded Nothing world
      (fun after _ environment' => StandsHere (bindIn scopes name.lexeme .ready) after environment')
      (do
        let value ← Run.newClass ⟨name.lexeme, superclass, methodTable frame methods⟩
        Run.storeByName name value)
      (do
        let value ← Lexical.newClass ⟨name.lexeme, superclass, methodTable around methods⟩
        Lexical.define environment name.lexeme value
        Pure.pure environment) := by
  have methodsAlike : ∀ method ∈ methods, MethodsAlike recorded world
      ⟨method, frame, method.name.lexeme = initializerName⟩
      ⟨method, around, method.name.lexeme = initializerName⟩ :=
    fun method member => ⟨rfl, rfl, inner, fits, Routine.allScoped_mem holds method member⟩
  refine (newClass sound
    ⟨rfl, rfl, methodTable_alike frame around
      (List.forall₂_same.mpr fun method member => ⟨rfl, methodsAlike method member⟩)⟩).bind ?_
  rintro made value _ later madeSound ⟨rfl, classId, rfl⟩
  have here : StandsHere (bindIn scopes name.lexeme .ready) made environment := by
    rw [StandsHere, later.current]
    exact stands.later sound later id
  have known : (made.forest.own? made.framed.current name.lexeme).isSome := by
    rw [later.current]
    exact later.bound _ _ bound
  have sort := sorted_ordinary ordinary (.classRef classId)
  rw [← bind_pure (Run.storeByName name (.classRef classId))]
  refine (storeByName here madeSound sort known).bind ?_
  rintro after _ _ - afterSound ⟨afterStands, _⟩
  exact .pure afterSound afterStands

theorem declareClass (sound : Sound recorded world)
    (stands : StandsHere scopes world environment) {name : Token} (declarable : Declarable scopes name)
    (superclass : Option ClassId) {superclassExpr : Option Expr}
    (given : superclassExpr.isSome = superclass.isSome) {methods : List Routine}
    (holds : Routine.AllScoped recorded
      (ofClass (bindIn scopes name.lexeme .ready) superclassExpr) methods) :
    Agrees recorded (· = world.framed.current) world
      (fun after _ environment' => StandsHere (bindIn scopes name.lexeme .ready) after environment')
      (Lox.declareClass name superclass methods)
      (Lexical.declareClass environment name superclass methods) := by
  refine declare stands sound declarable.free rfl ?_
  intro inner declared framed _ declaredSound declaredStands
  have nilSort := sorted_ordinary declarable.ordinary .nil
  refine (define declaredStands declaredSound nilSort).extending.bind ?_
  rintro defined _ _ - definedSound ⟨definedStands, bound⟩
  rw [ofClass, given] at holds
  cases superclass with
  | none =>
      exact (completeClass definedSound declarable.ordinary definedStands bound none
        definedStands.fits holds).extending
  | some classId =>
      have sort : Sorted superName (.classRef classId) := ⟨nofun, fun _ => ⟨classId, rfl⟩⟩
      rcases definedSound.enclosed definedStands.fits sort with
        ⟨around, cells, entered, framedAfter, chainedDeclared, chainedAfter, later, enteredSound,
          fits⟩
      have here : StandsHere (bindIn scopes name.lexeme .ready) entered inner := by
        rw [StandsHere, later.current]
        exact definedStands.later definedSound later id
      have known : (entered.forest.own? entered.framed.current name.lexeme).isSome := by
        rw [later.current]
        exact later.bound _ _ bound
      have rest := completeClass enteredSound declarable.ordinary here known (some classId) fits holds
      refine (Agrees.after_step _ _ later ?_ ?_ rest).extending
      · rw [framedAfter]
        rfl
      · show EStateM.bind (Lexical.declare inner.enter superName) _ defined.chained = _
        rw [EStateM.bind, chainedDeclared, chainedAfter]
        rfl

end Agrees

end Lox.Lexical
