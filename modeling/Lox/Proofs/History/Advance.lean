import Lox.Proofs.History.Progress
/-! The single steps of a run that is in order: each of them leaves the machine in order, and what
it yields is there. -/

namespace Lox

open Scope History

/-- The step leaves the machine in order, and this is true of its value. A function that it has made
belongs to the owner. -/
structure Machine.Advances {α : Type} (machine : Machine)
    (recorded : OccurrenceId → Option Nat → Prop) (owners : Array (Option Activation))
    (owner : Option Activation) (yields : Machine → α → Prop)
    (result : EStateM.Result Stop Machine α) : Prop where
  present : (leftBy result).Present recorded
    (owners ++ Array.replicate ((leftBy result).functions.size - owners.size) owner)
  steady : machine.Steady (leftBy result)
  current : (leftBy result).current = machine.current
  yields : ∀ value after, result = .ok value after → yields after value

namespace Machine.Advances

/-- No function has been made: nothing has to be added to the owners. -/
theorem owners_same {owners : Array (Option Activation)} {size : Nat} (counted : owners.size = size)
    (owner : Option Activation) :
    owners ++ Array.replicate (size - owners.size) owner = owners := by
  rw [counted, Nat.sub_self, Array.replicate_zero, Array.append_empty]

/-- One function has been made. -/
theorem owners_push {owners : Array (Option Activation)} {size : Nat}
    (counted : owners.size + 1 = size) (owner : Option Activation) :
    owners ++ Array.replicate (size - owners.size) owner = owners.push owner := by
  rw [← counted, Nat.add_sub_cancel_left, Array.replicate_succ, Array.replicate_zero,
    Array.append_push, Array.append_empty]

variable {α : Type} {machine after : Machine} {recorded : OccurrenceId → Option Nat → Prop}
  {owners : Array (Option Activation)} {owner : Option Activation} {yields : Machine → α → Prop}

theorem same {value : α} (present : after.Present recorded owners) (steady : machine.Steady after)
    (current : after.current = machine.current) (holds : yields after value) :
    machine.Advances recorded owners owner yields (.ok value after) where
  present := by
    rw [leftBy, owners_same present.counted]
    exact present
  steady := steady
  current := current
  yields := by rintro _ _ ⟨⟩; exact holds

/-- The function that has been made belongs to the owner. -/
theorem made {value : α} (present : after.Present recorded (owners.push owner))
    (steady : machine.Steady after) (current : after.current = machine.current)
    (holds : yields after value) :
    machine.Advances recorded owners owner yields (.ok value after) where
  present := by
    have counted := present.counted
    rw [Array.size_push] at counted
    rw [leftBy, owners_push counted]
    exact present
  steady := steady
  current := current
  yields := by rintro _ _ ⟨⟩; exact holds

theorem fails {stop : Stop} (present : after.Present recorded owners)
    (steady : machine.Steady after) (current : after.current = machine.current) :
    machine.Advances recorded owners owner yields (.error stop after) where
  present := by
    rw [leftBy, owners_same present.counted]
    exact present
  steady := steady
  current := current
  yields := nofun

end Machine.Advances

/-- A property of an instance is a field or a method of its class, or it is not defined. -/
theorem Run.property_cases {machine : Machine} {id : ObjectId} {object : Instance} (name : Token)
    (known : machine.objects[id]? = some object) :
    (∃ value, object.fields.find? name.lexeme = some value ∧
      Run.property id name machine = .ok value machine) ∨
    (∃ method, machine.method? object.classId name.lexeme = some method ∧
      Run.property id name machine = (Run.bind method id >>= Run.newFunction) machine) ∨
    Run.property id name machine =
      .error (.fault (.undefinedProperty name.lexeme) name.line) machine := by
  have looked (next : Machine → Run Value) : (get >>= next) machine = next machine machine := rfl
  rw [Run.property, looked, known, Option.bind_some, Option.bind_some]
  cases field : object.fields.find? name.lexeme with
  | some value => exact .inl ⟨value, rfl, rfl⟩
  | none =>
      cases found : machine.method? object.classId name.lexeme with
      | some method => exact .inr (.inl ⟨method, rfl, rfl⟩)
      | none => exact .inr (.inr rfl)

namespace Machine.Present

variable {machine : Machine} {recorded : OccurrenceId → Option Nat → Prop}
  {owners : Array (Option Activation)} {scopes : List Scope} {around owner : Option Activation}
  (present : machine.Present recorded owners)

include present

theorem valueOf {id : OccurrenceId} {name : String} {value : Value}
    (found : machine.valueOf id name = .ok value) : machine.Has value := by
  rw [Machine.valueOf] at found
  cases placed : machine.place id name with
  | error problem =>
      rw [placed] at found
      cases found
  | ok target =>
      rw [placed] at found
      have found : machine.forest.readOwn name target = .ok value := found
      rw [Forest.readOwn] at found
      split at found
      · cases found
        rename_i bound
        exact present.values _ _ _ bound
      · cases found

theorem lookUp (id : OccurrenceId) (name : Token) :
    machine.Advances recorded owners owner Machine.Has (Run.lookUp id name machine) := by
  show machine.Advances recorded owners owner Machine.Has
    (Run.ofExcept (machine.valueOf id name.lexeme) name machine)
  cases found : machine.valueOf id name.lexeme with
  | ok value => exact .same present (.refl machine) rfl (present.valueOf found)
  | error problem => exact .fails present (.refl machine) rfl

/-- What a program can write to is open. -/
theorem place_open (stands : machine.Stands scopes around) {id : OccurrenceId} {name : Token}
    (ordinary : name.Ordinary) (known : recorded id (distance? scopes name.lexeme))
    {target : FrameId} (placed : machine.place id name.lexeme = .ok target) :
    machine.Open target := by
  rw [Machine.place, present.distances _ _ known, distance?] at placed
  cases located : locate? scopes name.lexeme with
  | none =>
      rw [located] at placed
      have placed : machine.forest.place machine.globals name.lexeme = .ok target := placed
      rw [Forest.place_root present.root] at placed
      split at placed
      · cases placed
        exact present.globals
      · cases placed
  | some found =>
      obtain ⟨reached, there, opened⟩ := stands.lies.opens ordinary located
      rw [located] at placed
      have placed : machine.forest.placeAt machine.current found.1 name.lexeme = .ok target :=
        placed
      rw [Forest.placeAt, there] at placed
      cases placed
      exact opened

theorem store (stands : machine.Stands scopes around) {id : OccurrenceId} {name : Token}
    {value : Value} (ordinary : name.Ordinary) (known : recorded id (distance? scopes name.lexeme))
    (has : machine.Has value) :
    machine.Advances recorded owners owner (fun _ _ => True) (Run.store id name value machine) := by
  cases placed : machine.place id name.lexeme with
  | ok target =>
      have opened := present.place_open stands ordinary known placed
      have result : Run.store id name value machine =
          .ok () (machine.define target name.lexeme value) := by
        show (Run.ofExcept (machine.place id name.lexeme) name >>= _) machine = _
        rw [placed]
        rfl
      rw [result]
      exact .same (present.define opened ordinary.notThis ordinary.notSuper has)
        (.define opened ordinary.notThis ordinary.notSuper value) rfl trivial
  | error problem =>
      have result : Run.store id name value machine =
          .error (.fault problem name.line) machine := by
        show (Run.ofExcept (machine.place id name.lexeme) name >>= _) machine = _
        rw [placed]
        rfl
      rw [result]
      exact .fails present (.refl machine) rfl

/-- A name that has been bound in the current frame. -/
theorem defineHere (opened : machine.Open machine.current) {name : Token}
    (ordinary : name.Ordinary) {value : Value} (has : machine.Has value) :
    machine.Advances recorded owners owner
      (fun after _ => (after.forest.own? after.current name.lexeme).isSome)
      (Run.define name.lexeme value machine) := by
  have bound : ((machine.define machine.current name.lexeme value).forest.own? machine.current
      name.lexeme).isSome := by
    show ((machine.forest.define _ _ _).own? _ _).isSome
    rw [Forest.own?_define_same _ opened.present]
    rfl
  have result : Run.define name.lexeme value machine =
      .ok () (machine.define machine.current name.lexeme value) := rfl
  rw [result]
  exact .same (present.define opened ordinary.notThis ordinary.notSuper has)
    (.define opened ordinary.notThis ordinary.notSuper value) rfl bound

theorem storeByName (opened : machine.Open machine.current) {name : Token}
    (ordinary : name.Ordinary) (bound : (machine.forest.own? machine.current name.lexeme).isSome)
    {value : Value} (has : machine.Has value) :
    machine.Advances recorded owners owner (fun _ _ => True)
      (Run.storeByName name value machine) := by
  have result : Run.storeByName name value machine =
      .ok () (machine.define machine.current name.lexeme value) := by
    show (Run.ofExcept (machine.forest.place machine.current name.lexeme) name >>= _) machine = _
    rw [Forest.place_own bound]
    rfl
  rw [result]
  exact .same (present.define opened ordinary.notThis ordinary.notSuper has)
    (.define opened ordinary.notThis ordinary.notSuper value) rfl trivial

theorem newFrame (outer : FrameId) :
    machine.Advances recorded owners owner
      (fun after frame => after.Open frame ∧ after.forest.enclosing? frame = some outer)
      (Run.newFrame outer machine) := by
  have result : Run.newFrame outer machine =
      .ok machine.forest.size (machine.addFrame outer) := rfl
  rw [result]
  exact .same (present.addFrame outer) (.addFrame machine outer) rfl
    ⟨machine.open_addFrame outer, Forest.enclosing?_addChild_size _ _⟩

theorem superFrame (outer : FrameId) (superclass : ClassId) :
    machine.Advances recorded owners owner
      (fun after frame => after.forest.own? frame superName = some (.classRef superclass) ∧
        after.forest.enclosing? frame = some outer)
      (superFrame outer superclass machine) := by
  have result : History.superFrame outer superclass machine =
      .ok machine.forest.size (machine.enclose outer superName (.classRef superclass)) := rfl
  rw [result]
  exact .same (present.enclose outer superName trivial) (.enclose machine outer superName _) rfl
    ⟨by rw [own?_enclose, if_pos ⟨rfl, rfl⟩], enclosing?_enclose machine outer _ _⟩

theorem newFunction {closure : Closure FrameId} (lodged : machine.Lodged recorded closure owner) :
    machine.Advances recorded owners owner Machine.Has (Run.newFunction closure machine) := by
  have result : Run.newFunction closure machine =
      .ok (.function machine.functions.size) (machine.onHeap (·.addFunction closure)) := rfl
  rw [result]
  exact .made (present.addFunction lodged)
    (.ofHeap (Onward.addFunction machine closure).toLater rfl) rfl trivial

theorem newClass {info : ClassInfo FrameId}
    (offers : ∀ name method, info.methods.find? name = some method →
      machine.Offers recorded method info.superclass) :
    machine.Advances recorded owners owner Machine.Has (Run.newClass info machine) := by
  have result : Run.newClass info machine =
      .ok (.classRef machine.classes.size) (machine.onHeap (·.addClass info)) := rfl
  rw [result]
  exact .same (present.addClass offers) (.ofHeap (Onward.addClass machine info).toLater rfl) rfl
    trivial

theorem newObject (id : ClassId) :
    machine.Advances recorded owners owner
      (fun after object => after.Has (.object object)) (Run.newObject id machine) := by
  have result : Run.newObject id machine =
      .ok machine.objects.size (machine.onHeap (·.addObject ⟨id, ∅⟩)) := rfl
  rw [result]
  exact .same (present.addObject id) (.ofHeap (Onward.addObject machine _).toLater rfl) rfl
    (Nat.lt_of_lt_of_eq (Nat.lt_succ_self _) (Array.size_push _).symm)

/-! ### Methods -/

/-- A method that is found is bound for a call of the class that declares it. -/
theorem bound {id : ClassId} {name : String} {method : Closure FrameId}
    (found : machine.method? id name = some method) (object : ObjectId) :
    (machine.enclose method.place thisName (.object object)).Lodged recorded
      { method with place := machine.forest.size } (activation? machine id name object) := by
  obtain ⟨declarer, info, declared, known, own⟩ := Heap.declarer?_of_method? found
  rw [activation?, declared]
  exact (present.methods declarer info name method known own).lodged known own object

theorem bindTo {id : ClassId} {name : String} {method : Closure FrameId}
    (found : machine.method? id name = some method) {object : ObjectId}
    (has : machine.Has (.object object)) :
    machine.Advances recorded owners owner
      (fun after closure => after.Lodged recorded closure (activation? machine id name object))
      (Run.bind method object machine) := by
  have result : Run.bind method object machine = .ok { method with place := machine.forest.size }
      (machine.enclose method.place thisName (.object object)) := rfl
  rw [result]
  exact .same (present.enclose _ _ has) (.enclose machine _ _ _) rfl (present.bound found object)

theorem newMethod {id : ClassId} {name : String} {method : Closure FrameId}
    (found : machine.method? id name = some method) {object : ObjectId}
    (has : machine.Has (.object object)) :
    machine.Advances recorded owners (activation? machine id name object) Machine.Has
      ((Run.bind method object >>= Run.newFunction) machine) := by
  have result : (Run.bind method object >>= Run.newFunction) machine =
      .ok (.function machine.functions.size)
        ((machine.enclose method.place thisName (.object object)).onHeap
          (·.addFunction { method with place := machine.forest.size })) := rfl
  rw [result]
  have entered := present.enclose method.place thisName has
  exact .made (entered.addFunction (present.bound found object))
    ((Steady.enclose machine _ _ _).trans (.ofHeap (Onward.addFunction _ _).toLater rfl)) rfl
    trivial

theorem property {id : ObjectId} {name : Token} (has : machine.Has (.object id)) :
    machine.Advances recorded owners (propertyOwner id name machine) Machine.Has
      (Run.property id name machine) := by
  obtain ⟨object, known⟩ : ∃ object, machine.objects[id]? = some object :=
    ⟨_, Array.getElem?_eq_getElem has⟩
  have belongs : propertyOwner id name machine =
      activation? machine object.classId name.lexeme id := by
    rw [propertyOwner, known]
    rfl
  rw [belongs]
  rcases Run.property_cases name known with ⟨value, field, result⟩ | ⟨method, found, result⟩ | result
  · rw [result]
    exact .same present (.refl machine) rfl (present.fields id object _ value known field)
  · rw [result]
    exact present.newMethod found has
  · rw [result]
    exact .fails present (.refl machine) rfl

/-! ### Receivers -/

/-- The receiver is that of the method call around the code. -/
theorem readThis (stands : machine.Stands scopes around) {id : OccurrenceId} {keyword : Token}
    {distance : Nat} (spelled : keyword.lexeme = thisName) (receives : Receives scopes distance)
    (known : recorded id (some distance)) :
    ∃ activation, around = some activation ∧
      Run.lookUp id keyword machine = .ok (.object activation.receiver) machine := by
  obtain ⟨activation, target, belongs, reached, own⟩ := stands.lies.this receives
  have read : machine.valueOf id keyword.lexeme = .ok (.object activation.receiver) := by
    rw [Machine.valueOf, Machine.place, present.distances _ _ known, spelled]
    show (machine.forest.placeAt machine.current distance thisName >>= _) = _
    rw [Forest.placeAt, reached]
    show machine.forest.readOwn thisName target = _
    rw [Forest.readOwn, own]
  refine ⟨activation, belongs, ?_⟩
  show Run.ofExcept (machine.valueOf id keyword.lexeme) keyword machine = _
  rw [read]
  rfl

/-- The method is looked for from the superclass of the class around the code on, and is bound to
the receiver of the method call around it. -/
theorem readSuper (stands : machine.Stands scopes around) {id : OccurrenceId} {keyword : Token}
    (method : Token) {distance : Nat} (spelled : keyword.lexeme = superName)
    (inherits : Inherits scopes distance) (known : recorded id (some (distance + 1))) :
    ∃ activation info superclass, around = some activation ∧
      machine.classes[activation.declarer]? = some info ∧ info.superclass = some superclass ∧
      machine.Has (.object activation.receiver) ∧
      readSuperMethod id keyword method machine =
        (match machine.method? superclass method.lexeme with
          | some found => Run.bind found activation.receiver >>= Run.newFunction
          | none => Run.fault (.undefinedProperty method.lexeme) method) machine := by
  obtain ⟨activation, info, superclass, target, outer, belongs, declared, parent, reached, own,
    reached', own'⟩ := stands.lies.super inherits
  exact ⟨activation, info, superclass, belongs, declared, parent, present.values _ _ _ own,
    Task.readSuperMethod_eq method spelled (present.distances _ _ known) reached' own' reached own⟩

theorem superMethod (stands : machine.Stands scopes around) {id : OccurrenceId} {keyword : Token}
    (method : Token) {distance : Nat} (spelled : keyword.lexeme = superName)
    (inherits : Inherits scopes distance) (known : recorded id (some (distance + 1))) :
    machine.Advances recorded owners (superOwner around method machine) Machine.Has
      (readSuperMethod id keyword method machine) := by
  obtain ⟨activation, info, superclass, rfl, declared, parent, has, result⟩ :=
    present.readSuper stands method spelled inherits known
  have belongs : superOwner (some activation) method machine =
      activation? machine superclass method.lexeme activation.receiver := by
    show ((machine.classes[activation.declarer]?.bind ClassInfo.superclass).bind _) = _
    rw [declared]
    show (info.superclass.bind _) = _
    rw [parent]
    rfl
  rw [result, belongs]
  cases found : machine.method? superclass method.lexeme with
  | some other => exact present.newMethod found has
  | none => exact .fails present (.refl machine) rfl

/-! ### The rest -/

theorem setFieldOf (id : ObjectId) (name : String) {value : Value} (has : machine.Has value) :
    machine.Advances recorded owners owner (fun _ _ => True)
      ((modify (·.onHeap (·.setField id name value)) : Run PUnit) machine) := by
  have result : (modify (·.onHeap (·.setField id name value)) : Run PUnit) machine =
      .ok ⟨⟩ (machine.onHeap (·.setField id name value)) := rfl
  rw [result]
  exact .same (present.setField id name has)
    (.ofHeap (Onward.setField machine id name value).toLater rfl) rfl trivial

theorem bindParameters {frame : FrameId} (opened : machine.Open frame)
    {entries : List (String × Value)}
    (ordinary : ∀ entry ∈ entries, entry.1 ≠ thisName ∧ entry.1 ≠ superName)
    (has : ∀ entry ∈ entries, machine.Has entry.2) :
    machine.Advances recorded owners owner (fun _ _ => True)
      ((modify fun machine => { machine with
        forest := machine.forest.defineAll frame entries } : Run PUnit) machine) := by
  obtain ⟨kept, steady⟩ := present.defineAll opened ordinary has
  have result : (modify fun machine => { machine with
      forest := machine.forest.defineAll frame entries } : Run PUnit) machine =
      .ok ⟨⟩ { machine with forest := machine.forest.defineAll frame entries } := rfl
  rw [result]
  exact .same kept steady rfl trivial

theorem readClock : machine.Advances recorded owners owner Machine.Has (Run.readClock machine) := by
  have result : Run.readClock machine = .ok (.number (machine.clock machine.ticks))
      { machine with sink := machine.sink, ticks := machine.ticks + 1 } := rfl
  rw [result]
  exact .same (present.withOutput machine.sink (machine.ticks + 1))
    (.ofHeap (Onward.withOutput machine _ _).toLater rfl) rfl trivial

theorem print (value : Value) :
    machine.Advances recorded owners owner (fun _ _ => True) (Run.print value machine) := by
  have written : (machine.write (machine.text value ++ "\n")).Present recorded owners :=
    present.withOutput (machine.sink.write (machine.text value ++ "\n")) machine.ticks
  have steady : machine.Steady (machine.write (machine.text value ++ "\n")) :=
    .ofHeap (Onward.withOutput machine (machine.sink.write (machine.text value ++ "\n"))
      machine.ticks).toLater rfl
  rw [Run.print_eq]
  split
  · exact .same written steady rfl trivial
  · exact .fails written steady rfl

theorem flush : machine.Advances recorded owners owner (fun _ _ => True) (Run.flush machine) := by
  rw [Run.flush_eq]
  split
  · exact .same present (.refl machine) rfl trivial
  · exact .fails present (.refl machine) rfl

end Machine.Present

namespace History

variable {α : Type} {recorded : OccurrenceId → Option Nat → Prop} {chronicle : Chronicle}

/-- A step of the machine is a step of the chronicle. -/
theorem Carries.step {run : Run α} {around : Option Activation} {event : Event}
    {owner : Machine → Option Activation} {yields : Machine → α → Prop}
    (sound : chronicle.Sound recorded)
    (advances : chronicle.toMachine.Advances recorded chronicle.owners (owner chronicle.toMachine)
      yields (run chronicle.toMachine))
    (orderly : event.Orderly recorded (leftBy (run chronicle.toMachine)) around) :
    Carries recorded yields chronicle (step around event owner run chronicle) := by
  have turned : (chronicle.turn (leftBy (run chronicle.toMachine))
      (owner chronicle.toMachine)).Sound recorded :=
    ⟨advances.present, sound.moments, sound.steadily, fun moment member =>
      (sound.since moment member).trans advances.steady⟩
  rw [step_apply]
  refine ⟨⟨?_, ?_, ?_⟩, ?_⟩
  · rw [leftBy_endIn]
    exact turned.noted around orderly
  · rw [leftBy_endIn]
    exact advances.steady
  · rw [leftBy_endIn]
    exact advances.current
  · intro value after ended
    cases done : run chronicle.toMachine with
    | error stop left =>
        rw [done] at ended
        cases ended
    | ok value left =>
        rw [done] at ended
        cases ended
        exact advances.yields value left done

/-- A step like most others. -/
theorem Carries.take {run : Run α} {around : Option Activation} {yields : Machine → α → Prop}
    (sound : chronicle.Sound recorded)
    (advances : chronicle.toMachine.Advances recorded chronicle.owners around yields
      (run chronicle.toMachine)) :
    Carries recorded yields chronicle (take around run chronicle) :=
  .step sound advances trivial

end History

end Lox
