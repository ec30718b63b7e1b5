import Lox.Proofs.History.Advance
/-! What values refer to. On a machine that is grounded every function, class and instance that is
bound in a frame or stands in a field has been made, and superclasses have been made before. Each
step keeps this, whatever the scopes around the code are, and all steps but two leave the instances
as they are. -/

namespace Lox

open History

/-- Of two possible values a frame binds the one that has been written, or the one from before. -/
theorem Forest.own?_define_cases {α : Type} {forest : Forest α} {frame other : FrameId}
    {name query : String} {value found : α}
    (bound : (forest.define frame name value).own? other query = some found) :
    found = value ∨ forest.own? other query = some found := by
  by_cases same : other = frame
  · subst same
    have present := Forest.lt_size_of_own? (Option.isSome_of_eq_some bound)
    rw [Forest.size_define] at present
    rw [Forest.own?_define _ present] at bound
    split at bound
    · cases bound
      exact .inl rfl
    · exact .inr bound
  · rw [Forest.own?_define_other _ _ _ _ _ _ (.inl same)] at bound
    exact .inr bound

namespace Machine

variable {machine after : Machine} {α : Type}

/-! ## Grounded machines -/

/-- The function, class or instance that the value refers to has been made. -/
def Knows (machine : Machine) : Value → Prop
  | .function id => id < machine.functions.size
  | .classRef id => id < machine.classes.size
  | .object id => id < machine.objects.size
  | _ => True

def KnowsAll (machine : Machine) (values : List Value) : Prop :=
  ∀ value ∈ values, machine.Knows value

def KnowsFlow (machine : Machine) : Flow → Prop
  | .normal => True
  | .returned value => machine.Knows value

/-- Superclasses have been made before. -/
def Layered (machine : Machine) : Prop :=
  ∀ (id : ClassId) (info : ClassInfo FrameId) superclass, machine.classes[id]? = some info →
    info.superclass = some superclass → superclass < id

structure Grounded (machine : Machine) : Prop where
  values : ∀ frame name value, machine.forest.own? frame name = some value → machine.Knows value
  fields : ∀ (id : ObjectId) (object : Instance) (name : String) (value : Value),
    machine.objects[id]? = some object → object.fields.find? name = some value →
    machine.Knows value
  parents : machine.Layered

theorem size_le_of_kept {array later : Array α}
    (kept : ∀ (index : Nat) value, array[index]? = some value → later[index]? = some value) :
    array.size ≤ later.size := by
  apply Nat.le_of_not_lt
  intro fewer
  have found := kept later.size _ (Array.getElem?_eq_getElem fewer)
  exact absurd (Array.getElem?_eq_some_iff.mp found).1 (Nat.lt_irrefl _)

theorem Knows.later {value : Value} (knows : machine.Knows value) (later : Later machine after) :
    after.Knows value := by
  cases value with
  | function id => exact Nat.lt_of_lt_of_le knows (size_le_of_kept later.functions)
  | classRef id => exact Nat.lt_of_lt_of_le knows (size_le_of_kept later.classes)
  | object id => exact Nat.lt_of_lt_of_le knows later.objects_size
  | _ => trivial

theorem KnowsAll.later {values : List Value} (all : machine.KnowsAll values)
    (later : Later machine after) : after.KnowsAll values :=
  fun value member => (all value member).later later

theorem Layered.of_later (layered : after.Layered) (later : Later machine after) :
    machine.Layered :=
  fun id info superclass found parent =>
    layered id info superclass (later.classes id info found) parent

/-! ## Changes -/

namespace Grounded

variable (grounded : machine.Grounded)

include grounded

/-- Where classes stay as they are, nothing new is bound and nothing new stands in a field. -/
theorem later (later : Later machine after) (classes : after.classes = machine.classes)
    (values : ∀ frame name value, after.forest.own? frame name = some value →
      after.Knows value ∨ machine.forest.own? frame name = some value)
    (fields : ∀ (id : ObjectId) (object : Instance) (name : String) (value : Value),
      after.objects[id]? = some object → object.fields.find? name = some value →
      after.Knows value) : after.Grounded where
  values frame name value bound := by
    rcases values frame name value bound with known | bound
    · exact known
    · exact (grounded.values frame name value bound).later later
  fields := fields
  parents := by
    rw [Layered, classes]
    exact grounded.parents

theorem fieldsLater (later : Later machine after) (same : after.objects = machine.objects)
    (id : ObjectId) (object : Instance) (name : String) (value : Value)
    (known : after.objects[id]? = some object) (field : object.fields.find? name = some value) :
    after.Knows value := by
  rw [same] at known
  exact (grounded.fields id object name value known field).later later

theorem define (frame : FrameId) (name : String) {value : Value} (knows : machine.Knows value) :
    (machine.define frame name value).Grounded := by
  have later := (Onward.define machine frame name value).toLater
  refine grounded.later later rfl (fun other query found bound => ?_)
    (grounded.fieldsLater later rfl)
  rcases Forest.own?_define_cases bound with rfl | bound
  · exact .inl (knows.later later)
  · exact .inr bound

theorem addFrame (outer : FrameId) : (machine.addFrame outer).Grounded := by
  have later := (Onward.addFrame machine outer).toLater
  refine grounded.later later rfl (fun frame name value bound => .inr ?_)
    (grounded.fieldsLater later rfl)
  exact (Forest.own?_addChild _ _ _ _).symm.trans bound

theorem enclose (outer : FrameId) (name : String) {value : Value} (knows : machine.Knows value) :
    (machine.enclose outer name value).Grounded :=
  (grounded.addFrame outer).define machine.forest.size name
    (knows.later (Onward.addFrame machine outer).toLater)

theorem defineAll (frame : FrameId) {entries : List (String × Value)}
    (all : ∀ entry ∈ entries, machine.Knows entry.2) :
    Grounded { machine with forest := machine.forest.defineAll frame entries } := by
  induction entries generalizing machine with
  | nil => exact grounded
  | cons entry rest induction =>
      rw [List.forall_mem_cons] at all
      refine induction (grounded.define frame entry.1 all.1) fun other member => ?_
      exact (all.2 other member).later (Onward.define machine frame entry.1 entry.2).toLater

theorem addFunction (closure : Closure FrameId) :
    (machine.onHeap (·.addFunction closure)).Grounded := by
  have later := (Onward.addFunction machine closure).toLater
  exact grounded.later later rfl (fun _ _ _ => .inr) (grounded.fieldsLater later rfl)

theorem addClass {info : ClassInfo FrameId}
    (known : ∀ superclass, info.superclass = some superclass → superclass < machine.classes.size) :
    (machine.onHeap (·.addClass info)).Grounded := by
  have later := (Onward.addClass machine info).toLater
  refine ⟨fun frame name value bound => (grounded.values frame name value bound).later later,
    grounded.fieldsLater later rfl, fun id other superclass found parent => ?_⟩
  have found : (machine.classes.push info)[id]? = some other := found
  rw [Array.getElem?_push] at found
  split at found
  · rename_i new
    cases found
    rw [new]
    exact known superclass parent
  · exact grounded.parents id other superclass found parent

theorem addObject (id : ClassId) : (machine.onHeap (·.addObject ⟨id, ∅⟩)).Grounded := by
  have later := (Onward.addObject machine ⟨id, ∅⟩).toLater
  refine grounded.later later rfl (fun _ _ _ => .inr) fun other object name value known field => ?_
  have known : (machine.objects.push ⟨id, ∅⟩)[other]? = some object := known
  rw [Array.getElem?_push] at known
  split at known
  · cases known
    cases field
  · exact (grounded.fields other object name value known field).later later

theorem setField (id : ObjectId) (name : String) {value : Value} (knows : machine.Knows value) :
    (machine.onHeap (·.setField id name value)).Grounded := by
  have later := (Onward.setField machine id name value).toLater
  refine grounded.later later rfl (fun _ _ _ => .inr) fun other object query found known field => ?_
  have known : (machine.objects.modify id fun object =>
      { object with fields := object.fields.set name value })[other]? = some object := known
  rw [Array.getElem?_modify] at known
  split at known
  · obtain ⟨object, old, rfl⟩ := Option.map_eq_some_iff.mp known
    rw [Table.find?_set] at field
    split at field
    · cases field
      exact knows.later later
    · exact (grounded.fields other object query found old field).later later
  · exact (grounded.fields other object query found known field).later later

theorem withOutput (sink : Sink) (ticks : Nat) :
    Grounded { machine with sink := sink, ticks := ticks } :=
  ⟨grounded.values, grounded.fields, grounded.parents⟩

theorem moveTo (frame : FrameId) : Grounded { machine with current := frame } :=
  ⟨grounded.values, grounded.fields, grounded.parents⟩

theorem learn (distances : Distances) : (machine.learn distances).Grounded :=
  ⟨grounded.values, grounded.fields, grounded.parents⟩

end Grounded

/-! ## Steps -/

/-- The step leaves a grounded machine with the same instances, and this is true of its value. -/
structure Steps (machine : Machine) (yields : Machine → α → Prop)
    (result : EStateM.Result Stop Machine α) : Prop where
  grounded : (leftBy result).Grounded
  objects : (leftBy result).objects = machine.objects
  yields : ∀ value after, result = .ok value after → yields after value

namespace Steps

variable {yields : Machine → α → Prop} {value : α}

theorem ends (grounded : after.Grounded) (objects : after.objects = machine.objects)
    (holds : yields after value) : machine.Steps yields (.ok value after) :=
  ⟨grounded, objects, by rintro _ _ ⟨⟩; exact holds⟩

theorem fails {stop : Stop} (grounded : after.Grounded) (objects : after.objects = machine.objects) :
    machine.Steps yields (.error stop after) :=
  ⟨grounded, objects, nofun⟩

theorem ofExcept {result : Except RuntimeFault α} {blamed : Token} (grounded : machine.Grounded)
    (holds : ∀ value, result = .ok value → yields machine value) :
    machine.Steps yields ((Run.ofExcept result blamed : Run α) machine) := by
  cases result with
  | ok value => exact .ends grounded rfl (holds value rfl)
  | error problem => exact .fails grounded rfl

end Steps

namespace Grounded

variable (grounded : machine.Grounded)

include grounded

theorem readOwn {frame : FrameId} {name : String} {value : Value}
    (found : machine.forest.readOwn name frame = .ok value) : machine.Knows value := by
  rw [Forest.readOwn] at found
  split at found
  · cases found
    rename_i bound
    exact grounded.values _ _ _ bound
  · cases found

theorem getAt {frame : FrameId} {distance : Nat} {name : String} {value : Value}
    (found : machine.forest.getAt frame distance name = .ok value) : machine.Knows value := by
  rw [Forest.getAt] at found
  cases placed : machine.forest.placeAt frame distance name with
  | ok target =>
      rw [placed] at found
      exact grounded.readOwn found
  | error problem =>
      rw [placed] at found
      cases found

theorem lookUp (id : OccurrenceId) (name : Token) :
    machine.Steps Machine.Knows (Run.lookUp id name machine) := by
  show machine.Steps Machine.Knows
    (Run.ofExcept (machine.valueOf id name.lexeme) name machine)
  refine .ofExcept grounded fun value found => ?_
  rw [Machine.valueOf] at found
  cases placed : machine.place id name.lexeme with
  | ok target =>
      rw [placed] at found
      exact grounded.readOwn found
  | error problem =>
      rw [placed] at found
      cases found

theorem write (target : Except RuntimeFault FrameId) (blamed : Token) (name : String)
    {value : Value} (knows : machine.Knows value) :
    machine.Steps (fun _ _ => True) ((do
      let target ← Run.ofExcept target blamed
      modify (·.define target name value) : Run PUnit) machine) := by
  cases target with
  | ok target => exact .ends (grounded.define target name knows) rfl trivial
  | error problem => exact .fails grounded rfl

theorem store (id : OccurrenceId) (name : Token) {value : Value} (knows : machine.Knows value) :
    machine.Steps (fun _ _ => True) (Run.store id name value machine) :=
  grounded.write (machine.place id name.lexeme) name name.lexeme knows

theorem storeByName (name : Token) {value : Value} (knows : machine.Knows value) :
    machine.Steps (fun _ _ => True) (Run.storeByName name value machine) :=
  grounded.write (machine.forest.place machine.current name.lexeme) name name.lexeme knows

theorem defineHere (name : String) {value : Value} (knows : machine.Knows value) :
    machine.Steps (fun _ _ => True) (Run.define name value machine) :=
  .ends (grounded.define machine.current name knows) rfl trivial

theorem newFrame (outer : FrameId) :
    machine.Steps (fun _ _ => True) (Run.newFrame outer machine) :=
  .ends (grounded.addFrame outer) rfl trivial

theorem bindParameters (frame : FrameId) {entries : List (String × Value)}
    (all : ∀ entry ∈ entries, machine.Knows entry.2) :
    machine.Steps (fun _ _ => True) ((modify fun machine => { machine with
      forest := machine.forest.defineAll frame entries } : Run PUnit) machine) :=
  .ends (grounded.defineAll frame all) rfl trivial

theorem superFrame (outer : FrameId) {superclass : ClassId}
    (knows : machine.Knows (.classRef superclass)) :
    machine.Steps (fun _ _ => True) (superFrame outer superclass machine) :=
  .ends (grounded.enclose outer superName knows) rfl trivial

theorem newFunction (closure : Closure FrameId) :
    machine.Steps Machine.Knows (Run.newFunction closure machine) :=
  .ends (grounded.addFunction closure) rfl
    (Nat.lt_of_lt_of_eq (Nat.lt_succ_self _) (Array.size_push _).symm)

theorem newClass {info : ClassInfo FrameId}
    (known : ∀ superclass, info.superclass = some superclass → superclass < machine.classes.size) :
    machine.Steps Machine.Knows (Run.newClass info machine) :=
  .ends (grounded.addClass known) rfl
    (Nat.lt_of_lt_of_eq (Nat.lt_succ_self _) (Array.size_push _).symm)

theorem bindTo (method : Closure FrameId) {receiver : ObjectId}
    (knows : machine.Knows (.object receiver)) :
    machine.Steps (fun _ _ => True) (Run.bind method receiver machine) :=
  .ends (grounded.enclose method.place thisName knows) rfl trivial

theorem newMethod (method : Closure FrameId) {receiver : ObjectId}
    (knows : machine.Knows (.object receiver)) :
    machine.Steps Machine.Knows ((Run.bind method receiver >>= Run.newFunction) machine) :=
  .ends ((grounded.enclose method.place thisName knows).addFunction
      { method with place := machine.forest.size }) rfl
    (Nat.lt_of_lt_of_eq (Nat.lt_succ_self _) (Array.size_push _).symm)

theorem property {id : ObjectId} (name : Token) (knows : machine.Knows (.object id)) :
    machine.Steps Machine.Knows (Run.property id name machine) := by
  have known : machine.objects[id]? = some _ := Array.getElem?_eq_getElem knows
  rcases Run.property_cases name known with ⟨value, field, result⟩ | ⟨method, _, result⟩ | result
  · rw [result]
    exact .ends grounded rfl (grounded.fields id _ _ value known field)
  · rw [result]
    exact grounded.newMethod method knows
  · rw [result]
    exact .fails grounded rfl

theorem superMethod (id : OccurrenceId) (keyword method : Token) :
    machine.Steps Machine.Knows (readSuperMethod id keyword method machine) := by
  rw [readSuperMethod, get_bind_apply]
  cases machine.distances.find? id with
  | none => exact .fails grounded rfl
  | some distance =>
      dsimp only
      cases machine.forest.getAt machine.current distance keyword.lexeme with
      | error problem => exact .fails grounded rfl
      | ok parent =>
          cases parent with
          | classRef superclass =>
              cases read : machine.forest.getAt machine.current (distance - 1) thisName with
              | error problem => exact .fails grounded rfl
              | ok receiver =>
                  have knows := grounded.getAt read
                  cases receiver with
                  | object receiver =>
                      simp only [Run.ofExcept, pure_bind]
                      cases machine.method? superclass method.lexeme with
                      | some found => exact grounded.newMethod found knows
                      | none => exact .fails grounded rfl
                  | _ => exact .fails grounded rfl
          | _ => exact .fails grounded rfl

theorem readClock : machine.Steps Machine.Knows (Run.readClock machine) :=
  .ends (grounded.withOutput machine.sink (machine.ticks + 1)) rfl trivial

theorem print (value : Value) : machine.Steps (fun _ _ => True) (Run.print value machine) := by
  have written : (machine.write (machine.text value ++ "\n")).Grounded :=
    grounded.withOutput (machine.sink.write (machine.text value ++ "\n")) machine.ticks
  rw [Run.print_eq]
  split
  · exact .ends written rfl trivial
  · exact .fails written rfl

theorem flush : machine.Steps (fun _ _ => True) (Run.flush machine) := by
  rw [Run.flush_eq]
  split
  · exact .ends grounded rfl trivial
  · exact .fails grounded rfl

end Grounded

/-! ## Literals and operators -/

theorem knows_ofLiteral (machine : Machine) (literal : Literal) :
    machine.Knows (.ofLiteral literal) := by
  cases literal <;> trivial

theorem applyUnary_knows (machine : Machine) {operator : Token} {operand value : Value}
    (applied : applyUnary operator operand = .ok value) : machine.Knows value := by
  rw [applyUnary.eq_def] at applied
  split at applied <;> cases applied <;> trivial

theorem applyBinary_knows (machine : Machine) {operator : Token} {left right value : Value}
    (applied : applyBinary operator left right = .ok value) : machine.Knows value := by
  rw [applyBinary.eq_def] at applied
  split at applied
  · cases applied
    trivial
  · cases applied
    trivial
  · split at applied <;> cases applied <;> trivial
  · split at applied
    · rw [applyArithmetic.eq_def] at applied
      split at applied <;> cases applied <;> trivial
    · cases applied

theorem knowsFlow_moveTo {flow : Flow} (knows : machine.KnowsFlow flow) (frame : FrameId) :
    KnowsFlow { machine with current := frame } flow := by
  cases flow with
  | normal => trivial
  | returned value => cases value <;> exact knows

end Machine

end Lox
