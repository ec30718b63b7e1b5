import Lox.Proofs.History.Standing
/-! What there is when programs run. All functions and all methods are lodged in frames that suit
the scopes around their declarations, each function in those of the method call that it belongs
to; and every instance that is mentioned anywhere exists. Each change that a program can make
keeps this. -/

namespace Lox

open Scope History

/-! ## Methods and the classes that declare them -/

namespace Heap

variable {Place : Type} {heap : Heap Place} {id : ClassId} {info : ClassInfo Place} {name : String}

theorem declarer?_own {method : Closure Place} (known : heap.classes[id]? = some info)
    (own : info.methods.find? name = some method) : heap.declarer? id name = some id := by
  rw [declarer?, known]
  simp [own]

theorem declarer?_inherited {superclass : ClassId} (known : heap.classes[id]? = some info)
    (own : info.methods.find? name = none) (parent : info.superclass = some superclass)
    (older : superclass < id) : heap.declarer? id name = heap.declarer? superclass name := by
  rw [declarer?, known]
  simp [own, parent, older]

theorem declarer?_of_method? {method : Closure Place} (found : heap.method? id name = some method) :
    ∃ declarer info, heap.declarer? id name = some declarer ∧
      heap.classes[declarer]? = some info ∧ info.methods.find? name = some method := by
  induction id using Nat.strongRecOn with
  | ind id induction =>
      rw [method?] at found
      split at found
      · cases found
      · rename_i info known
        split at found
        · rename_i own
          cases found
          exact ⟨id, info, declarer?_own known own, known, own⟩
        · rename_i superclass own parent
          split at found
          · rename_i older
            obtain ⟨declarer, other, inherited, rest⟩ := induction superclass older found
            exact ⟨declarer, other, (declarer?_inherited known own parent older).trans inherited,
              rest⟩
          · cases found
        · cases found

end Heap

namespace Machine

variable {machine after : Machine} {recorded : OccurrenceId → Option Nat → Prop}

/-! ## What there is -/

/-- If the value is an instance, it exists. -/
def Has (machine : Machine) : Value → Prop
  | .object id => id < machine.objects.size
  | _ => True

theorem Has.later {value : Value} (has : machine.Has value) (later : Later machine after) :
    after.Has value := by
  cases value with
  | object id => exact Nat.lt_of_lt_of_le has later.objects_size
  | _ => trivial

/-- The function is a method that has been bound: the class declares it, just inside the place of
the class its frame binds the receiver. -/
structure IsMethod (machine : Machine) (closure : Closure FrameId) (activation : Activation) :
    Prop where
  receives : machine.forest.own? closure.place thisName = some (.object activation.receiver)
  declares : ∃ info name method, machine.classes[activation.declarer]? = some info ∧
    info.methods.find? name = some method ∧ closure = { method with place := closure.place } ∧
    machine.forest.enclosing? closure.place = some method.place

/-- A function is declared by other code, or else it is a method; only a method can be an
initializer. -/
def Arises (machine : Machine) (closure : Closure FrameId) (owner : Option Activation) : Prop :=
  (machine.Open closure.place ∧ closure.isInitializer = false) ∨
    ∃ activation, owner = some activation ∧ machine.IsMethod closure activation

/-- The function stands where its routine can stand, in the method call that it belongs to. -/
structure Lodged (machine : Machine) (recorded : OccurrenceId → Option Nat → Prop)
    (closure : Closure FrameId) (owner : Option Activation) : Prop where
  stands : ∃ scopes, machine.Lies closure.place scopes owner ∧
    closure.routine.Scoped recorded scopes
  declared : machine.Declared owner closure.routine.receivers
  arises : machine.Arises closure owner

/-- A class with this superclass can bind the method: it stands where its routine can stand once
there is a receiver. -/
inductive Offers (machine : Machine) (recorded : OccurrenceId → Option Nat → Prop)
    (method : Closure FrameId) : Option ClassId → Prop
  | plain {scopes around} : machine.Lies method.place scopes around →
      method.routine.Scoped recorded (receiver :: scopes) → Offers machine recorded method none
  | derived {outer scopes around superclass} :
      machine.forest.own? method.place superName = some (.classRef superclass) →
      machine.forest.enclosing? method.place = some outer →
      machine.Lies outer scopes around →
      method.routine.Scoped recorded (receiver :: inherited :: scopes) →
      Offers machine recorded method (some superclass)

/-- What is true of a machine with these owners of its functions while programs run on it for whose
occurrences this has been recorded. -/
structure Present (recorded : OccurrenceId → Option Nat → Prop) (machine : Machine)
    (owners : Array (Option Activation)) : Prop where
  distances : ∀ id distance?, recorded id distance? → machine.distances.find? id = distance?
  root : machine.forest.enclosing? machine.globals = none
  globals : machine.Open machine.globals
  counted : owners.size = machine.functions.size
  functions : ∀ (id : Nat) (closure : Closure FrameId), machine.functions[id]? = some closure →
    machine.Lodged recorded closure owners[id]?.join
  methods : ∀ (id : ClassId) (info : ClassInfo FrameId) (name : String)
    (method : Closure FrameId), machine.classes[id]? = some info →
    info.methods.find? name = some method → machine.Offers recorded method info.superclass
  values : ∀ frame name value, machine.forest.own? frame name = some value → machine.Has value
  fields : ∀ (id : ObjectId) (object : Instance) (name : String) (value : Value),
    machine.objects[id]? = some object → object.fields.find? name = some value →
    machine.Has value

theorem IsMethod.later {closure : Closure FrameId} {activation : Activation}
    (isMethod : machine.IsMethod closure activation) (steady : Steady machine after) :
    after.IsMethod closure activation := by
  obtain ⟨info, name, method, known, found, same, linked⟩ := isMethod.declares
  have kept := steady.seals _ (.inl (Option.isSome_of_eq_some isMethod.receives)) thisName
  have links := steady.links _ (Forest.lt_size_of_enclosing? linked)
  exact ⟨kept.trans isMethod.receives, info, name, method, steady.classes _ _ known, found, same,
    links.trans linked⟩

theorem Arises.later {closure : Closure FrameId} {owner : Option Activation}
    (arises : machine.Arises closure owner) (steady : Steady machine after) :
    after.Arises closure owner := by
  rcases arises with ⟨opened, plain⟩ | ⟨activation, belongs, isMethod⟩
  · exact .inl ⟨steady.opens _ opened, plain⟩
  · exact .inr ⟨activation, belongs, isMethod.later steady⟩

/-- An initializer finds the receiver of the method call that it belongs to. -/
theorem Arises.receiver {closure : Closure FrameId} {owner : Option Activation}
    (arises : machine.Arises closure owner) (initializer : closure.isInitializer = true) :
    ∃ activation, owner = some activation ∧
      machine.forest.own? closure.place thisName = some (.object activation.receiver) := by
  rcases arises with ⟨_, plain⟩ | ⟨activation, belongs, isMethod⟩
  · rw [initializer] at plain
    cases plain
  · exact ⟨activation, belongs, isMethod.receives⟩

theorem Lodged.later {closure : Closure FrameId} {owner : Option Activation}
    (lodged : machine.Lodged recorded closure owner) (steady : Steady machine after) :
    after.Lodged recorded closure owner := by
  obtain ⟨scopes, lies, holds⟩ := lodged.stands
  exact ⟨⟨scopes, lies.later steady, holds⟩, lodged.declared.later steady.toLater,
    lodged.arises.later steady⟩

theorem Offers.later {method : Closure FrameId} {superclass : Option ClassId}
    (offers : machine.Offers recorded method superclass) (steady : Steady machine after) :
    after.Offers recorded method superclass := by
  cases offers with
  | plain lies holds => exact .plain (lies.later steady) holds
  | derived own linked lies holds =>
      have kept := steady.seals _ (.inr (Option.isSome_of_eq_some own)) superName
      have links := steady.links _ (Forest.lt_size_of_enclosing? linked)
      exact .derived (kept.trans own) (links.trans linked) (lies.later steady) holds

namespace Present

variable {owners : Array (Option Activation)}

/-- Where nothing changes but what frames bind and what else there is. -/
theorem later (present : Present recorded machine owners) (steady : Steady machine after)
    (distances : after.distances = machine.distances)
    (functions : after.functions = machine.functions) (classes : after.classes = machine.classes)
    (values : ∀ frame name value, after.forest.own? frame name = some value → machine.Has value)
    (fields : ∀ (id : ObjectId) (object : Instance) (name : String) (value : Value),
      after.objects[id]? = some object → object.fields.find? name = some value →
      machine.Has value) :
    Present recorded after owners where
  distances := by rw [distances]; exact present.distances
  root := by
    rw [steady.globals, steady.links _ present.globals.present]
    exact present.root
  globals := by rw [steady.globals]; exact steady.opens _ present.globals
  counted := by rw [functions]; exact present.counted
  functions id closure found := by
    rw [functions] at found
    exact (present.functions id closure found).later steady
  methods id info name method known found := by
    rw [classes] at known
    exact (present.methods id info name method known found).later steady
  values frame name value bound := (values frame name value bound).later steady.toLater
  fields id object name value known field :=
    (fields id object name value known field).later steady.toLater

end Present

/-! ## New frames -/

/-- The machine with a new frame in which one name is bound. -/
def enclose (machine : Machine) (outer : FrameId) (name : String) (value : Value) : Machine :=
  (machine.addFrame outer).define machine.forest.size name value

theorem own?_enclose (machine : Machine) (outer : FrameId) (name : String) (value : Value)
    (frame : FrameId) (query : String) :
    (machine.enclose outer name value).forest.own? frame query =
      if frame = machine.forest.size ∧ query = name then some value
      else machine.forest.own? frame query := by
  have new := machine.forest.size_lt_addChild outer
  show ((machine.forest.addChild outer).define machine.forest.size name value).own? frame query = _
  rw [Forest.own?_define _ new, Forest.own?_addChild]

theorem enclosing?_enclose (machine : Machine) (outer : FrameId) (name : String) (value : Value) :
    (machine.enclose outer name value).forest.enclosing? machine.forest.size = some outer :=
  (Forest.enclosing?_define _ _ _ _ _).trans (Forest.enclosing?_addChild_size _ _)

theorem Onward.enclose (machine : Machine) (outer : FrameId) (name : String) (value : Value) :
    Onward machine (machine.enclose outer name value) :=
  (Onward.addFrame machine outer).trans (Onward.define _ _ _ _)

/-! ## Changes that keep frames -/

namespace Steady

/-- Old frames bind what they have bound. -/
theorem of_own (later : Later machine after)
    (same : ∀ frame, frame < machine.forest.size → ∀ name,
      after.forest.own? frame name = machine.forest.own? frame name) : Steady machine after where
  toLater := later
  seals frame known := same frame (known.elim Forest.lt_size_of_own? Forest.lt_size_of_own?)
  opens frame opened := ⟨Nat.lt_of_lt_of_le opened.present later.frames,
    (same frame opened.present _).trans opened.this,
    (same frame opened.present _).trans opened.super⟩

/-- Frames have nothing to do with what else there is. -/
theorem ofHeap (later : Later machine after) (same : after.forest = machine.forest) :
    Steady machine after :=
  of_own later fun _ _ _ => by rw [same]

/-- The code may stand anywhere. -/
theorem moveTo (machine : Machine) (frame : FrameId) :
    Steady machine { machine with current := frame } :=
  ofHeap { Later.refl machine with } rfl

theorem addFrame (machine : Machine) (outer : FrameId) :
    Steady machine (machine.addFrame outer) :=
  of_own (Onward.addFrame machine outer).toLater fun _ _ _ => Forest.own?_addChild _ _ _ _

theorem enclose (machine : Machine) (outer : FrameId) (name : String) (value : Value) :
    Steady machine (machine.enclose outer name value) := by
  apply of_own (Onward.enclose machine outer name value).toLater
  intro frame old query
  rw [own?_enclose, if_neg]
  exact fun same => Nat.ne_of_lt old same.1

/-- A program binds no receiver and no superclass by itself, and nothing where one is bound. -/
theorem define {frame : FrameId} (opened : machine.Open frame) {name : String}
    (notThis : name ≠ thisName) (notSuper : name ≠ superName) (value : Value) :
    Steady machine (machine.define frame name value) where
  toLater := (Onward.define machine frame name value).toLater
  seals other known query := Forest.own?_define_other _ _ _ _ _ _
    (.inl fun same => opened.not_sealed (same ▸ known))
  opens other free := by
    refine ⟨?_, ?_, ?_⟩
    · exact Nat.lt_of_lt_of_eq free.present (Forest.size_define _ _ _ _).symm
    · exact (Forest.own?_define_other _ _ _ _ _ _ (.inr notThis.symm)).trans free.this
    · exact (Forest.own?_define_other _ _ _ _ _ _ (.inr notSuper.symm)).trans free.super

end Steady

/-- A new frame is open. -/
theorem open_addFrame (machine : Machine) (outer : FrameId) :
    (machine.addFrame outer).Open machine.forest.size := by
  have nothing (name : String) : (machine.addFrame outer).forest.own? machine.forest.size name =
      none := by
    show (machine.forest.addChild outer).own? machine.forest.size name = none
    rw [Forest.own?_addChild, Forest.own?, Forest.frame?_of_le _ (Nat.le_refl _)]
    rfl
  refine ⟨?_, nothing thisName, nothing superName⟩
  exact machine.forest.size_lt_addChild outer

namespace Present

variable {owners : Array (Option Activation)} (present : Present recorded machine owners)

include present

theorem define {frame : FrameId} (opened : machine.Open frame) {name : String}
    (notThis : name ≠ thisName) (notSuper : name ≠ superName) {value : Value}
    (has : machine.Has value) : Present recorded (machine.define frame name value) owners := by
  have steady := Steady.define opened notThis notSuper value
  apply present.later steady rfl rfl rfl
  · intro other query found bound
    have bound := (Forest.own?_define _ opened.present _ _ _ _).symm.trans bound
    split at bound
    · cases bound
      exact has
    · exact present.values _ _ _ bound
  · intro id object query found known field
    exact present.fields id object query found known field

theorem addFrame (outer : FrameId) : Present recorded (machine.addFrame outer) owners := by
  have steady := Steady.addFrame machine outer
  apply present.later steady rfl rfl rfl
  · intro frame name value bound
    have bound := (Forest.own?_addChild _ _ _ _).symm.trans bound
    exact present.values _ _ _ bound
  · intro id object name value known field
    exact present.fields id object name value known field

theorem enclose (outer : FrameId) (name : String) {value : Value} (has : machine.Has value) :
    Present recorded (machine.enclose outer name value) owners := by
  have steady := Steady.enclose machine outer name value
  apply present.later steady rfl rfl rfl
  · intro frame query found bound
    rw [own?_enclose] at bound
    split at bound
    · cases bound
      exact has
    · exact present.values _ _ _ bound
  · intro id object query found known field
    exact present.fields id object query found known field

theorem defineAll {frame : FrameId} (opened : machine.Open frame) {entries : List (String × Value)}
    (ordinary : ∀ entry ∈ entries, entry.1 ≠ thisName ∧ entry.1 ≠ superName)
    (has : ∀ entry ∈ entries, machine.Has entry.2) :
    Present recorded { machine with forest := machine.forest.defineAll frame entries } owners ∧
      Steady machine { machine with forest := machine.forest.defineAll frame entries } := by
  induction entries generalizing machine with
  | nil => exact ⟨present, .refl machine⟩
  | cons entry rest induction =>
      rw [List.forall_mem_cons] at ordinary has
      have steady := Steady.define opened ordinary.1.1 ordinary.1.2 entry.2
      have first := present.define opened ordinary.1.1 ordinary.1.2 has.1
      obtain ⟨others, further⟩ := induction first (steady.opens _ opened) ordinary.2
        fun other member => (has.2 other member).later steady.toLater
      exact ⟨others, steady.trans further⟩

/-! ### Changes of the heap -/

theorem addFunction {closure : Closure FrameId} {owner : Option Activation}
    (lodged : machine.Lodged recorded closure owner) :
    Present recorded (machine.onHeap (·.addFunction closure)) (owners.push owner) := by
  have steady := Steady.ofHeap (Onward.addFunction machine closure).toLater rfl
  refine { present with
    globals := steady.opens _ present.globals
    counted := ?_
    functions := ?_
    methods := fun id info name method known found =>
      (present.methods id info name method known found).later steady
    values := fun frame name value bound => (present.values _ _ _ bound).later steady.toLater
    fields := fun id object name value known field =>
      (present.fields id object name value known field).later steady.toLater }
  · show (owners.push owner).size = (machine.functions.push closure).size
    rw [Array.size_push, Array.size_push, present.counted]
  · intro id other found
    have found : (machine.functions.push closure)[id]? = some other := found
    rw [Array.getElem?_push] at found
    rw [Array.getElem?_push, present.counted]
    split at found
    · cases found
      rename_i new
      rw [if_pos new]
      exact lodged.later steady
    · rename_i old
      rw [if_neg old]
      exact (present.functions id other found).later steady

theorem addClass {info : ClassInfo FrameId}
    (offers : ∀ name method, info.methods.find? name = some method →
      machine.Offers recorded method info.superclass) :
    Present recorded (machine.onHeap (·.addClass info)) owners := by
  have steady := Steady.ofHeap (Onward.addClass machine info).toLater rfl
  refine { present with
    globals := steady.opens _ present.globals
    functions := fun id closure found => (present.functions id closure found).later steady
    methods := ?_
    values := fun frame name value bound => (present.values _ _ _ bound).later steady.toLater
    fields := fun id object name value known field =>
      (present.fields id object name value known field).later steady.toLater }
  intro id other name method known found
  have known : (machine.classes.push info)[id]? = some other := known
  rw [Array.getElem?_push] at known
  split at known
  · cases known
    exact (offers name method found).later steady
  · exact (present.methods id other name method known found).later steady

theorem addObject (id : ClassId) :
    Present recorded (machine.onHeap (·.addObject ⟨id, ∅⟩)) owners := by
  have steady := Steady.ofHeap (Onward.addObject machine ⟨id, ∅⟩).toLater rfl
  apply present.later steady rfl rfl rfl
  · intro frame name value bound
    exact present.values _ _ _ bound
  · intro other object name value known field
    have known : (machine.objects.push ⟨id, ∅⟩)[other]? = some object := known
    rw [Array.getElem?_push] at known
    split at known
    · cases known
      cases field
    · exact present.fields other object name value known field

theorem setField (id : ObjectId) (name : String) {value : Value} (has : machine.Has value) :
    Present recorded (machine.onHeap (·.setField id name value)) owners := by
  have steady := Steady.ofHeap (Onward.setField machine id name value).toLater rfl
  apply present.later steady rfl rfl rfl
  · intro frame query found bound
    exact present.values _ _ _ bound
  · intro other object query found known field
    have known : (machine.objects.modify id fun object =>
      { object with fields := object.fields.set name value })[other]? = some object := known
    rw [Array.getElem?_modify] at known
    split at known
    · obtain ⟨old, kept, rfl⟩ := Option.map_eq_some_iff.mp known
      rw [Table.find?_set] at field
      split at field
      · cases field
        exact has
      · exact present.fields _ old query found kept field
    · exact present.fields other object query found known field

theorem withOutput (sink : Sink) (ticks : Nat) :
    Present recorded { machine with sink := sink, ticks := ticks } owners := by
  have steady := Steady.ofHeap (Onward.withOutput machine sink ticks).toLater rfl
  apply present.later steady rfl rfl rfl
  · intro frame name value bound
    exact present.values _ _ _ bound
  · intro id object name value known field
    exact present.fields id object name value known field

theorem moveTo (frame : FrameId) : Present recorded { machine with current := frame } owners :=
  present.later (.moveTo machine frame) rfl rfl rfl present.values present.fields

end Present

/-! ## Binding -/

/-- A method that has been found is lodged when it is bound: it belongs to a call for the receiver
of a method of the class that declares it. -/
theorem Offers.lodged {declarer : ClassId} {info : ClassInfo FrameId} {name : String}
    {method : Closure FrameId} (offers : machine.Offers recorded method info.superclass)
    (known : machine.classes[declarer]? = some info)
    (found : info.methods.find? name = some method) (object : ObjectId) :
    (machine.enclose method.place thisName (.object object)).Lodged recorded
      { method with place := machine.forest.size } (some ⟨declarer, object⟩) := by
  have steady := Steady.enclose machine method.place thisName (.object object)
  have own : (machine.enclose method.place thisName (.object object)).forest.own?
      machine.forest.size thisName = some (.object object) := by
    rw [own?_enclose, if_pos ⟨rfl, rfl⟩]
  have linked := enclosing?_enclose machine method.place thisName (.object object)
  generalize superclass : info.superclass = parent at offers
  refine ⟨?_, ?_, ?_⟩
  · cases offers with
    | plain lies holds => exact ⟨_, .plain own linked (lies.later steady), holds⟩
    | derived parent around lies holds =>
        have kept := steady.seals _ (.inr (Option.isSome_of_eq_some parent)) superName
        have links := steady.links _ (Forest.lt_size_of_enclosing? around)
        exact ⟨_, .derived own linked (steady.classes _ _ known) superclass (kept.trans parent)
          (links.trans around) (lies.later steady), holds⟩
  · rintro activation ⟨⟩ occurrence member
    exact ⟨info, name, method, steady.classes _ _ known, found, member⟩
  · exact .inr ⟨_, rfl, own, info, name, method, steady.classes _ _ known, found, rfl, linked⟩

end Machine

end Lox
