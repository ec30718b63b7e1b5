import Lox.Proofs.Fields.Tracing
/-! What reading a property yields. A property that has been assigned is what it was assigned last,
whatever has happened since. One that has not been assigned is a method of the nearest class that
has it, bound anew to the instance, or else it is not defined. -/

namespace Lox

open History

/-! ## Methods of the nearest class -/

namespace Machine

variable {machine : Machine} {id : ClassId} {name : String} {method : Closure FrameId}

/-- The method stands in the body of the nearest class that has one of this name, from this class
on upwards. -/
inductive Provides (machine : Machine) (name : String) : ClassId → Closure FrameId → Prop
  | own {id info method} : machine.classes[id]? = some info →
      info.methods.find? name = some method → Provides machine name id method
  | inherited {id info superclass method} : machine.classes[id]? = some info →
      info.methods.find? name = none → info.superclass = some superclass →
      Provides machine name superclass method → Provides machine name id method

theorem Provides.method? (layered : machine.Layered) (provides : machine.Provides name id method) :
    machine.method? id name = some method := by
  induction provides with
  | own known own =>
      rw [Heap.method?, known]
      simp only [own]
  | inherited known own parent _ induction =>
      rw [Heap.method?, known]
      simp only [own, parent]
      rw [if_pos (layered _ _ _ known parent)]
      exact induction

theorem provides_of_method? (found : machine.method? id name = some method) :
    machine.Provides name id method := by
  induction id using Nat.strongRecOn with
  | ind id induction =>
      rw [Heap.method?] at found
      split at found
      · cases found
      · rename_i info known
        split at found
        · rename_i own
          cases found
          exact .own known own
        · rename_i superclass own parent
          split at found
          · rename_i older
            exact .inherited known own parent (induction superclass older found)
          · cases found
        · cases found

/-- The run makes a function that there has not been before: the method, in a frame of its own that
binds the instance. It leaves the instances as they are. -/
def MakesMethod (machine : Machine) (method : Closure FrameId) (id : ObjectId)
    (result : EStateM.Result Stop Machine Value) : Prop :=
  ∃ place after, result = .ok (.function machine.functions.size) after ∧
    after.functions[machine.functions.size]? = some { method with place := place } ∧
    after.forest.enclosing? place = some method.place ∧
    after.BoundTo { method with place := place } id ∧ after.objects = machine.objects

theorem makesMethod (method : Closure FrameId) {id : ObjectId}
    (present : id < machine.objects.size) :
    machine.MakesMethod method id ((Run.bind method id >>= Run.newFunction) machine) := by
  refine ⟨machine.forest.size, (machine.enclose method.place thisName (.object id)).onHeap
    (·.addFunction { method with place := machine.forest.size }), rfl, ?_, ?_, ⟨?_, present⟩, rfl⟩
  · exact Array.getElem?_push_size
  · exact enclosing?_enclose machine method.place thisName (.object id)
  · exact (own?_enclose machine method.place thisName (.object id) _ _).trans (if_pos ⟨rfl, rfl⟩)

/-- A function that is still to be made equals no value that refers to what has been made. -/
theorem Knows.not_equals {value : Value} (knows : machine.Knows value) {after : Machine}
    (later : Later machine after) :
    (Value.function after.functions.size).equals value = false := by
  cases value with
  | function id =>
      have older := Nat.lt_of_lt_of_le knows (size_le_of_kept later.functions)
      exact beq_eq_false_iff_ne.mpr (Nat.ne_of_gt older)
  | _ => rfl

end Machine

/-- A property is a field, or else a method of the class, or else it is not defined. -/
theorem Run.property_eq {machine : Machine} {id : ObjectId} {object : Instance} (name : Token)
    (known : machine.objects[id]? = some object) :
    property id name machine =
      match object.fields.find? name.lexeme, machine.method? object.classId name.lexeme with
      | some value, _ => .ok value machine
      | none, some method => (bind method id >>= newFunction) machine
      | none, none => .error (.fault (.undefinedProperty name.lexeme) name.line) machine := by
  rw [property, get_bind_apply, known, Option.bind_some, Option.bind_some]
  cases object.fields.find? name.lexeme with
  | some value => rfl
  | none => cases machine.method? object.classId name.lexeme <;> rfl

namespace History

/-! ## Last assignments -/

/-- The value is what the property of the instance was assigned last. -/
inductive LastAssigned (id : ObjectId) (name : String) : List Moment → Value → Prop
  | here {past value} : Assigns id name value past → LastAssigned id name past value
  | earlier {moment past value} : (∀ other, ¬ Assigns id name other (moment :: past)) →
      LastAssigned id name past value → LastAssigned id name (moment :: past) value

/-- The property of the instance has never been assigned. -/
def Unassigned (id : ObjectId) (name : String) (past : List Moment) : Prop :=
  ∀ value earlier, earlier <:+ past → ¬ Assigns id name value earlier

variable {fuel : Nat} {around : Option Activation} {chronicle start middle : Chronicle}
  {id : ObjectId} {name : String} {value : Value} {moment : Moment} {past before : List Moment}

theorem Unassigned.of_cons (unassigned : Unassigned id name (moment :: past)) :
    Unassigned id name past :=
  fun value earlier suffix => unassigned value earlier (suffix.trans (List.suffix_cons _ _))

theorem lastAssigned_or_unassigned (id : ObjectId) (name : String) (past : List Moment) :
    (∃ value, LastAssigned id name past value) ∨ Unassigned id name past := by
  by_cases assigned : ∃ value, Assigns id name value past
  · obtain ⟨value, assigns⟩ := assigned
    exact .inl ⟨value, .here assigns⟩
  · induction past with
    | nil =>
        refine .inr fun value earlier suffix assigns => assigned ⟨value, ?_⟩
        exact List.suffix_nil.mp suffix ▸ assigns
    | cons moment past induction =>
        by_cases older : ∃ value, Assigns id name value past
        · obtain ⟨value, assigns⟩ := older
          exact .inl ⟨value, .earlier (fun other now => assigned ⟨other, now⟩) (.here assigns)⟩
        · rcases induction older with ⟨value, last⟩ | unassigned
          · exact .inl ⟨value, .earlier (fun other now => assigned ⟨other, now⟩) last⟩
          · refine .inr fun value earlier suffix assigns => ?_
            rcases List.suffix_cons_iff.mp suffix with same | within
            · exact assigned ⟨value, same ▸ assigns⟩
            · exact unassigned value earlier within assigns

/-- An assignment is a step that follows the value that is assigned. -/
theorem Assigns.events (assigns : Assigns id name value past) :
    ∃ expr earlier, past.map Moment.event = .passes :: .yields expr value :: earlier := by
  obtain ⟨fuel, around, object, token, expr, start, middle, after, _, _, ended, _, past⟩ := assigns
  obtain ⟨_, _, done, left, _, evaluated, assigned, rfl⟩ := evaluate_set_iff.mp ended
  obtain ⟨earlier, last⟩ := evaluate_past evaluated
  cases past
  cases assigned
  refine ⟨expr, earlier.map Moment.event, ?_⟩
  show Event.passes :: done.past.map Moment.event = _
  rw [last]
  rfl

/-- Moments of other kinds come between. -/
theorem LastAssigned.later (last : LastAssigned id name past value)
    (others : ∀ expr other earlier, moment.event :: past.map Moment.event ≠
      .passes :: .yields expr other :: earlier) :
    LastAssigned id name (moment :: past) value := by
  refine .earlier (fun other assigns => ?_) last
  obtain ⟨expr, earlier, same⟩ := assigns.events
  exact others expr other earlier same

theorem instances_evaluate {expr : Expr}
    (ended : evaluate fuel around expr chronicle = .ok value middle) :
    instances middle.past = middle.objects := by
  obtain ⟨earlier, past⟩ := evaluate_past ended
  rw [past]
  rfl

namespace Chronicle.Traced

variable (traced : chronicle.Traced)

include traced

/-- An instance that an expression has yielded is there. -/
theorem evaluated {expr : Expr} (ended : evaluate fuel around expr start = .ok (.object id) middle)
    (within : middle.past <:+ chronicle.past) : id < middle.objects.size := by
  obtain ⟨earlier, past⟩ := evaluate_past ended
  rw [past] at within
  exact traced.mentions _ (within.subset List.mem_cons_self) _ (.event rfl)

/-- An instance that is there stays there. -/
theorem stays (suffix : before <:+ past) (within : past <:+ chronicle.past) {object : Instance}
    (found : (instances before)[id]? = some object) :
    ∃ later, (instances past)[id]? = some later := by
  obtain ⟨added, rfl⟩ := suffix
  induction added with
  | nil => exact ⟨object, found⟩
  | cons moment added induction =>
      obtain ⟨object, found⟩ := induction ((List.suffix_cons _ _).trans within)
      obtain ⟨later, found, _⟩ := (traced.always moment _ within).kept id object found
      exact ⟨later, found⟩

theorem field_of_assigns (assigns : Assigns id name value past)
    (within : past <:+ chronicle.past) :
    ∃ object, (instances past)[id]? = some object ∧ object.fields.find? name = some value := by
  obtain ⟨fuel, around, object, token, expr, start, middle, after, _, found, ended, rfl, past⟩ :=
    assigns
  obtain ⟨_, _, done, left, again, evaluated, assigned, rfl⟩ := evaluate_set_iff.mp ended
  cases found.symm.trans again
  cases past
  cases assigned
  have recent : done.past <:+ chronicle.past := (List.suffix_cons _ _).trans within
  have grows := evaluate_grows evaluated
  have present := traced.evaluated found (grows.trans recent)
  have known : (instances middle.past)[id]? = some middle.objects[id] := by
    rw [instances_evaluate found]
    exact Array.getElem?_eq_getElem present
  obtain ⟨last, known⟩ := traced.stays grows recent known
  rw [instances_evaluate evaluated] at known
  refine ⟨{ last with fields := last.fields.set token.lexeme value }, ?_, Table.find?_set_same _ _ _⟩
  show (done.objects.modify id fun object =>
    { object with fields := object.fields.set token.lexeme value })[id]? = _
  rw [Array.getElem?_modify, if_pos rfl, known]
  rfl

/-- What a property was assigned last stands in the field. -/
theorem field_of_lastAssigned (last : LastAssigned id name past value)
    (within : past <:+ chronicle.past) :
    ∃ object, (instances past)[id]? = some object ∧ object.fields.find? name = some value := by
  induction last with
  | here assigns => exact traced.field_of_assigns assigns within
  | earlier unassigned _ induction =>
      obtain ⟨object, found, field⟩ := induction ((List.suffix_cons _ _).trans within)
      obtain ⟨later, found, _, fields⟩ := (traced.always _ _ within).kept id object found
      refine ⟨later, found, ?_⟩
      rcases fields name with same | ⟨other, assigns⟩
      · exact same.trans field
      · exact absurd assigns (unassigned other)

/-- An instance has no field that has never been assigned. -/
theorem field_of_unassigned (unassigned : Unassigned id name past)
    (within : past <:+ chronicle.past) {object : Instance}
    (found : (instances past)[id]? = some object) : object.fields.find? name = none := by
  induction past generalizing object with
  | nil => simp [instances] at found
  | cons moment past induction =>
      have follows := traced.always moment past within
      cases there : (instances past)[id]? with
      | none =>
          rw [follows.made id object there found]
          rfl
      | some earlier =>
          have absent := induction unassigned.of_cons ((List.suffix_cons _ _).trans within) there
          obtain ⟨later, known, _, fields⟩ := follows.kept id earlier there
          cases found.symm.trans known
          rcases fields name with same | ⟨value, assigns⟩
          · exact same.trans absent
          · exact absurd assigns (unassigned value _ (List.suffix_refl _))

end Chronicle.Traced

/-! ## Reading -/

/-- After these moments a property of the instance is read: the object of the expression has just
been evaluated to the instance. This is how the evaluation of the whole expression ends. -/
def Reads (id : ObjectId) (token : Token) (result : EStateM.Result Stop Machine Value)
    (past : List Moment) : Prop :=
  ∃ (fuel : Nat) (around : Option Activation) (object : Expr) (start middle : Chronicle),
    evaluate fuel around object
      (start.note around (.starts (.evaluate (.get object token)))) = .ok (.object id) middle ∧
    Lox.evaluate (fuel + 1) (.get object token) start.toMachine = result ∧ middle.past = past

theorem evaluate_get {object : Expr} {token : Token} {machine after : Machine}
    (ended : Lox.evaluate fuel object machine = .ok (.object id) after) :
    Lox.evaluate (fuel + 1) (.get object token) machine = Run.property id token after := by
  rw [Lox.evaluate.eq_def]
  dsimp only
  rw [bind_apply, ended]

theorem Reads.property {token : Token} {result : EStateM.Result Stop Machine Value}
    (reads : Reads id token result (moment :: before)) (traced : chronicle.Traced)
    (within : moment :: before <:+ chronicle.past) :
    id < moment.machine.objects.size ∧ result = Run.property id token moment.machine := by
  obtain ⟨fuel, around, object, start, middle, found, rfl, past⟩ := reads
  have records := (compatible_records.corresponds fuel).evaluate around object
    (start.note around (.starts (.evaluate (.get object token))))
  rw [found] at records
  have present := traced.evaluated found (past ▸ within)
  obtain ⟨_, last⟩ := evaluate_past found
  cases past.symm.trans last
  exact ⟨present, evaluate_get records.symm⟩

/-- What the property of an instance is at this moment. -/
theorem Chronicle.Traced.property_eq (traced : chronicle.Traced) (layered : moment.machine.Layered)
    (within : moment :: before <:+ chronicle.past) (token : Token)
    (present : id < moment.machine.objects.size) :
    (∀ value, LastAssigned id token.lexeme (moment :: before) value →
      Run.property id token moment.machine = .ok value moment.machine) ∧
    (Unassigned id token.lexeme (moment :: before) →
      ∃ object, moment.machine.objects[id]? = some object ∧
        (∀ method, moment.machine.Provides token.lexeme object.classId method →
          moment.machine.MakesMethod method id (Run.property id token moment.machine)) ∧
        ((∀ method, ¬ moment.machine.Provides token.lexeme object.classId method) →
          Run.property id token moment.machine =
            .error (.fault (.undefinedProperty token.lexeme) token.line) moment.machine)) := by
  refine ⟨fun value last => ?_, fun unassigned => ?_⟩
  · obtain ⟨object, known, field⟩ := traced.field_of_lastAssigned last within
    rw [Run.property_eq token known, field]
  · have known : moment.machine.objects[id]? = some _ := Array.getElem?_eq_getElem present
    have absent := traced.field_of_unassigned unassigned within known
    refine ⟨_, known, fun method provides => ?_, fun none => ?_⟩
    · rw [Run.property_eq token known, absent, provides.method? layered]
      exact Machine.makesMethod method present
    · have missing := Option.eq_none_iff_forall_ne_some.mpr fun method found =>
        none method (Machine.provides_of_method? found)
      rw [Run.property_eq token known, absent, missing]

end History

/-! ## A property that is assigned and read

An instance of a class without methods is bound to a name. In the next statement a property of it
is assigned, and in the one after that the property is read. -/

namespace Assigned

def name : Token := ⟨.identifier, "b", 1⟩

def assignment : Expr := .set (.read 1 ⟨.identifier, "a", 1⟩) name (.literal .nil)

def reading : Expr := .get (.read 2 ⟨.identifier, "a", 1⟩) name

def classDeclared : Stmt := .classDecl ⟨.identifier, "A", 1⟩ none []

def instanceBound : Stmt := .var ⟨.identifier, "a", 1⟩
  (some (.call (.read 0 ⟨.identifier, "A", 1⟩) ⟨.mark .rightParen, ")", 1⟩ []))

def program : List Stmt :=
  [classDeclared, instanceBound, .expression assignment, .expression reading]

def start : History.Session := .of (.start .unlimited fun _ => 0)

/-- The name is bound to an instance. -/
def bound : Chronicle :=
  leftBy (History.execute 9 none instanceBound
    (leftBy (History.execute 9 none classDeclared start.chronicle)))

/-- A property of the instance is assigned. -/
def assigned : Chronicle := leftBy (History.execute 9 none (.expression assignment) bound)

/-- The same property is about to be read. -/
def reached : Chronicle :=
  leftBy (History.evaluate 7 none (.read 2 ⟨.identifier, "a", 1⟩)
    ((assigned.note none (.starts (.execute (.expression reading)))).note none
      (.starts (.evaluate reading))))

theorem past_run : ((start.runAll 9 ["class A{}var a=A();a.b=nil;a.b;"]).2.chronicle.past) =
    (leftBy (History.executeProgram 9 program start.chronicle)).past := by
  have source : readSource "class A{}var a=A();a.b=nil;a.b;" 0 = ⟨[], program, 3⟩ := by
    with_unfolding_all rfl
  have resolved : resolve program = ⟨∅, []⟩ := by
    with_unfolding_all rfl
  show (start.run 9 "class A{}var a=A();a.b=nil;a.b;").2.chronicle.past = _
  rw [History.Session.run, show start.nextId = 0 from rfl, source]
  dsimp only
  rw [resolved]
  exact congrArg (·.chronicle.past) (History.Session.ended_snd 3 _)

theorem reached_suffix : reached.past <:+
    (leftBy (History.executeProgram 9 program start.chronicle)).past :=
  ⟨(leftBy (History.executeProgram 9 program start.chronicle)).past.take 3, by
    with_unfolding_all rfl⟩

theorem evaluated : History.evaluate 7 none (.read 2 ⟨.identifier, "a", 1⟩)
    ((assigned.note none (.starts (.execute (.expression reading)))).note none
      (.starts (.evaluate reading))) = .ok (.object 0) reached := by
  with_unfolding_all rfl

theorem assigns : ∃ moment past, moment.event = .yields assignment .nil ∧
    assigned.past = moment :: past ∧ Assigns 0 name.lexeme .nil past := by
  have found : ∃ middle, History.evaluate 7 none (.read 1 ⟨.identifier, "a", 1⟩)
      ((bound.note none (.starts (.execute (.expression assignment)))).note none
        (.starts (.evaluate assignment))) = .ok (.object 0) middle :=
    ⟨_, by with_unfolding_all rfl⟩
  have done : History.evaluate 8 none assignment
      (bound.note none (.starts (.execute (.expression assignment)))) = .ok .nil assigned := by
    with_unfolding_all rfl
  obtain ⟨middle, found⟩ := found
  obtain ⟨past, ends⟩ := evaluate_past done
  exact ⟨_, past, rfl, ends, 7, none, _, name, _, _, middle, assigned, _, found, done, rfl, ends⟩

theorem lastAssigned : LastAssigned 0 name.lexeme reached.past .nil := by
  have reaches : ∃ read looked starts evaluates executes, reached.past =
      read :: looked :: starts :: evaluates :: executes :: assigned.past ∧
      [read, starts, evaluates, executes].map Moment.event =
        [.yields (.read 2 ⟨.identifier, "a", 1⟩) (.object 0),
          .starts (.evaluate (.read 2 ⟨.identifier, "a", 1⟩)), .starts (.evaluate reading),
          .starts (.execute (.expression reading))] :=
    ⟨_, _, _, _, _, by with_unfolding_all rfl, by with_unfolding_all rfl⟩
  obtain ⟨read, looked, starts, evaluates, executes, past, events⟩ := reaches
  obtain ⟨moment, before, yields, ends, assigns⟩ := assigns
  simp only [List.map_cons, List.map_nil, List.cons.injEq, and_true] at events
  obtain ⟨readEvent, startsEvent, evaluatesEvent, executesEvent⟩ := events
  rw [past, ends]
  refine .later (.later (.later (.later (.later (.later (.here assigns) ?_) ?_) ?_) ?_) ?_) ?_
  all_goals simp [*]

theorem reads : ∃ result, Reads 0 name result reached.past :=
  ⟨_, 7, none, _, _, reached, evaluated, rfl, rfl⟩

end Assigned

/-! ## Sessions -/

/-- In every session a property that is read is what it was assigned last on this very instance. If
it was never assigned it is a method of the nearest class that has one, as a function that is made
anew and bound to the instance, and that equals no value from before; if no class has one it is not
defined. From each moment to the next classes stay as they are, instances keep their classes, and
their fields change by assignments only. -/
theorem properties_read_last_assignment (fuel : Nat) (sink : Sink) (clock : Nat → Float)
    (sources : List String) :
    let ran := (History.Session.of (.start sink clock)).runAll fuel sources
    (ran.1, ran.2.forget) = (Session.start sink clock).runAll fuel sources ∧
    ran.2.forget.machine.objects = instances ran.2.chronicle.past ∧
    ∀ moment before, moment :: before <:+ ran.2.chronicle.past →
      (∀ id token result, Reads id token result (moment :: before) →
        ((∃ value, LastAssigned id token.lexeme (moment :: before) value) ∨
          Unassigned id token.lexeme (moment :: before)) ∧
        (∀ value, LastAssigned id token.lexeme (moment :: before) value →
          result = .ok value moment.machine) ∧
        (Unassigned id token.lexeme (moment :: before) →
          ∃ object, moment.machine.objects[id]? = some object ∧
            (∀ method, moment.machine.Provides token.lexeme object.classId method →
              moment.machine.MakesMethod method id result) ∧
            ((∀ method, ¬ moment.machine.Provides token.lexeme object.classId method) →
              result =
                .error (.fault (.undefinedProperty token.lexeme) token.line) moment.machine))) ∧
      (∀ earlier ∈ moment :: before, ∀ value, earlier.Mentions value →
        (Value.function moment.machine.functions.size).equals value = false) ∧
      Follows moment before ∧
      ∀ earlier ∈ before, ∀ (id : ClassId) (info : ClassInfo FrameId),
        earlier.machine.classes[id]? = some info → moment.machine.classes[id]? = some info := by
  intro ran
  have sound := ((History.Session.Sound.start sink clock).runAll fuel sources).sound
  have traced := History.Session.traced_runAll (History.Session.traced_start sink clock) fuel sources
  refine ⟨History.Session.runAll_forget fuel _ sources, traced.now,
    fun moment before within => ⟨?_, ?_, traced.always moment before within, ?_⟩⟩
  · intro id token result reads
    obtain ⟨present, rfl⟩ := reads.property traced within
    refine ⟨lastAssigned_or_unassigned id token.lexeme _, ?_⟩
    have later := (sound.since moment (within.subset List.mem_cons_self)).toLater
    exact traced.property_eq (traced.grounded.parents.of_later later) within token present
  · intro earlier member value mentions
    have knows := traced.mentions earlier (within.subset member) value mentions
    rcases List.mem_cons.mp member with rfl | older
    · exact knows.not_equals (.refl _)
    · have steadily := sound.steadily.sublist within.sublist
      exact knows.not_equals ((List.pairwise_cons.mp steadily).1 earlier older).toLater
  · intro earlier member id info found
    have steadily := sound.steadily.sublist within.sublist
    exact ((List.pairwise_cons.mp steadily).1 earlier member).classes id info found

/-- A property that is read in the statement after its assignment. -/
theorem properties_read_last_assignment_assigned :
    let ran := (History.Session.of (.start .unlimited fun _ => 0)).runAll 9
      ["class A{}var a=A();a.b=nil;a.b;"]
    ∃ moment before result, moment :: before <:+ ran.2.chronicle.past ∧
      Reads 0 Assigned.name result (moment :: before) ∧
      LastAssigned 0 Assigned.name.lexeme (moment :: before) .nil ∧
      result = .ok .nil moment.machine := by
  intro ran
  have within : Assigned.reached.past <:+ ran.2.chronicle.past :=
    Assigned.past_run ▸ Assigned.reached_suffix
  have last := Assigned.lastAssigned
  obtain ⟨result, reads⟩ := Assigned.reads
  obtain ⟨before, past⟩ := evaluate_past Assigned.evaluated
  rw [past] at within last reads
  have holds := (properties_read_last_assignment 9 .unlimited (fun _ => 0)
    ["class A{}var a=A();a.b=nil;a.b;"]).2.2 _ before within
  exact ⟨_, before, result, within, reads, last,
    (holds.1 0 Assigned.name result reads).2.1 .nil last⟩

end Lox
