import Lox.Proofs.Fields.Grounding
import Lox.Proofs.History.Initializers
/-! What changes instances. An instance is made without fields, and its fields are changed by
assignments to it and by nothing else. That every step of a run keeps this is shown together with
that a run mentions only what has been made: one rule for each way of putting code together. -/

namespace Lox.History

/-! ## Memories grow -/

theorem composes_grows : Composes fun recorded _ => ∀ chronicle : Chronicle,
    chronicle.past <:+ (leftBy (recorded chronicle)).past where
  value _ chronicle := List.suffix_refl _
  stop _ chronicle := List.suffix_refl _
  bind starts goes chronicle :=
    leftBy_bind (fun before after : Chronicle => before.past <:+ after.past)
      (fun first second => first.trans second) (starts chronicle)
      fun value middle _ _ => goes value middle
  look _ goes chronicle := goes chronicle chronicle
  note _ _ _ := List.suffix_cons _ _
  step around _ _ _ chronicle := by
    rw [step_apply, leftBy_endIn]
    exact List.suffix_cons _ _
  prints around _ chronicle := by
    rw [step_apply, leftBy_endIn]
    exact List.suffix_cons _ _
  inside frame grows chronicle := by
    rw [inside_apply, leftBy_endIn]
    exact grows { chronicle with current := frame }

/-- What has been written down stays written down. -/
theorem code_grows (fuel : Nat) : Corresponds (fun recorded _ => ∀ chronicle : Chronicle,
    chronicle.past <:+ (leftBy (recorded chronicle)).past) fuel :=
  (composes_grows.compatible fun around info chronicle => by
    rw [take, step_apply, leftBy_endIn]
    exact List.suffix_cons _ _).corresponds fuel

variable {fuel : Nat} {around : Option Activation} {chronicle after : Chronicle} {given : Value}
  {id : ObjectId} {name : String} {past : List Moment} {moment : Moment}

theorem evaluate_grows {expr : Expr} (ended : evaluate fuel around expr chronicle = .ok given after) :
    chronicle.past <:+ after.past := by
  have grows := (code_grows fuel).evaluate around expr chronicle
  rw [ended] at grows
  exact grows

/-- The value of an expression is written down last. -/
theorem evaluate_past {expr : Expr} (ended : evaluate fuel around expr chronicle = .ok given after) :
    ∃ earlier, after.past =
      ⟨around, .yields expr given, after.toMachine, after.owners⟩ :: earlier := by
  cases fuel with
  | zero =>
      rw [evaluate.eq_def] at ended
      cases ended
  | succ fuel =>
      rw [evaluate.eq_def] at ended
      obtain ⟨_, _, _, ended⟩ := exists_of_bind_ok ended
      obtain ⟨result, done, _, ended⟩ := exists_of_bind_ok ended
      cases ended
      exact ⟨done.past, rfl⟩

/-! ## Assignments to properties -/

/-- An assignment is done when its object and its value have been evaluated and its step taken. -/
theorem evaluate_set_iff {object expr : Expr} {token : Token} {start : Chronicle} :
    evaluate (fuel + 1) around (.set object token expr) start = .ok given after ↔
      ∃ id middle done left,
        evaluate fuel around object
          (start.note around (.starts (.evaluate (.set object token expr)))) =
            .ok (.object id) middle ∧
        evaluate fuel around expr middle = .ok given done ∧
        take around (modify (·.onHeap (·.setField id token.lexeme given))) done = .ok () left ∧
        after = left.note around (.yields (.set object token expr) given) := by
  rw [evaluate.eq_def]
  dsimp only
  constructor
  · intro ended
    obtain ⟨_, noted, starts, ended⟩ := exists_of_bind_ok ended
    cases starts
    obtain ⟨value, left, body, ended⟩ := exists_of_bind_ok ended
    cases ended
    obtain ⟨target, middle, found, body⟩ := exists_of_bind_ok body
    cases target with
    | object id =>
        obtain ⟨given, done, evaluated, body⟩ := exists_of_bind_ok body
        obtain ⟨_, left, assigned, body⟩ := exists_of_bind_ok body
        cases body
        exact ⟨id, middle, done, left, found, evaluated, assigned, rfl⟩
    | _ => cases body
  · rintro ⟨id, middle, done, left, found, evaluated, assigned, rfl⟩
    refine bind_ok rfl (bind_ok (bind_ok found ?_) rfl)
    exact bind_ok evaluated (bind_ok assigned rfl)

/-- An assignment to this property of the instance is done: its object has been evaluated to the
instance, it has yielded the value, and the last of these moments is its step. -/
def Assigns (id : ObjectId) (name : String) (value : Value) (past : List Moment) : Prop :=
  ∃ (fuel : Nat) (around : Option Activation) (object : Expr) (token : Token) (expr : Expr)
      (start middle after : Chronicle) (moment : Moment),
    evaluate fuel around object
      (start.note around (.starts (.evaluate (.set object token expr)))) =
        .ok (.object id) middle ∧
    evaluate (fuel + 1) around (.set object token expr) start = .ok value after ∧
    token.lexeme = name ∧ after.past = moment :: past

/-- The instances after the last of these moments. Before all of them there are none. -/
def instances : List Moment → Array Instance
  | [] => #[]
  | moment :: _ => moment.machine.objects

/-- From the earlier moments to this one an instance keeps its class, and its fields but for those
that the moment assigns; and a new instance has no fields. -/
structure Follows (moment : Moment) (earlier : List Moment) : Prop where
  kept : ∀ (id : ObjectId) (object : Instance), (instances earlier)[id]? = some object →
    ∃ later : Instance, moment.machine.objects[id]? = some later ∧
      later.classId = object.classId ∧
      ∀ name, later.fields.find? name = object.fields.find? name ∨
        ∃ value, Assigns id name value (moment :: earlier)
  made : ∀ (id : ObjectId) (object : Instance), (instances earlier)[id]? = none →
    moment.machine.objects[id]? = some object → object.fields = ∅

theorem Follows.of_same (same : moment.machine.objects = instances past) : Follows moment past where
  kept id object found := ⟨object, same ▸ found, rfl, fun _ => .inl rfl⟩
  made id object absent found := by
    rw [same, absent] at found
    cases found

theorem Follows.of_addObject {object : Instance} (empty : object.fields = ∅)
    (same : moment.machine.objects = (instances past).push object) : Follows moment past where
  kept id other found := by
    rw [same]
    exact ⟨other, Machine.Onward.getElem?_push_of_some found, rfl, fun _ => .inl rfl⟩
  made id other absent found := by
    rw [same, Array.getElem?_push] at found
    split at found
    · cases found
      exact empty
    · rw [absent] at found
      cases found

theorem Follows.of_setField (assigns : Assigns id name given (moment :: past))
    (same : moment.machine.objects = (instances past).modify id fun object =>
      { object with fields := object.fields.set name given }) : Follows moment past where
  kept other object found := by
    rw [same, Array.getElem?_modify, found]
    split
    · rename_i here
      cases here
      refine ⟨_, rfl, rfl, fun query => ?_⟩
      by_cases equal : query = name
      · cases equal
        exact .inr ⟨given, assigns⟩
      · exact .inl (Table.find?_set_other _ equal _)
    · exact ⟨object, rfl, rfl, fun _ => .inl rfl⟩
  made other object absent found := by
    rw [same, Array.getElem?_modify, absent] at found
    split at found <;> cases found

/-! ## Memories in order -/

/-- What has been written down mentions only what had been made, and from each moment to the next
instances are changed by assignments only. -/
structure Chronicle.Traced (chronicle : Chronicle) : Prop where
  grounded : chronicle.toMachine.Grounded
  mentions : ∀ moment ∈ chronicle.past, ∀ value, moment.Mentions value → moment.machine.Knows value
  now : chronicle.objects = instances chronicle.past
  always : ∀ moment earlier, moment :: earlier <:+ chronicle.past → Follows moment earlier

/-- The run leaves a memory in order, and this is true of its value. -/
structure Reports {α : Type} (yields : Machine → α → Prop) (chronicle : Chronicle)
    (result : EStateM.Result Stop Chronicle α) : Prop where
  traced : (leftBy result).Traced
  later : chronicle.toMachine.Later (leftBy result).toMachine
  yields : ∀ value after, result = .ok value after → yields after.toMachine value

/-- What an event mentions has been made. -/
def Event.Known (machine : Machine) (event : Event) : Prop :=
  ∀ value, event.Mentions value → machine.Knows value

/-- A moment is written down, with the machine that the chronicle has come to. -/
theorem Chronicle.Traced.append (traced : chronicle.Traced) {event : Event}
    {owners : Array (Option Activation)} {machine : Machine} (grounded : machine.Grounded)
    (known : event.Known machine)
    (follows : Follows ⟨around, event, machine, owners⟩ chronicle.past)
    (past : after.past = ⟨around, event, machine, owners⟩ :: chronicle.past)
    (same : after.toMachine = machine) : after.Traced where
  grounded := same ▸ grounded
  mentions := by
    rw [past, List.forall_mem_cons]
    refine ⟨fun value mentioned => ?_, traced.mentions⟩
    cases mentioned with
    | bound binds => exact grounded.values _ _ _ binds
    | field found field => exact grounded.fields _ _ _ _ found field
    | event mentioned => exact known value mentioned
  now := by
    rw [past, same]
    rfl
  always := by
    rw [past]
    intro other earlier suffix
    rcases List.suffix_cons_iff.mp suffix with new | old
    · cases new
      exact follows
    · exact traced.always other earlier old

theorem Chronicle.Traced.noted (traced : chronicle.Traced) (around : Option Activation)
    {event : Event} (known : event.Known chronicle.toMachine) :
    (chronicle.note around event).Traced :=
  traced.append traced.grounded known (.of_same traced.now) rfl rfl

theorem Chronicle.Traced.moveTo (traced : chronicle.Traced) (frame : FrameId) :
    Chronicle.Traced { chronicle with current := frame } :=
  ⟨traced.grounded.moveTo frame, traced.mentions, traced.now, traced.always⟩

/-! ## Putting together -/

namespace Reports

variable {α β : Type} {yields : Machine → α → Prop} {yields' : Machine → β → Prop}

theorem value {value : α} (traced : chronicle.Traced) (holds : yields chronicle.toMachine value) :
    Reports yields chronicle ((pure value : Recorded α) chronicle) :=
  ⟨traced, .refl _, by rintro _ _ ⟨⟩; exact holds⟩

theorem stop {stop : Stop} (traced : chronicle.Traced) :
    Reports yields chronicle ((throw stop : Recorded α) chronicle) :=
  ⟨traced, .refl _, nofun⟩

theorem ofExcept {result : Except RuntimeFault α} {blamed : Token} (traced : chronicle.Traced)
    (holds : ∀ value, result = .ok value → yields chronicle.toMachine value) :
    Reports yields chronicle ((Run.ofExcept result blamed : Recorded α) chronicle) := by
  cases result with
  | ok found => exact value traced (holds found rfl)
  | error problem => exact stop traced

theorem bind {first : Recorded α} {next : α → Recorded β}
    (starts : Reports yields chronicle (first chronicle))
    (goes : ∀ value after, first chronicle = .ok value after → after.Traced →
      chronicle.toMachine.Later after.toMachine → yields after.toMachine value →
      Reports yields' after (next value after)) :
    Reports yields' chronicle ((first >>= next) chronicle) := by
  rw [bind_apply]
  cases ended : first chronicle with
  | error stop after =>
      rw [ended] at starts
      exact ⟨starts.traced, starts.later, nofun⟩
  | ok value after =>
      rw [ended] at starts
      have further := goes value after ended starts.traced starts.later
        (starts.yields value after rfl)
      exact ⟨further.traced, starts.later.trans further.later, further.yields⟩

theorem look {next : Chronicle → Recorded α}
    (goes : Reports yields chronicle (next chronicle chronicle)) :
    Reports yields chronicle ((get >>= next) chronicle) :=
  goes

theorem noted {event : Event} {next : Recorded α} (traced : chronicle.Traced)
    (known : event.Known chronicle.toMachine)
    (goes : (chronicle.note around event).Traced →
      Reports yields (chronicle.note around event) (next (chronicle.note around event))) :
    Reports yields chronicle ((note around event >>= fun _ => next) chronicle) := by
  have further := goes (traced.noted around known)
  exact ⟨further.traced, further.later, further.yields⟩

/-- The evaluation of an expression is written down, and its value. -/
theorem valued {expr : Expr} {body : Recorded Value} (traced : chronicle.Traced)
    (goes : (chronicle.note around (.starts (.evaluate expr))).Traced →
      Reports Machine.Knows (chronicle.note around (.starts (.evaluate expr)))
        (body (chronicle.note around (.starts (.evaluate expr))))) :
    Reports Machine.Knows chronicle (valued around expr body chronicle) := by
  refine noted traced (fun _ => False.elim) fun traced => ?_
  refine (goes traced).bind fun value after _ traced _ knows => ?_
  exact noted traced (fun _ same => same ▸ knows) fun traced => .value traced knows

/-- Code that runs in another frame and comes back. -/
theorem inside {frame : FrameId} {body : Recorded α} (traced : chronicle.Traced)
    (anywhere : ∀ (machine : Machine) (current : FrameId) value, yields machine value →
      yields { machine with current := current } value)
    (goes : Chronicle.Traced { chronicle with current := frame } →
      Reports yields { chronicle with current := frame }
        (body { chronicle with current := frame })) :
    Reports yields chronicle (inside frame body chronicle) := by
  have inner := goes (traced.moveTo frame)
  rw [inside_apply]
  refine ⟨?_, ?_, fun value after ended => ?_⟩
  · rw [leftBy_endIn]
    exact inner.traced.moveTo chronicle.current
  · rw [leftBy_endIn]
    have there : chronicle.toMachine.Later { chronicle.toMachine with current := frame } :=
      { Machine.Later.refl chronicle.toMachine with }
    exact { there.trans inner.later with }
  · cases done : body { chronicle with current := frame } with
    | error stop left =>
        rw [done] at ended
        cases ended
    | ok value left =>
        rw [done] at ended
        cases ended
        exact anywhere _ _ _ (inner.yields value left done)

/-- A step after which this is known of the instances. -/
theorem stepped {run : Run α} {event : Event} {owner : Machine → Option Activation}
    (traced : chronicle.Traced) (keeps : run.Keeps)
    (grounded : (leftBy (run chronicle.toMachine)).Grounded)
    (known : event.Known (leftBy (run chronicle.toMachine)))
    (follows : Follows ⟨around, event, leftBy (run chronicle.toMachine),
      (chronicle.turn (leftBy (run chronicle.toMachine)) (owner chronicle.toMachine)).owners⟩
        chronicle.past)
    (holds : ∀ value after, run chronicle.toMachine = .ok value after → yields after value) :
    Reports yields chronicle (step around event owner run chronicle) := by
  rw [step_apply]
  refine ⟨?_, ?_, fun value after ended => ?_⟩
  · rw [leftBy_endIn]
    exact traced.append grounded known follows rfl rfl
  · rw [leftBy_endIn]
    exact (keeps chronicle.toMachine).toLater
  · cases done : run chronicle.toMachine with
    | error stop left =>
        rw [done] at ended
        cases ended
    | ok value left =>
        rw [done] at ended
        cases ended
        exact holds value left done

/-- A step that leaves the instances as they are. -/
theorem step {run : Run α} {event : Event} {owner : Machine → Option Activation}
    (traced : chronicle.Traced) (keeps : run.Keeps)
    (steps : chronicle.toMachine.Steps yields (run chronicle.toMachine))
    (known : event.Known (leftBy (run chronicle.toMachine))) :
    Reports yields chronicle (step around event owner run chronicle) :=
  .stepped traced keeps steps.grounded known
    (.of_same (steps.objects.trans traced.now)) steps.yields

theorem take {run : Run α} (elementary : Elementary run) (traced : chronicle.Traced)
    (steps : chronicle.toMachine.Steps yields (run chronicle.toMachine)) :
    Reports yields chronicle (take around run chronicle) :=
  .step traced (Run.closed_keeps.elementary elementary) steps fun _ => False.elim

theorem newObject (classId : ClassId) (traced : chronicle.Traced) :
    Reports (fun machine object => machine.Knows (.object object)) chronicle
      (History.take around (Run.newObject classId) chronicle) := by
  refine .stepped traced (Run.closed_keeps.elementary (.newObject classId))
    (traced.grounded.addObject classId) (fun _ => False.elim) ?_ ?_
  · have pushed : (leftBy (Run.newObject classId chronicle.toMachine)).objects =
        (instances chronicle.past).push ⟨classId, ∅⟩ := by
      rw [← traced.now]
      rfl
    exact .of_addObject rfl pushed
  · rintro _ _ ⟨⟩
    exact Nat.lt_of_lt_of_eq (Nat.lt_succ_self _) (Array.size_push _).symm

/-- The step of an assignment, after what it needs has been evaluated. -/
theorem assigned {object expr : Expr} {token : Token} {start middle : Chronicle}
    (found : evaluate fuel around object
      (start.note around (.starts (.evaluate (.set object token expr)))) = .ok (.object id) middle)
    (evaluated : evaluate fuel around expr middle = .ok given chronicle)
    (traced : chronicle.Traced) (knows : chronicle.toMachine.Knows given) :
    Reports (fun _ _ => True) chronicle
      (History.take around (modify (·.onHeap (·.setField id token.lexeme given))) chronicle) := by
  refine .stepped traced (Run.closed_keeps.elementary (.setField id token.lexeme given))
    (traced.grounded.setField id token.lexeme knows) (fun _ => False.elim) ?_ fun _ _ _ => trivial
  have done := evaluate_set_iff.mpr ⟨id, middle, chronicle, _, found, evaluated, rfl, rfl⟩
  refine .of_setField ⟨fuel, around, object, token, expr, start, middle, _, _, found, done, rfl,
    rfl⟩ ?_
  rw [← traced.now]
  rfl

end Reports

end Lox.History
