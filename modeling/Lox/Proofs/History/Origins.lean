import Lox.Proofs.History.Onward
/-! Where classes come from. For every class that there is the history tells which declaration has
made it: one that was started before, with the methods of the class, and whose superclass was then
evaluated to the one that the class inherits from. -/

namespace Lox

open History

/-! ## Steps that make no class -/

namespace Run

variable {α : Type}

/-- The run makes no class. -/
def Classless (run : Run α) : Prop :=
  ∀ machine, (leftBy (run machine)).classes = machine.classes

theorem Classless.bind {β : Type} {first : Run α} {next : α → Run β} (starts : first.Classless)
    (goes : ∀ value, (next value).Classless) : (first >>= next).Classless := by
  intro machine
  have trans {before middle after : Machine} (first : middle.classes = before.classes)
      (second : after.classes = middle.classes) : after.classes = before.classes :=
    second.trans first
  exact leftBy_bind (fun before after => after.classes = before.classes) trans (starts machine)
    fun value middle _ _ => goes value middle

theorem closed_classless : Closed fun run => run.Classless where
  value _ _ := rfl
  stop _ _ := rfl
  bind starts goes := starts.bind goes
  look _ goes machine := goes machine machine
  change {_} change machine := by cases change <;> rfl

theorem classless_print (value : Value) : (print value).Classless := by
  intro machine
  rw [print_eq]
  split <;> rfl

theorem classless_flush : flush.Classless := by
  intro machine
  rw [flush_eq]
  split <;> rfl

end Run

namespace History

open Chronicle

/-! ## Told classes -/

/-- At this moment a declaration is started that makes the class. -/
inductive Moment.Makes (moment : Moment) : ClassInfo FrameId → Prop
  | plain {name methods frame} :
      moment.event = .starts (.execute (.classDecl name none methods)) →
      Moment.Makes moment ⟨name.lexeme, none, methodTable frame methods⟩
  | derived {name superclass methods frame fuel parent middle} :
      moment.event = .starts (.execute (.classDecl name (some superclass) methods)) →
      Lox.evaluate fuel superclass moment.machine = .ok (.classRef parent) middle →
      Moment.Makes moment ⟨name.lexeme, some parent, methodTable frame methods⟩

/-- Some of these moments have made all the classes of the machine. -/
def Tells (past : List Moment) (machine : Machine) : Prop :=
  ∀ (id : ClassId) (info : ClassInfo FrameId), machine.classes[id]? = some info →
    ∃ moment ∈ past, moment.Makes info

theorem Tells.later {past later : List Moment} {machine after : Machine}
    (tells : Tells past machine) (longer : past <:+ later) (same : after.classes = machine.classes) :
    Tells later after := by
  intro id info found
  rw [same] at found
  obtain ⟨moment, member, makes⟩ := tells id info found
  exact ⟨moment, longer.subset member, makes⟩

/-- What has happened tells of the classes that there are, and at each moment what had happened
before told of the classes that there were. -/
structure Chronicle.Told (chronicle : Chronicle) : Prop where
  now : Tells chronicle.past chronicle.toMachine
  always : ∀ moment earlier, moment :: earlier <:+ chronicle.past → Tells earlier moment.machine

/-- What a chronicle comes to that keeps telling. -/
structure Chronicle.Recounts (before after : Chronicle) : Prop where
  told : after.Told
  past : before.past <:+ after.past

variable {α β : Type} {chronicle after : Chronicle} {known : List Moment}

theorem Chronicle.Recounts.refl (told : chronicle.Told) : chronicle.Recounts chronicle :=
  ⟨told, List.suffix_refl _⟩

/-- A moment is written down, with a machine of whose classes it has been told before. -/
theorem Chronicle.Told.recounts {moment : Moment} (told : chronicle.Told)
    (past : after.past = moment :: chronicle.past) (same : after.toMachine = moment.machine)
    (tells : Tells chronicle.past moment.machine) : chronicle.Recounts after := by
  have longer : chronicle.past <:+ after.past := past ▸ List.suffix_cons _ _
  have classes : after.classes = moment.machine.classes := by rw [same]
  refine ⟨⟨tells.later longer classes, fun other earlier suffix => ?_⟩, longer⟩
  rw [past, List.suffix_cons_iff] at suffix
  rcases suffix with new | old
  · cases new
    exact tells
  · exact told.always other earlier old

theorem Chronicle.Recounts.trans {before middle after : Chronicle}
    (first : before.Recounts middle) (second : middle.Recounts after) : before.Recounts after :=
  ⟨second.told, first.past.trans second.past⟩

/-! ## Runs -/

/-- The run keeps telling, once all of this is known. -/
def Traces (known : List Moment) (run : Recorded α) : Prop :=
  ∀ chronicle : Chronicle, chronicle.Told → known <:+ chronicle.past →
    chronicle.Recounts (leftBy (run chronicle))

theorem Traces.bind {first : Recorded α} {next : α → Recorded β} (starts : Traces known first)
    (goes : ∀ value, Traces known (next value)) : Traces known (first >>= next) := by
  intro chronicle told knows
  refine leftBy_bind Recounts Recounts.trans (starts chronicle told knows)
    fun value middle _ recounts => ?_
  exact goes value middle recounts.told (knows.trans recounts.past)

theorem traces_step {run : Run α} (classless : run.Classless) (around : Option Activation)
    (event : Event) (owner : Machine → Option Activation) :
    Traces known (step around event owner run) := by
  intro chronicle told _
  have same := classless chronicle.toMachine
  rw [step_apply, leftBy_endIn]
  exact told.recounts rfl rfl (told.now.later (List.suffix_refl _) same)

/-- A class is made of which it is known what makes it. -/
theorem traces_newClass {moment : Moment} {info : ClassInfo FrameId} (member : moment ∈ known)
    (makes : moment.Makes info) (around : Option Activation) :
    Traces known (take around (Run.newClass info)) := by
  intro chronicle told knows
  rw [take, step_apply, leftBy_endIn]
  refine told.recounts rfl rfl fun id other found => ?_
  have found : (chronicle.classes.push info)[id]? = some other := found
  rw [Array.getElem?_push] at found
  split at found
  · cases found
    exact ⟨moment, knows.subset member, makes⟩
  · exact told.now id other found

theorem composes_traces : Composes fun recorded _ => Traces known recorded where
  value _ _ told _ := .refl told
  stop _ _ told _ := .refl told
  bind starts goes := starts.bind goes
  look _ goes chronicle := goes chronicle chronicle
  note _ _ _ told _ := told.recounts rfl rfl told.now
  step around _ elementary _ :=
    traces_step (Run.closed_classless.elementary elementary) around _ _
  prints around value := traces_step (Run.classless_print value) around _ _
  inside {_ body _} frame traces chronicle told knows := by
    have inner := traces { chronicle with current := frame } ⟨told.now, told.always⟩ knows
    rw [inside_apply, leftBy_endIn]
    exact ⟨⟨inner.told.now, inner.told.always⟩, inner.past⟩

theorem traces_declareClass {moment : Moment} (member : moment ∈ known) {name : Token}
    {superclass : Option ClassId} {methods : List Routine}
    (makes : ∀ frame, moment.Makes ⟨name.lexeme, superclass, methodTable frame methods⟩)
    (around : Option Activation) :
    Traces known (do
      declareClass around name superclass methods
      return Flow.normal) := by
  have declares := composes_traces.declareClass around name superclass methods fun frame =>
    traces_newClass member (makes frame) around
  exact declares.bind fun _ => composes_traces.value Flow.normal

/-- The moment at which a declaration is started makes its class. -/
theorem compatible_traces : Compatible fun recorded _ => Traces [] recorded where
  toComposes := composes_traces
  classDecl fuel around name superclass methods traces := by
    intro chronicle told _
    have starts : chronicle.Recounts (leftBy (note around
        (.starts (.execute (.classDecl name superclass methods))) chronicle)) :=
      told.recounts rfl rfl told.now
    refine leftBy_bind Recounts Recounts.trans starts fun _ noted ended recounts => ?_
    cases ended
    have member : ⟨around, .starts (.execute (.classDecl name superclass methods)),
        chronicle.toMachine, chronicle.owners⟩ ∈ (chronicle.note around
          (.starts (.execute (.classDecl name superclass methods)))).past :=
      List.mem_cons_self
    cases superclass with
    | none =>
        exact traces_declareClass member (fun _ => .plain rfl) around _ recounts.told
          (List.suffix_refl _)
    | some superclass =>
        refine leftBy_bind Recounts Recounts.trans
          (traces superclass _ recounts.told List.nil_suffix) fun value middle ended further => ?_
        cases value with
        | classRef parent =>
            have records := (compatible_records.corresponds fuel).evaluate around superclass
            have evaluated := (records _).symm.trans (congrArg (endIn Chronicle.toMachine) ended)
            exact traces_declareClass member (fun _ => .derived rfl evaluated) around _
              further.told further.past
        | _ => exact .refl further.told

/-! ## Sessions -/

theorem traces_executeProgram (fuel : Nat) (stmts : List Stmt) :
    Traces [] (executeProgram fuel stmts) := by
  induction stmts with
  | nil => exact traces_step Run.classless_flush none .passes fun _ => none
  | cons stmt rest induction =>
      exact ((compatible_traces.corresponds fuel).execute none stmt).bind fun _ => induction

namespace Session

theorem told_start (sink : Sink) (clock : Nat → Float) :
    (of (Lox.Session.start sink clock)).chronicle.Told where
  now id info found := absurd found (by simp [of, Chronicle.of, Lox.Session.start, Machine.start,
    Heap.empty])
  always moment earlier suffix := absurd (List.suffix_nil.mp suffix) (List.cons_ne_nil _ _)

theorem told_run {session : Session} (told : session.chronicle.Told) (fuel : Nat)
    (source : String) : (session.run fuel source).2.chronicle.Told := by
  obtain ⟨chronicle, nextId⟩ := session
  rcases run_cases fuel nextId source with ⟨problems, rejected⟩ | ⟨_, _, ran⟩
  · rw [rejected]
    exact told
  · rw [ran, ended_snd]
    exact (traces_executeProgram fuel _ (chronicle.learn _) ⟨told.now, told.always⟩
      List.nil_suffix).told

theorem told_runAll {session : Session} (told : session.chronicle.Told) (fuel : Nat)
    (sources : List String) : (session.runAll fuel sources).2.chronicle.Told := by
  induction sources generalizing session with
  | nil => exact told
  | cons source rest induction => exact induction (told_run told fuel source)

/-- A class that there is at some moment has been made by a declaration that started before. -/
theorem exists_makes {session : Session} (told : session.chronicle.Told)
    {before after : List Moment} {moment : Moment}
    (happened : session.history = before ++ moment :: after) {id : ClassId}
    {info : ClassInfo FrameId} (found : moment.machine.classes[id]? = some info) :
    ∃ declaration ∈ before, declaration.Makes info := by
  have past : session.chronicle.past = after.reverse ++ moment :: before.reverse := by
    rw [← List.reverse_reverse session.chronicle.past]
    exact (congrArg List.reverse happened).trans (by simp)
  have tells := told.always moment before.reverse ⟨after.reverse, past.symm⟩
  obtain ⟨declaration, member, makes⟩ := tells id info found
  exact ⟨declaration, List.mem_reverse.mp member, makes⟩

end Session

end History

end Lox
