import Lox.Proofs.History.Onward
/-! Sinks that are too small. A run on a sink that takes no more than some bytes is the run on a
sink that takes everything, up to the first line that goes beyond: there it stops, with as many
bytes in the sink as it takes. -/

namespace Lox

open History

theorem extract_all {bytes : ByteArray} {capacity : Nat} (within : bytes.size ≤ capacity) :
    bytes.extract 0 capacity = bytes := by
  apply ByteArray.ext
  rw [ByteArray.data_extract]
  exact Array.extract_eq_self_of_le within

theorem extract_left {bytes more : ByteArray} {capacity : Nat} (beyond : capacity ≤ bytes.size) :
    (bytes ++ more).extract 0 capacity = bytes.extract 0 capacity := by
  rw [ByteArray.extract_append, Nat.sub_eq_zero_of_le beyond]
  simp

/-! ## Two sinks -/

namespace Sink

/-- The sink never fails. -/
def Endless (sink : Sink) : Prop :=
  sink.capacity = none ∧ sink.failsToFlush = false

/-- The sink as it is when it takes no more than some bytes in all. -/
def limited (capacity : Nat) (failsToFlush : Bool) (sink : Sink) : Sink :=
  ⟨sink.written.extract 0 capacity, some capacity, failsToFlush⟩

variable {sink : Sink} {capacity : Nat} {failsToFlush : Bool}

theorem Endless.written_write (endless : sink.Endless) (text : String) :
    (sink.write text).written = sink.written ++ text.toUTF8 := by
  simp [write, fitting, endless.1]

theorem Endless.writeFault? (endless : sink.Endless) (text : String) :
    sink.writeFault? text = none := by
  simp [Sink.writeFault?, fits, endless.1]

/-- What is written to a small sink is the beginning of what is written. -/
theorem write_limited (endless : sink.Endless) (within : sink.written.size ≤ capacity)
    (text : String) :
    (sink.limited capacity failsToFlush).write text =
      (sink.write text).limited capacity failsToFlush := by
  rw [limited, limited, endless.written_write, ByteArray.extract_append, extract_all within]
  simp [write, fitting]

theorem writeFault?_limited (failsToFlush : Bool) (endless : sink.Endless)
    (within : sink.written.size ≤ capacity) (text : String) :
    (sink.limited capacity failsToFlush).writeFault? text =
      if (sink.write text).written.size ≤ capacity then none else some .full := by
  rw [endless.written_write, ByteArray.size_append]
  simp [Sink.writeFault?, fits, limited, extract_all within]

end Sink

/-- The machine as it is with a sink that takes no more than some bytes in all. -/
def Machine.limited (capacity : Nat) (failsToFlush : Bool) (machine : Machine) : Machine :=
  { machine with sink := machine.sink.limited capacity failsToFlush }

/-- The machine after a line has been printed. -/
def Machine.printed (machine : Machine) (value : Value) : Machine :=
  machine.write (machine.text value ++ "\n")

namespace Run

variable {α β : Type}

/-- The run neither writes nor looks at the sink. -/
def Quiet (run : Run α) : Prop :=
  ∀ (machine : Machine) (sink : Sink),
    run { machine with sink := sink } = endIn ({ · with sink := sink }) (run machine)

theorem Quiet.bind {first : Run α} {next : α → Run β} (starts : first.Quiet)
    (goes : ∀ value, (next value).Quiet) : (first >>= next).Quiet := by
  intro machine sink
  have start := starts machine sink
  rw [bind_apply, bind_apply, start]
  cases first machine with
  | ok value after => exact goes value after sink
  | error stop after => rfl

theorem closed_quiet : Closed fun run => run.Quiet where
  value _ _ _ := rfl
  stop _ _ _ := rfl
  bind starts goes := starts.bind goes
  look {_ next} blind goes machine sink := by
    have seen : next { machine with sink := sink } = next machine := blind machine sink
    show next { machine with sink := sink } _ = endIn _ (next machine machine)
    rw [seen]
    exact goes machine machine sink
  change {_} change _ _ := by cases change <;> rfl

theorem quiet_newClass (info : ClassInfo FrameId) : (newClass info).Quiet :=
  fun _ _ => rfl

theorem Quiet.sink {run : Run α} (quiet : run.Quiet) (machine : Machine) :
    (leftBy (run machine)).sink = machine.sink := by
  have same := congrArg (fun result => (leftBy result).sink) (quiet machine machine.sink)
  rw [leftBy_endIn] at same
  exact same

theorem Quiet.limited {run : Run α} (quiet : run.Quiet) (machine : Machine) (capacity : Nat)
    (failsToFlush : Bool) :
    run (machine.limited capacity failsToFlush) =
      endIn (·.limited capacity failsToFlush) (run machine) := by
  have same := quiet.sink machine
  rw [Machine.limited, quiet machine]
  revert same
  cases run machine with
  | ok value after =>
      intro same
      show EStateM.Result.ok value _ = .ok value (Machine.limited _ _ after)
      rw [Machine.limited, show after.sink = machine.sink from same]
  | error stop after =>
      intro same
      show EStateM.Result.error stop _ = .error stop (Machine.limited _ _ after)
      rw [Machine.limited, show after.sink = machine.sink from same]

/-! ### Printing -/

theorem print_endless {machine : Machine} (endless : machine.sink.Endless) (value : Value) :
    print value machine = .ok () (machine.printed value) := by
  rw [print_eq, endless.writeFault?]
  rfl

theorem print_limited {machine : Machine} {capacity : Nat} (failsToFlush : Bool)
    (endless : machine.sink.Endless) (within : machine.sink.written.size ≤ capacity)
    (value : Value) :
    print value (machine.limited capacity failsToFlush) =
      if (machine.printed value).sink.written.size ≤ capacity then
        .ok () ((machine.printed value).limited capacity failsToFlush)
      else
        .error (.sink .full) ((machine.printed value).limited capacity failsToFlush) := by
  have line : (machine.limited capacity failsToFlush).text value ++ "\n" =
      machine.text value ++ "\n" := rfl
  have wrote : (machine.limited capacity failsToFlush).write (machine.text value ++ "\n") =
      (machine.printed value).limited capacity failsToFlush := by
    rw [Machine.write, Machine.limited, Sink.write_limited endless within]
    rfl
  have fault := Sink.writeFault?_limited failsToFlush endless within
    (machine.text value ++ "\n")
  rw [print_eq, line, wrote, Machine.limited, fault]
  by_cases fits : (machine.printed value).sink.written.size ≤ capacity
  · rw [if_pos fits, if_pos (show (machine.sink.write _).written.size ≤ capacity from fits)]
  · rw [if_neg fits, if_neg (show ¬ (machine.sink.write _).written.size ≤ capacity from fits)]

end Run

namespace History

/-! ## Two histories -/

def Moment.limited (capacity : Nat) (failsToFlush : Bool) (moment : Moment) : Moment :=
  { moment with machine := moment.machine.limited capacity failsToFlush }

namespace Chronicle

/-- The chronicle as it is with a sink that takes no more than some bytes in all. -/
def limited (capacity : Nat) (failsToFlush : Bool) (chronicle : Chronicle) : Chronicle :=
  ⟨chronicle.toMachine.limited capacity failsToFlush, chronicle.owners,
    chronicle.past.map (·.limited capacity failsToFlush)⟩

/-- What a chronicle with an endless sink can come to. -/
structure Grown (before after : Chronicle) : Prop where
  endless : after.sink.Endless
  past : before.past <:+ after.past
  written : ∃ more, after.sink.written = before.sink.written ++ more
  current : after.current = before.current

/-- There were never more bytes in the sink. -/
def Within (capacity : Nat) (chronicle : Chronicle) : Prop :=
  chronicle.sink.written.size ≤ capacity ∧
    ∀ moment ∈ chronicle.past, moment.machine.sink.written.size ≤ capacity

/-- At some moment a line has been printed that does not fit; the limited chronicle ends there,
except that the code stands where it started. -/
structure Cut (capacity : Nat) (failsToFlush : Bool) (current : FrameId) (moment : Moment)
    (earlier : List Moment) (free limited : Chronicle) : Prop where
  happened : moment :: earlier <:+ free.past
  prints : ∃ value, moment.event = .prints value
  before : ∀ other ∈ earlier, other.machine.sink.written.size ≤ capacity
  beyond : capacity < moment.machine.sink.written.size
  written : ∃ more, free.sink.written = moment.machine.sink.written ++ more
  ends : limited = ⟨{ moment.machine.limited capacity failsToFlush with current := current },
    moment.owners, (moment :: earlier).map (·.limited capacity failsToFlush)⟩

theorem Grown.trans {before middle after : Chronicle} (first : before.Grown middle)
    (second : middle.Grown after) : before.Grown after where
  endless := second.endless
  past := first.past.trans second.past
  written := by
    obtain ⟨more, written⟩ := first.written
    obtain ⟨others, later⟩ := second.written
    exact ⟨more ++ others, by rw [later, written, ByteArray.append_assoc]⟩
  current := second.current.trans first.current

/-- What happens later does not change where the cut is. -/
theorem Cut.later {capacity : Nat} {failsToFlush : Bool} {current : FrameId} {moment : Moment}
    {earlier : List Moment} {free later limited : Chronicle}
    (cut : Cut capacity failsToFlush current moment earlier free limited)
    (grown : free.Grown later) :
    Cut capacity failsToFlush current moment earlier later limited where
  happened := cut.happened.trans grown.past
  prints := cut.prints
  before := cut.before
  beyond := cut.beyond
  written := by
    obtain ⟨more, written⟩ := cut.written
    obtain ⟨others, further⟩ := grown.written
    exact ⟨more ++ others, by rw [further, written, ByteArray.append_assoc]⟩
  ends := cut.ends

end Chronicle

open Chronicle

variable {α β : Type} (capacity : Nat) (failsToFlush : Bool)

/-- How a run from a chronicle on ends in a limited sink, given how it ends in an endless one:
in the same way, or else with the first line that does not fit. -/
def Truncated (chronicle : Chronicle) (free limited : EStateM.Result Stop Chronicle α) : Prop :=
  ((leftBy free).Within capacity ∧ limited = endIn (·.limited capacity failsToFlush) free) ∨
    ∃ moment earlier cut, limited = .error (.sink .full) cut ∧
      Cut capacity failsToFlush chronicle.current moment earlier (leftBy free) cut

/-- The run only adds to what has happened, and is truncated in a limited sink. -/
def Truncates (run : Recorded α) : Prop :=
  ∀ chronicle : Chronicle, chronicle.sink.Endless →
    chronicle.Grown (leftBy (run chronicle)) ∧
      (chronicle.Within capacity → Truncated capacity failsToFlush chronicle (run chronicle)
        (run (chronicle.limited capacity failsToFlush)))

variable {capacity} {failsToFlush}

/-- A step that does not concern the sink. -/
theorem truncates_quiet {recorded : Recorded α}
    (grown : ∀ chronicle : Chronicle, chronicle.sink.Endless →
      chronicle.Grown (leftBy (recorded chronicle)))
    (within : ∀ chronicle : Chronicle, chronicle.Within capacity →
      (leftBy (recorded chronicle)).Within capacity)
    (same : ∀ chronicle : Chronicle, recorded (chronicle.limited capacity failsToFlush) =
      endIn (·.limited capacity failsToFlush) (recorded chronicle)) :
    Truncates capacity failsToFlush recorded :=
  fun chronicle endless => ⟨grown chronicle endless, fun room =>
    .inl ⟨within chronicle room, same chronicle⟩⟩

theorem Grown.refl {chronicle : Chronicle} (endless : chronicle.sink.Endless) :
    chronicle.Grown chronicle :=
  ⟨endless, List.suffix_refl _, ⟨ByteArray.empty, ByteArray.append_empty.symm⟩, rfl⟩

theorem Truncates.bind {first : Recorded α} {next : α → Recorded β}
    (starts : Truncates capacity failsToFlush first)
    (goes : ∀ value, Truncates capacity failsToFlush (next value)) :
    Truncates capacity failsToFlush (first >>= next) := by
  intro chronicle endless
  obtain ⟨grown, truncated⟩ := starts chronicle endless
  rw [bind_apply, bind_apply]
  cases ended : first chronicle with
  | error stop after =>
      rw [ended] at grown truncated
      refine ⟨grown, fun room => ?_⟩
      rcases truncated room with ⟨within, same⟩ | ⟨moment, earlier, cut, same, cuts⟩
      · exact .inl ⟨within, by rw [same]; rfl⟩
      · exact .inr ⟨moment, earlier, cut, by rw [same], cuts⟩
  | ok value after =>
      rw [ended] at grown truncated
      obtain ⟨later, truncated'⟩ := goes value after grown.endless
      refine ⟨grown.trans later, fun room => ?_⟩
      rcases truncated room with ⟨within, same⟩ | ⟨moment, earlier, cut, same, cuts⟩
      · rcases truncated' within with ⟨within', same'⟩ | ⟨moment, earlier, cut, same', cuts⟩
        · exact .inl ⟨within', by rw [same]; exact same'⟩
        · rw [show after.current = chronicle.current from grown.current] at cuts
          exact .inr ⟨moment, earlier, cut, by rw [same]; exact same', cuts⟩
      · exact .inr ⟨moment, earlier, cut, by rw [same], cuts.later later⟩

theorem truncates_look {next : Chronicle → Recorded α} (unaware : Unaware next)
    (goes : ∀ chronicle, Truncates capacity failsToFlush (next chronicle)) :
    Truncates capacity failsToFlush (get >>= next) := by
  intro chronicle endless
  have seen : next (chronicle.limited capacity failsToFlush) = next chronicle :=
    unaware chronicle _ _
  obtain ⟨grown, truncated⟩ := goes chronicle chronicle endless
  refine ⟨grown, fun room => ?_⟩
  show Truncated _ _ _ (next chronicle chronicle) (next (chronicle.limited _ _) _)
  rw [seen]
  exact truncated room

theorem truncates_note (around : Option Activation) (event : Event) :
    Truncates capacity failsToFlush (note around event) := by
  apply truncates_quiet
  · intro chronicle endless
    exact { Grown.refl endless with past := List.suffix_cons _ _ }
  · intro chronicle room
    refine ⟨room.1, fun moment member => ?_⟩
    rcases List.mem_cons.mp member with rfl | member
    · exact room.1
    · exact room.2 moment member
  · intro chronicle
    rfl

theorem truncates_step {run : Run α} (around : Option Activation)
    {owner : Machine → Option Activation} (quiet : run.Quiet) (keeps : run.Keeps)
    (blind : Blind owner) :
    Truncates capacity failsToFlush (step around .passes owner run) := by
  apply truncates_quiet
  · intro chronicle endless
    have kept := (keeps chronicle.toMachine).current
    have same := quiet.sink chronicle.toMachine
    rw [step_apply, leftBy_endIn]
    exact {
      endless := same.symm ▸ endless
      past := List.suffix_cons _ _
      written := ⟨ByteArray.empty, (congrArg Sink.written same).trans ByteArray.append_empty.symm⟩
      current := kept }
  · intro chronicle room
    have same := quiet.sink chronicle.toMachine
    have size : (leftBy (run chronicle.toMachine)).sink.written.size ≤ capacity :=
      same.symm ▸ room.1
    rw [step_apply, leftBy_endIn]
    refine ⟨size, fun moment member => ?_⟩
    rcases List.mem_cons.mp member with rfl | member
    · exact size
    · exact room.2 moment member
  · intro chronicle
    have owned : owner (chronicle.limited capacity failsToFlush).toMachine =
        owner chronicle.toMachine := blind chronicle.toMachine _
    have same : run (chronicle.limited capacity failsToFlush).toMachine = _ :=
      quiet.limited chronicle.toMachine capacity failsToFlush
    rw [step_apply, step_apply, owned, same]
    cases run chronicle.toMachine <;> rfl

theorem truncates_prints (around : Option Activation) (value : Value) :
    Truncates capacity failsToFlush
      (step around (.prints value) (fun _ => around) (Run.print value)) := by
  intro chronicle endless
  have written := endless.written_write (chronicle.text value ++ "\n")
  have free : Run.print value chronicle.toMachine = _ := Run.print_endless endless value
  rw [step_apply, free]
  refine ⟨⟨endless, List.suffix_cons _ _, ⟨_, written⟩, rfl⟩, fun room => ?_⟩
  have tight : Run.print value (chronicle.toMachine.limited capacity failsToFlush) = _ :=
    Run.print_limited failsToFlush endless room.1 value
  rw [step_apply, show (chronicle.limited capacity failsToFlush).toMachine =
    chronicle.toMachine.limited capacity failsToFlush from rfl, tight]
  by_cases fits : (chronicle.printed value).sink.written.size ≤ capacity
  · rw [if_pos fits]
    refine .inl ⟨⟨fits, fun moment member => ?_⟩, rfl⟩
    rcases List.mem_cons.mp member with rfl | member
    · exact fits
    · exact room.2 moment member
  · rw [if_neg fits]
    exact .inr ⟨_, chronicle.past, _, rfl, {
      happened := List.suffix_refl _
      prints := ⟨value, rfl⟩
      before := room.2
      beyond := Nat.lt_of_not_le fits
      written := ⟨ByteArray.empty, ByteArray.append_empty.symm⟩
      ends := rfl }⟩

theorem Truncates.inside {body : Recorded α} (frame : FrameId)
    (truncates : Truncates capacity failsToFlush body) :
    Truncates capacity failsToFlush (inside frame body) := by
  intro chronicle endless
  obtain ⟨grown, truncated⟩ := truncates { chronicle with current := frame } endless
  have same : { chronicle.limited capacity failsToFlush with current := frame } =
      Chronicle.limited capacity failsToFlush { chronicle with current := frame } := rfl
  rw [inside_apply, inside_apply, same, leftBy_endIn]
  refine ⟨{ grown with current := rfl }, fun room => ?_⟩
  rcases truncated room with ⟨within, same⟩ | ⟨moment, earlier, cut, same, cuts⟩
  · refine .inl ⟨?_, ?_⟩
    · rw [leftBy_endIn]
      exact within
    · rw [same]
      cases body { chronicle with current := frame } <;> rfl
  · rw [same]
    refine .inr ⟨moment, earlier, _, rfl, ?_⟩
    rw [leftBy_endIn]
    exact { cuts with ends := by rw [cuts.ends]; rfl }

variable (capacity) (failsToFlush)

theorem composes_truncates :
    Composes fun recorded _ => Truncates capacity failsToFlush recorded where
  value value := by
    apply truncates_quiet
    · intro chronicle endless
      exact Grown.refl endless
    · intro chronicle room
      exact room
    · intro chronicle
      rfl
  stop stop := by
    apply truncates_quiet
    · intro chronicle endless
      exact Grown.refl endless
    · intro chronicle room
      exact room
    · intro chronicle
      rfl
  bind starts goes := starts.bind goes
  look unaware goes := truncates_look unaware goes
  note around event := truncates_note around event
  step around _ elementary blind :=
    truncates_step around (Run.closed_quiet.elementary elementary)
      (Run.closed_keeps.elementary elementary) blind
  prints around value := truncates_prints around value
  inside frame truncates := truncates.inside frame

theorem compatible_truncates :
    Compatible fun recorded _ => Truncates capacity failsToFlush recorded :=
  (composes_truncates capacity failsToFlush).compatible fun around info =>
    truncates_step around (Run.quiet_newClass info) (Run.keeps_newClass info) fun _ _ => rfl

/-! ## Programs -/

/-- The statements of a program, one after another, and then the flush. -/
theorem executeProgram_eq (fuel : Nat) (stmts : List Stmt) :
    executeProgram fuel stmts =
      (stmts.forM fun stmt => execute fuel none stmt >>= fun _ => pure ()) >>= fun _ =>
        take none Run.flush := by
  induction stmts with
  | nil => rfl
  | cons stmt rest induction => simp [executeProgram, induction]

theorem truncates_statements (fuel : Nat) (stmts : List Stmt) :
    Truncates capacity failsToFlush
      (stmts.forM fun stmt => execute fuel none stmt >>= fun _ => pure ()) := by
  have truncates := compatible_truncates capacity failsToFlush
  induction stmts with
  | nil => exact truncates.value ()
  | cons stmt rest induction =>
      have first := (truncates.corresponds fuel).execute none stmt
      exact (first.bind fun _ => truncates.value ()).bind fun _ => induction

/-- The end of a program whose statements end like this, if the sink may fail to flush. -/
def flushing : EStateM.Result Stop Chronicle Unit → EStateM.Result Stop Chronicle Unit
  | .ok value chronicle =>
      if failsToFlush then .error (.sink .flushFailed) chronicle else .ok value chronicle
  | .error stop chronicle => .error stop chronicle

theorem flush_apply (chronicle : Chronicle) :
    take none Run.flush chronicle = flushing chronicle.sink.failsToFlush
      (.ok () ((chronicle.turn chronicle.toMachine none).note none .passes)) := by
  rw [take, step_apply, Run.flush_eq, Sink.flushFault?, flushing]
  split <;> rename_i found <;> split at found <;> simp_all [endIn]

/-- A program in a limited sink, given how it ends in an endless one. -/
theorem executeProgram_truncated (fuel : Nat) (stmts : List Stmt) {chronicle : Chronicle}
    (endless : chronicle.sink.Endless) (room : chronicle.Within capacity) :
    let free := executeProgram fuel stmts chronicle
    let limited := executeProgram fuel stmts (chronicle.limited capacity failsToFlush)
    ((leftBy free).Within capacity ∧
      limited = flushing failsToFlush (endIn (·.limited capacity failsToFlush) free)) ∨
    ∃ moment earlier cut, limited = .error (.sink .full) cut ∧
      Cut capacity failsToFlush chronicle.current moment earlier (leftBy free) cut := by
  obtain ⟨grown, truncated⟩ := truncates_statements capacity failsToFlush fuel stmts
    chronicle endless
  dsimp only
  rw [executeProgram_eq]
  generalize (stmts.forM fun stmt => execute fuel none stmt >>= fun _ => pure ()) = statements
    at grown truncated
  rw [bind_apply, bind_apply]
  cases ended : statements chronicle with
  | error stop after =>
      rw [ended] at truncated
      rcases truncated room with ⟨within, same⟩ | ⟨moment, earlier, cut, same, cuts⟩
      · exact .inl ⟨within, by rw [same]; rfl⟩
      · exact .inr ⟨moment, earlier, cut, by rw [same], cuts⟩
  | ok value after =>
      rw [ended] at grown truncated
      have flushes : take none Run.flush after = flushing after.sink.failsToFlush _ :=
        flush_apply after
      rw [show after.sink.failsToFlush = false from grown.endless.2] at flushes
      dsimp only
      rw [flushes]
      rcases truncated room with ⟨within, same⟩ | ⟨moment, earlier, cut, same, cuts⟩
      · refine .inl ⟨⟨within.1, fun moment member => ?_⟩, ?_⟩
        · rcases List.mem_cons.mp member with rfl | member
          · exact within.1
          · exact within.2 moment member
        · rw [same]
          exact flush_apply (after.limited capacity failsToFlush)
      · refine .inr ⟨moment, earlier, cut, by rw [same], cuts.later ?_⟩
        exact { Grown.refl grown.endless with past := List.suffix_cons _ _ }

/-! ## Sources -/

/-- All that is written fits: the limited run is the endless one, apart from the flush. -/
structure Session.Fits (free limited : Ending × Session) : Prop where
  within : free.2.chronicle.sink.written.size ≤ capacity
  history : limited.2.history = free.2.history.map (·.limited capacity failsToFlush)
  machine : limited.2.forget.machine = free.2.forget.machine.limited capacity failsToFlush
  ending : limited.1 = match free.1 with
    | .success => if failsToFlush then .failed (.output .flushFailed) else .success
    | other => other

/-- A line does not fit: the limited run ends with it. -/
structure Session.Overflows (current : FrameId) (free limited : Ending × Session) : Prop where
  beyond : capacity < free.2.chronicle.sink.written.size
  history : ∃ earlier moment value later, free.2.history = earlier ++ moment :: later ∧
    moment.event = .prints value ∧
    (∀ other ∈ earlier, other.machine.sink.written.size ≤ capacity) ∧
    capacity < moment.machine.sink.written.size ∧
    limited.2.history = (earlier ++ [moment]).map (·.limited capacity failsToFlush) ∧
    limited.2.forget.machine =
      { moment.machine.limited capacity failsToFlush with current := current }
  written : limited.2.chronicle.sink.written =
    free.2.chronicle.sink.written.extract 0 capacity
  ending : limited.1 = .failed (.output .full)

namespace Session

variable {capacity} {failsToFlush} {current : FrameId} {nextId : OccurrenceId}
  {result : EStateM.Result Stop Chronicle Unit}

theorem fits_ended (within : (leftBy result).Within capacity) :
    Fits capacity failsToFlush (ended nextId result)
      (ended nextId (flushing failsToFlush (endIn (·.limited capacity failsToFlush) result))) := by
  cases result with
  | ok value chronicle =>
      cases failsToFlush <;> exact ⟨within.1, List.map_reverse.symm, rfl, rfl⟩
  | error stop chronicle =>
      refine ⟨within.1, List.map_reverse.symm, rfl, ?_⟩
      cases stop <;> rfl

theorem overflows_ended {moment : Moment} {earlier : List Moment} {cut : Chronicle}
    (cuts : Cut capacity failsToFlush current moment earlier (leftBy result) cut) :
    Overflows capacity failsToFlush current (ended nextId result)
      (ended nextId (.error (.sink .full) cut)) := by
  have left : (ended nextId result).2.chronicle = leftBy result := by rw [ended_snd]
  obtain ⟨more, written⟩ := cuts.written
  obtain ⟨later, happened⟩ := cuts.happened
  obtain ⟨value, prints⟩ := cuts.prints
  refine {
    beyond := ?_
    history := ⟨earlier.reverse, moment, value, later.reverse, ?_, prints, ?_, cuts.beyond, ?_, ?_⟩
    written := ?_
    ending := rfl }
  · rw [left, written, ByteArray.size_append]
    exact Nat.lt_of_lt_of_le cuts.beyond (Nat.le_add_right _ _)
  · rw [history, left, ← happened]
    simp
  · intro other member
    exact cuts.before other (List.mem_reverse.mp member)
  · rw [cuts.ends]
    simp [history, ended]
  · rw [cuts.ends]
    rfl
  · rw [left, written, extract_left (Nat.le_of_lt cuts.beyond), cuts.ends]
    rfl

/-- A source in a limited sink, given how it runs in an endless one. -/
theorem run_truncated (capacity : Nat) (failsToFlush : Bool) (fuel : Nat) (nextId : OccurrenceId)
    (source : String) {chronicle : Chronicle} (endless : chronicle.sink.Endless)
    (room : chronicle.Within capacity) :
    Fits capacity failsToFlush (run fuel ⟨chronicle, nextId⟩ source)
      (run fuel ⟨chronicle.limited capacity failsToFlush, nextId⟩ source) ∨
    Overflows capacity failsToFlush chronicle.current (run fuel ⟨chronicle, nextId⟩ source)
      (run fuel ⟨chronicle.limited capacity failsToFlush, nextId⟩ source) := by
  rcases run_cases fuel nextId source with ⟨problems, rejected⟩ | ⟨_, _, ran⟩
  · rw [rejected, rejected]
    exact .inl ⟨room.1, List.map_reverse.symm, rfl, rfl⟩
  · rw [ran, ran]
    generalize (resolve (readSource source nextId).statements).distances = distances
    have endless : (chronicle.learn distances).sink.Endless := endless
    rcases executeProgram_truncated capacity failsToFlush fuel (readSource source nextId).statements
      endless room with ⟨within, ends⟩ | ⟨moment, earlier, cut, ends, cuts⟩
    · have ends : executeProgram _ _ ((chronicle.limited _ _).learn distances) = _ := ends
      rw [ends]
      exact .inl (fits_ended within)
    · have ends : executeProgram _ _ ((chronicle.limited _ _).learn distances) = _ := ends
      rw [ends]
      exact .inr (overflows_ended cuts)

end Session

end History

/-- The session with another sink. -/
def Session.onto (sink : Sink) (session : Session) : Session :=
  { session with machine := { session.machine with sink := sink } }

theorem Session.limited_onto (session : Session) (written : ByteArray) (room : Nat)
    (failsToFlush : Bool) :
    (History.Chronicle.of (session.onto ⟨written, none, false⟩).machine).limited
        (written.size + room) failsToFlush =
      .of (session.onto ⟨written, some (written.size + room), failsToFlush⟩).machine := by
  have cut : written.extract 0 (written.size + room) = written :=
    extract_all (Nat.le_add_right written.size room)
  simp [History.Chronicle.limited, Machine.limited, Sink.limited, History.Chronicle.of,
    Session.onto, cut]

/-- A sink with some room left shows what an endless sink shows, up to the first line that does
not fit; that line is cut off where the room ends, and nothing happens after it. -/
theorem output_truncated (fuel : Nat) (session : Session) (written : ByteArray) (room : Nat)
    (failsToFlush : Bool) (source : String) :
    let tight := session.onto ⟨written, some (written.size + room), failsToFlush⟩
    let endless := session.onto ⟨written, none, false⟩
    let limited := (History.Session.of tight).run fuel source
    let free := (History.Session.of endless).run fuel source
    ((limited.1, limited.2.forget) = tight.run fuel source ∧
      (free.1, free.2.forget) = endless.run fuel source) ∧
    (History.Session.Fits (written.size + room) failsToFlush free limited ∨
      History.Session.Overflows (written.size + room) failsToFlush session.machine.current
        free limited ∧ limited.1.exitCode = 74) := by
  intro tight endless limited free
  have truncated := History.Session.run_truncated (written.size + room) failsToFlush fuel
    session.nextId source (show (History.Chronicle.of endless.machine).sink.Endless from ⟨rfl, rfl⟩)
    ⟨Nat.le_add_right written.size room, fun _ none => absurd none List.not_mem_nil⟩
  rw [Session.limited_onto] at truncated
  refine ⟨⟨History.Session.run_of fuel tight source,
    History.Session.run_of fuel endless source⟩, ?_⟩
  rcases truncated with fits | overflows
  · exact .inl fits
  · exact .inr ⟨overflows, congrArg Ending.exitCode overflows.ending⟩

end Lox
