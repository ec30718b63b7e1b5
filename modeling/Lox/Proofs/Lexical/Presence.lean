import Lox.Proofs.Lexical.Activity
import Lox.Proofs.Lexical.Session
/-! Occurrences find what they mean. Whatever a run is doing, it does it in a frame that the
scopes around the code fit; so the frames are there that the distances of the code lead to,
and they bind the names. -/

namespace Lox.Lexical

open Scope World

/-! ## Placed tasks -/

/-- Only this variable of this frame is without its value here, if any is. -/
def Awaits (pending : Option (String × FrameId)) (frame : FrameId) (scopes : List Scope) : Prop :=
  ∀ name distance, locate? scopes name = some (distance, .declared) →
    distance = 0 ∧ pending = some (name, frame)

/-- The task is done where its code belongs. -/
def Placed (recorded : OccurrenceId → Option Nat → Prop) (pending : Option (String × FrameId))
    (world : World) : Task → Prop
  | .evaluate expr => ∃ scopes environment,
      world.Fits world.framed.current scopes environment ∧
        Awaits pending world.framed.current scopes ∧ expr.Scoped recorded scopes
  | .evaluateAll exprs => ∃ scopes environment,
      world.Fits world.framed.current scopes environment ∧
        Awaits pending world.framed.current scopes ∧ Expr.AllScoped recorded scopes exprs
  | .store id name _ => ∃ scopes environment,
      world.Fits world.framed.current scopes environment ∧
        Awaits pending world.framed.current scopes ∧ recorded id (distance? scopes name.lexeme)
  | .call _ _ _ => True
  | .invoke closure arguments => ∃ chained,
      FunctionsAlike recorded world closure chained ∧ arguments.length = closure.routine.arity
  | .instantiate id arguments => ∀ initializer,
      world.framed.method? id initializerName = some initializer →
        arguments.length = initializer.routine.arity
  | .execute stmt => ∃ scopes environment,
      StandsHere scopes world environment ∧ Settled scopes ∧ stmt.Scoped recorded scopes
  | .executeAll stmts => ∃ scopes environment,
      StandsHere scopes world environment ∧ Settled scopes ∧ Stmt.AllScoped recorded scopes stmts

/-- The task can be done on this machine, with some chain of cells beside it. -/
def Suits (recorded : OccurrenceId → Option Nat → Prop) (pending : Option (String × FrameId))
    (machine : Lox.Machine) (task : Task) : Prop :=
  ∃ world : World, world.framed = machine ∧ Sound recorded world ∧
    Placed recorded pending world task

/-- The task can be done, whatever is waiting for its value. -/
def Fitting (recorded : OccurrenceId → Option Nat → Prop) (machine : Lox.Machine)
    (task : Task) : Prop :=
  ∃ pending, Suits recorded pending machine task

theorem settled_awaits {scopes : List Scope} (settled : Settled scopes)
    (pending : Option (String × FrameId)) (frame : FrameId) : Awaits pending frame scopes :=
  fun name distance found => absurd found (settled name distance)

/-- The variable that is being declared is the only one without a value. -/
theorem settled_awaits_declared {scopes : List Scope} (settled : Settled scopes) (name : String)
    (frame : FrameId) : Awaits (some (name, frame)) frame (bindIn scopes name .declared) := by
  intro other distance found
  by_cases equal : other = name
  · subst equal
    cases scopes with
    | nil => cases found
    | cons scope outer =>
        rw [locate?_bindIn_same] at found
        cases found
        exact ⟨rfl, rfl⟩
  · rw [locate?_bindIn_other scopes equal] at found
    exact absurd found (settled other distance)

theorem settled_after {scopes : List Scope} (settled : Settled scopes) (stmt : Stmt) :
    Settled (stmt.scopesAfter scopes) := by
  cases stmt with
  | var name _ => exact settled.bindIn name.lexeme
  | function routine => exact settled.bindIn routine.name.lexeme
  | classDecl name _ _ => exact settled.bindIn name.lexeme
  | _ => exact settled

/-- The variable that waits for its value while a part of the task is done. -/
def pendingDuring (pending : Option (String × FrameId)) (machine : Lox.Machine) :
    Task → Option (String × FrameId)
  | .evaluate _ | .evaluateAll _ => pending
  | .execute (.var name _) => some (name.lexeme, machine.current)
  | _ => none

section

variable {recorded : OccurrenceId → Option Nat → Prop} {fuel : Nat} {world : World}
  {scopes : List Scope} {environment : Environment}

/-- After an expression, code may go on where it was. -/
theorem after_evaluate (sound : Sound recorded world)
    (fits : world.Fits world.framed.current scopes environment)
    {pending : Option (String × FrameId)} (awaits : Awaits pending world.framed.current scopes)
    {expr : Expr} (holds : expr.Scoped recorded scopes) {value : Value} {machine : Lox.Machine}
    (ran : Lox.evaluate fuel expr world.framed = .ok value machine) :
    ∃ after, after.framed = machine ∧ Sound recorded after ∧
      after.Fits after.framed.current scopes environment ∧
      Awaits pending after.framed.current scopes := by
  rcases ((simulates recorded fuel).evaluate expr sound fits holds).of_ran ran with
    ⟨after, _, same, later, afterSound, _⟩
  refine ⟨after, same, afterSound, ?_⟩
  rw [later.current]
  exact ⟨later.fits fits, awaits⟩

theorem after_condition (sound : Sound recorded world)
    (stands : StandsHere scopes world environment) {expr : Expr}
    (holds : expr.Scoped recorded scopes) {value : Value} {machine : Lox.Machine}
    (ran : Lox.evaluate fuel expr world.framed = .ok value machine) :
    ∃ after, after.framed = machine ∧ Sound recorded after ∧
      StandsHere scopes after environment := by
  rcases ((simulates recorded fuel).evaluate expr sound stands.fits holds).of_ran ran with
    ⟨after, _, same, later, afterSound, _⟩
  refine ⟨after, same, afterSound, ?_⟩
  rw [StandsHere, later.current]
  exact stands.later sound later id

/-- A part of a task that is placed is placed where it is started. -/
theorem Starts.suits {task part : Task} {machine middle : Lox.Machine}
    (starts : Starts fuel task machine part middle) {pending : Option (String × FrameId)}
    (suits : Suits recorded pending machine task) :
    Suits recorded (pendingDuring pending machine task) middle part := by
  rcases suits with ⟨world, rfl, sound, placed⟩
  cases starts with
  | group | unary | getObject =>
      rcases placed with ⟨scopes, environment, fits, awaits, holds⟩
      exact ⟨world, rfl, sound, scopes, environment, fits, awaits, holds⟩
  | binaryLeft | logicalLeft | callee | setObject | head =>
      rcases placed with ⟨scopes, environment, fits, awaits, holds⟩
      exact ⟨world, rfl, sound, scopes, environment, fits, awaits, holds.1⟩
  | assigned =>
      rcases placed with ⟨scopes, environment, fits, awaits, _, holds, _⟩
      exact ⟨world, rfl, sound, scopes, environment, fits, awaits, holds⟩
  | binaryRight ran | arguments ran | setValue ran | tail ran =>
      rcases placed with ⟨scopes, environment, fits, awaits, holds⟩
      rcases after_evaluate sound fits awaits holds.1 ran with
        ⟨after, same, afterSound, afterFits, afterAwaits⟩
      exact ⟨after, same, afterSound, scopes, environment, afterFits, afterAwaits, holds.2⟩
  | logicalRight ran _ =>
      rcases placed with ⟨scopes, environment, fits, awaits, holds⟩
      rcases after_evaluate sound fits awaits holds.1 ran with
        ⟨after, same, afterSound, afterFits, afterAwaits⟩
      exact ⟨after, same, afterSound, scopes, environment, afterFits, afterAwaits, holds.2⟩
  | assignment ran =>
      rcases placed with ⟨scopes, environment, fits, awaits, _, holds, known⟩
      rcases after_evaluate sound fits awaits holds ran with
        ⟨after, same, afterSound, afterFits, afterAwaits⟩
      exact ⟨after, same, afterSound, scopes, environment, afterFits, afterAwaits, known⟩
  | called ran arguments =>
      rcases placed with ⟨scopes, environment, fits, awaits, holds⟩
      rcases after_evaluate sound fits awaits holds.1 ran with
        ⟨middle, rfl, middleSound, middleFits, _⟩
      rcases ((simulates recorded fuel).evaluateAll _ middleSound middleFits holds.2).of_ran
        arguments with ⟨after, _, same, _, afterSound, _⟩
      exact ⟨after, same, afterSound, trivial⟩
  | function found enough =>
      rename_i id _ _ closure
      have entry := sound.heaps.functions.entries id
      rw [found] at entry
      generalize world.chained.functions[id]? = chained? at entry
      cases entry with
      | some alike => exact ⟨world, rfl, sound, _, alike, enough⟩
  | constructor arity =>
      refine ⟨world, rfl, sound, ?_⟩
      intro initializer found
      rw [Heap.arity?, found] at arity
      exact (Option.some.inj arity).symm
  | body entered =>
      rcases placed with ⟨chained, alike, enough⟩
      rcases enterBody sound alike _ enough with
        ⟨environment, bound, scopes, framedBound, _, _, boundSound, here, settled, holds⟩
      refine ⟨bound.moveTo world.forest.size, ?_, boundSound.moveTo _, scopes, environment, here,
        settled, holds⟩
      cases entered
      rw [moveTo, framedBound]
      rfl
  | initializer created found bound =>
      rename_i id _ object initializer _ _
      have creates : Agrees recorded Nothing world _ (Run.newObject id) (newObject id) :=
        .newObject sound id
      rcases creates.of_ran created with ⟨made, _, rfl, _, madeSound, _, classes⟩
      have entry := madeSound.heaps.method? id initializerName
      have same := method?_of_classes classes id initializerName
      rw [found] at entry same
      generalize made.chained.method? id initializerName = chained? at entry
      cases entry with
      | some alike =>
          rcases (Agrees.bind_method madeSound alike object).of_ran bound with
            ⟨after, other, framed, _, afterSound, afterAlike, routine⟩
          refine ⟨after, framed, afterSound, other, afterAlike, ?_⟩
          rw [routine]
          exact placed initializer same.symm
  | expression | print | returned =>
      rcases placed with ⟨scopes, environment, stands, settled, holds⟩
      exact ⟨world, rfl, sound, scopes, environment, stands.fits, settled_awaits settled _ _, holds⟩
  | initial =>
      rcases placed with ⟨scopes, environment, stands, settled, declarable, holds⟩
      rcases stands.declare sound declarable.free with
        ⟨inner, after, framed, _, _, afterSound, afterStands⟩
      refine ⟨after, framed, afterSound, _, inner, ?_, ?_, holds⟩
      · rw [framed]
        exact afterStands.fits
      · rw [framed]
        exact settled_awaits_declared settled _ _
  | block entered =>
      rcases placed with ⟨scopes, environment, stands, settled, holds⟩
      have inner := enterBlock sound stands
      cases entered
      exact ⟨_, rfl, inner.1, _, _, inner.2, settled.enter, holds⟩
  | condition =>
      rcases placed with ⟨scopes, environment, stands, settled, holds⟩
      refine ⟨world, rfl, sound, scopes, environment, stands.fits, settled_awaits settled _ _, ?_⟩
      rename_i elseBranch
      cases elseBranch with
      | none => exact holds.1
      | some _ => exact holds.1
  | thenBranch ran _ =>
      rcases placed with ⟨scopes, environment, stands, settled, holds⟩
      rename_i elseBranch _ _
      cases elseBranch with
      | none =>
          rcases after_condition sound stands holds.1 ran with ⟨after, same, afterSound, here⟩
          exact ⟨after, same, afterSound, scopes, environment, here, settled, holds.2.1⟩
      | some _ =>
          rcases after_condition sound stands holds.1 ran with ⟨after, same, afterSound, here⟩
          exact ⟨after, same, afterSound, scopes, environment, here, settled, holds.2.1.1⟩
  | elseBranch ran _ =>
      rcases placed with ⟨scopes, environment, stands, settled, holds⟩
      rcases after_condition sound stands holds.1 ran with ⟨after, same, afterSound, here⟩
      exact ⟨after, same, afterSound, scopes, environment, here, settled, holds.2.2.1⟩
  | tested =>
      rcases placed with ⟨scopes, environment, stands, settled, holds⟩
      exact ⟨world, rfl, sound, scopes, environment, stands.fits, settled_awaits settled _ _,
        holds.1⟩
  | round ran _ =>
      rcases placed with ⟨scopes, environment, stands, settled, holds⟩
      rcases after_condition sound stands holds.1 ran with ⟨after, same, afterSound, here⟩
      exact ⟨after, same, afterSound, scopes, environment, here, settled, holds.2.1⟩
  | again ran _ body =>
      rcases placed with ⟨scopes, environment, stands, settled, holds⟩
      rcases after_condition sound stands holds.1 ran with ⟨middle, rfl, middleSound, here⟩
      rcases ((simulates recorded fuel).governed middleSound holds.2.2 here holds.2.1).of_ran
        body with ⟨after, _, same, later, afterSound, _⟩
      refine ⟨after, same, afterSound, scopes, environment, ?_, settled, holds⟩
      rw [StandsHere, later.current]
      exact here.later middleSound later id
  | superclass =>
      rcases placed with ⟨scopes, environment, stands, settled, _, holds, _⟩
      exact ⟨world, rfl, sound, scopes, environment, stands.fits, settled_awaits settled _ _, holds⟩
  | first =>
      rcases placed with ⟨scopes, environment, stands, settled, holds⟩
      exact ⟨world, rfl, sound, scopes, environment, stands, settled, holds.1⟩
  | following ran =>
      rcases placed with ⟨scopes, environment, stands, settled, holds⟩
      rcases ((simulates recorded fuel).execute _ sound stands holds.1).of_ran ran with
        ⟨after, _, same, _, afterSound, _, afterStands⟩
      exact ⟨after, same, afterSound, _, _, afterStands, settled_after settled _, holds.2⟩

end

/-! ## Occurrences -/

section

variable {recorded : OccurrenceId → Option Nat → Prop} {world : World} {scopes : List Scope}
  {environment : Environment}

/-- A name is declared at its distance, and the frame there is in place. -/
theorem hasFrame_of_fits (sound : Sound recorded world)
    (fits : world.Fits world.framed.current scopes environment) {id : OccurrenceId} {name : String}
    (known : recorded id (distance? scopes name)) : world.framed.HasFrame id := by
  intro distance found
  rw [sound.distances _ _ known, distance?, Option.map_eq_some_iff] at found
  rcases found with ⟨⟨_, state⟩, located, rfl⟩
  rcases fits.present located with ⟨target, _, reached, _⟩
  exact ⟨target, reached⟩

theorem binds_of_fits (sound : Sound recorded world)
    (fits : world.Fits world.framed.current scopes environment) {id : OccurrenceId} {name : String}
    (known : recorded id (distance? scopes name))
    (ready : ∀ distance, locate? scopes name ≠ some (distance, .declared)) :
    world.framed.Binds id name := by
  intro distance found
  rw [sound.distances _ _ known, distance?, Option.map_eq_some_iff] at found
  rcases found with ⟨⟨_, state⟩, located, rfl⟩
  rcases fits.present located with ⟨target, _, reached, _, _, bound⟩
  refine ⟨target, reached, bound ?_⟩
  cases state with
  | declared => exact absurd located (ready _)
  | ready => rfl

theorem Fitting.bound {machine : Lox.Machine} {task : Task}
    (fitting : Fitting recorded machine task) : task.Bound machine := by
  rcases fitting with ⟨_, world, rfl, sound, placed⟩
  cases task with
  | evaluate expr =>
      rcases placed with ⟨scopes, environment, fits, _, holds⟩
      cases expr with
      | read id name => exact binds_of_fits sound fits holds.1 holds.2
      | assign id name value => exact hasFrame_of_fits sound fits holds.2.2
      | this id keyword =>
          rcases holds with ⟨spelled, distance, receives, known⟩
          have located : locate? scopes keyword.lexeme = some (distance, .ready) := by
            rw [spelled]
            exact receives
          refine binds_of_fits sound fits ?_ ?_
          · rw [distance?, located]
            exact known
          · intro other declared
            cases located.symm.trans declared
      | super id keyword method =>
          rcases holds with ⟨spelled, distance, inherits, known⟩
          rcases sound.superclass fits inherits with ⟨outer, classId, reachedOuter, ownOuter, _⟩
          rcases sound.receiver fits inherits.1 with ⟨inner, objectId, reachedInner, ownInner, _⟩
          exact ⟨spelled, distance, outer, inner, classId, objectId, sound.distances _ _ known,
            reachedOuter, ownOuter, reachedInner, ownInner⟩
      | _ => trivial
  | store id name value =>
      rcases placed with ⟨scopes, environment, fits, _, known⟩
      exact hasFrame_of_fits sound fits known
  | _ => trivial

end

/-! ## Runs and sessions -/

theorem Reaches.fitting {recorded : OccurrenceId → Option Nat → Prop} {fuel : Nat}
    {task last : Task} {machine final : Lox.Machine}
    (reaches : Reaches fuel task machine last final) (fitting : Fitting recorded machine task) :
    Fitting recorded final last := by
  induction reaches with
  | here => exact fitting
  | part starts _ induction =>
      rcases fitting with ⟨_, suits⟩
      exact induction ⟨_, Starts.suits starts suits⟩

/-- A task is started by one of the statements of the program. -/
theorem ProgramReaches.statement {recorded : OccurrenceId → Option Nat → Prop} {fuel : Nat}
    {stmts : List Stmt} {task : Task} {machine final : Lox.Machine}
    (reaches : ProgramReaches fuel stmts machine task final)
    (fitting : ∃ world : World, world.framed = machine ∧ Sound recorded world ∧
      StandsHere [] world .outermost) (holds : Stmt.AllScoped recorded [] stmts) :
    ∃ stmt before, Suits recorded none before (.execute stmt) ∧
      Reaches fuel (.execute stmt) before task final ∧
      ∀ part middle, Reaches fuel (.execute stmt) before part middle →
        ProgramReaches fuel stmts machine part middle := by
  induction reaches with
  | first reaches =>
      rcases fitting with ⟨world, same, sound, stands⟩
      exact ⟨_, _, ⟨world, same, sound, [], .outermost, stands, settled_nil, holds.1⟩, reaches,
        fun _ _ => .first⟩
  | following ran _ induction =>
      rename_i stmt _ _ _ _ _ _ _
      rcases fitting with ⟨world, rfl, sound, stands⟩
      have top : stmt.scopesAfter [] = [] := by cases stmt <;> rfl
      rcases ((simulates recorded fuel).execute _ sound stands holds.1).of_ran ran with
        ⟨after, _, same, _, afterSound, _, afterStands⟩
      rw [top] at afterStands
      have holds := holds.2
      rw [top] at holds
      rw [afterStands.fits.of_nil.2] at afterStands
      rcases induction ⟨after, same, afterSound, afterStands⟩ holds with
        ⟨stmt, before, suits, reaches, whole⟩
      exact ⟨stmt, before, suits, reaches, fun part middle inner => .following ran (whole _ _ inner)⟩

theorem ProgramReaches.fitting {recorded : OccurrenceId → Option Nat → Prop} {fuel : Nat}
    {stmts : List Stmt} {task : Task} {machine final : Lox.Machine}
    (reaches : ProgramReaches fuel stmts machine task final)
    (fitting : ∃ world : World, world.framed = machine ∧ Sound recorded world ∧
      StandsHere [] world .outermost) (holds : Stmt.AllScoped recorded [] stmts) :
    Fitting recorded final task := by
  rcases ProgramReaches.statement reaches fitting holds with ⟨_, _, suits, reaches, _⟩
  exact Reaches.fitting reaches ⟨_, suits⟩

/-- A session that has run any sources has a counterpart without distances. -/
theorem reachable_alike {sink : Sink} {clock : Nat → Float} {session : Lox.Session}
    (reachable : Session.Reachable sink clock session) :
    ∃ chained, SessionsAlike session chained := by
  induction reachable with
  | start => exact ⟨_, .start sink clock⟩
  | run _ fuel source induction =>
      rcases induction with ⟨chained, alike⟩
      exact ⟨_, (alike.run fuel source).2⟩

/-- Whatever a session has run, an accepted source starts where its code belongs. -/
theorem reachable_begins {sink : Sink} {clock : Nat → Float} {session : Lox.Session}
    (reachable : Session.Reachable sink clock session) {source : String}
    (accepted : session.Accepts source) :
    (∃ world : World, world.framed = session.ready source ∧
      Sound (Known (session.ready source).distances (readSource source session.nextId).nextId)
        world ∧ StandsHere [] world .outermost) ∧
    Stmt.AllScoped
      (Known (session.ready source).distances (readSource source session.nextId).nextId) []
      (readSource source session.nextId).statements := by
  rcases reachable_alike reachable with ⟨_, alike⟩
  have learnt := learnt source alike.unused accepted.1 accepted.2
  rcases alike.begins learnt with ⟨_, sound, stands⟩
  exact ⟨⟨_, rfl, sound, stands⟩, learnt.holds⟩

end Lox.Lexical

namespace Lox

open Lexical

/-- No run ends because a frame is missing, or because a superclass has no distance. -/
def Ending.Expected : Ending → Prop
  | .failed (.runtime problem _) => problem.Expected
  | _ => True

theorem Stop.Expected.ending {stop : Stop} (expected : stop.Expected) :
    (Ending.ofStop stop).Expected := by
  cases stop with
  | fault problem line => exact expected
  | _ => trivial

/-! ## A method that is kept

A source binds a method of a subclass to an instance and keeps it in a variable. The next source
calls it, and its body looks a method of the superclass up. -/

namespace Kept

open Token

def lookup : Expr := .super 1 (ofWord .superWord) (ofName "m")

def method : Routine := .mk (ofName "m") [] [.expression lookup]

def program : List Stmt :=
  [.classDecl (ofName "A") none [.mk (ofName "m") [] []],
    .classDecl (ofName "B") (some (.read 0 (ofName "A"))) [method],
    .var (ofName "f")
      (some (.get (.call (.read 2 (ofName "B")) (ofMark .rightParen) []) (ofName "m")))]

def calling : Stmt := .expression (.call (.read 3 (ofName "f")) (ofMark .rightParen) [])

def source : String := "class A{m(){}}class B<A{m(){super.m;}}var f=B().m;"

/-- What the first source leaves behind. -/
def session : Session := ((Session.start .unlimited fun _ => 0).run 9 source).2

theorem readSource_source : readSource source 0 = ⟨[], program, 3⟩ := by
  with_unfolding_all rfl

theorem resolve_program : resolve program = ⟨(∅ : Distances).set 1 2, []⟩ := by
  with_unfolding_all rfl

theorem readSource_calling : readSource "f();" 3 = ⟨[], [calling], 4⟩ := by
  with_unfolding_all rfl

theorem resolve_calling : resolve [calling] = ⟨∅, []⟩ := by
  with_unfolding_all rfl

/-- The variable holds the method. -/
theorem holds_method : ∃ machine closure, session = ⟨machine, 3⟩ ∧
    machine.valueOf 3 "f" = .ok (.function 0) ∧ machine.functions[0]? = some closure ∧
      closure.routine = method := by
  have executed : ∃ machine closure, executeProgram 9 program
      ((Machine.start .unlimited fun _ => 0).learn ((∅ : Distances).set 1 2)) = .ok () machine ∧
      machine.valueOf 3 "f" = .ok (.function 0) ∧ machine.functions[0]? = some closure ∧
        closure.routine = method :=
    ⟨_, _, by with_unfolding_all rfl, by with_unfolding_all rfl, by with_unfolding_all rfl, rfl⟩
  rcases executed with ⟨machine, closure, executed, holds⟩
  refine ⟨machine, closure, ?_, holds⟩
  have number : (Session.start .unlimited fun _ => 0).nextId = 0 := rfl
  have begins : (Session.start .unlimited fun _ => 0).machine = .start .unlimited fun _ => 0 := rfl
  simp [session, Session.run, number, readSource_source, resolve_program, begins, executed]

/-- The body of the method is executed on what the first source has left behind. -/
theorem executes : ∃ machine, session.Executes 9 "f();" (.evaluate lookup) machine := by
  rcases holds_method with ⟨machine, closure, ended, value, found, routine⟩
  have looked : evaluate 7 (.read 3 (ofName "f")) machine = .ok (.function 0) machine := by
    show Run.ofExcept (machine.valueOf 3 "f") (ofName "f") machine = _
    rw [value]
    rfl
  have arity : ([] : List Value).length = closure.routine.arity := by
    rw [routine]
    rfl
  have body (start : Machine) :
      Reaches 5 (.executeAll closure.routine.body) start (.evaluate lookup) start := by
    rw [routine]
    exact .part .first (.part .expression .here)
  have reaches : ∃ final, ProgramReaches 9 [calling] machine (.evaluate lookup) final :=
    ⟨_, .first (.part .expression (.part (.called looked rfl) (.part (.function found arity)
      (.part (.body rfl) (body _)))))⟩
  rcases reaches with ⟨final, reaches⟩
  refine ⟨final, ⟨?_, ?_⟩, ?_⟩
  · rw [ended, readSource_calling]
  · rw [ended, readSource_calling, resolve_calling]
  · rw [Session.ready, ended, readSource_calling, resolve_calling]
    exact reaches

end Kept

namespace Session

/-- Whenever an occurrence is evaluated or written, in whatever a session has come to, the frame
at its distance is there and binds what it means; a superclass has a distance, the superclass is
there, and the receiver is just inside of it. So an occurrence with a distance never fails. -/
theorem occurrences_bound {sink : Sink} {clock : Nat → Float} {session : Session}
    (reachable : Reachable sink clock session) (fuel : Nat) (source : String) :
    (∀ task machine, session.Executes fuel source task machine →
      task.Bound machine ∧ task.Faultless machine) ∧
    (session.run fuel source).1.Expected := by
  rcases reachable_alike reachable with ⟨chained, alike⟩
  constructor
  · rintro task machine ⟨⟨clean, resolved⟩, reaches⟩
    have learnt := learnt source alike.unused clean resolved
    rcases alike.begins learnt with ⟨layout, sound, stands⟩
    have fitting := ProgramReaches.fitting reaches ⟨_, rfl, sound, stands⟩ learnt.holds
    exact ⟨fitting.bound, fitting.bound.faultless⟩
  · by_cases accepted : session.Accepts source
    · have learnt := learnt source alike.unused accepted.1 accepted.2
      rcases alike.begins learnt with ⟨layout, sound, stands⟩
      have agrees := Agrees.executeProgram fuel _ sound stands learnt.holds
      rw [run_accepted fuel accepted]
      cases ended : executeProgram fuel (readSource source session.nextId).statements
          (session.ready source) with
      | ok _ _ => trivial
      | error stop _ => exact (agrees.expected ended).ending
    · rcases run_rejected fuel accepted with ⟨problems, ended⟩
      rw [ended]
      trivial

/-- The superclass and the receiver are there in a method that an earlier source has kept. -/
theorem occurrences_bound_kept :
    Reachable .unlimited (fun _ => 0) Kept.session ∧
      ∃ machine, Kept.session.Executes 9 "f();" (.evaluate Kept.lookup) machine ∧
        machine.BindsSuper 1 ∧ Task.Faultless machine (.evaluate Kept.lookup) := by
  have reachable : Reachable .unlimited (fun _ => 0) Kept.session := .run .start 9 _
  rcases Kept.executes with ⟨machine, executes⟩
  have bound := (occurrences_bound reachable 9 "f();").1 _ _ executes
  exact ⟨reachable, machine, executes, bound.1.2, bound.2⟩

end Session

end Lox
