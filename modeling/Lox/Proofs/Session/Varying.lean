import Lox.Proofs.Session.Distances
import Lox.Proofs.Variation.Evaluation
import Lox.Proofs.Variation.Scope
/-! Sessions that have the same behind them, but for the numbers of the occurrences. They go
on alike: a source is refused by both, with the same diagnostics, or does the same in both. -/

namespace Lox

open Grammar

/-! ## Refusing a source -/

/-- What is found in a source before it runs. -/
def staticProblems (source : String) (firstId : OccurrenceId) : List Diagnostic :=
  if (readSource source firstId).problems.isEmpty then
    (resolve (readSource source firstId).statements).problems
  else
    (readSource source firstId).problems

namespace Session

theorem accepts_iff (session : Session) (source : String) :
    session.Accepts source ↔ staticProblems source session.nextId = [] := by
  rw [Accepts, staticProblems]
  split
  · rename_i clean
    exact and_iff_right (List.isEmpty_iff.mp clean)
  · rename_i faulty
    rw [List.isEmpty_iff] at faulty
    exact ⟨fun accepted => absurd accepted.1 faulty, fun none => absurd none faulty⟩

/-- A source that is refused takes numbers and does nothing else. -/
theorem run_refused (fuel : Nat) {session : Session} {source : String}
    (refused : staticProblems source session.nextId ≠ []) :
    session.run fuel source = (.rejected (staticProblems source session.nextId),
      { session with nextId := (readSource source session.nextId).nextId }) := by
  rw [staticProblems] at refused ⊢
  rw [run]
  dsimp only
  split
  · rename_i clean
    rw [if_pos clean] at refused
    rw [if_neg fun none => refused (List.isEmpty_iff.mp none)]
  · rfl

end Session

/-! ## Reading a source from other numbers on -/

/-- The numbers up to a bound, as they are taken from two different ones on. -/
def InStep (firstId firstId' bound id id' : Nat) : Prop :=
  firstId ≤ id ∧ id < bound ∧ id + firstId' = id' + firstId

theorem InStep.iff {firstId firstId' bound id id' query query' : Nat}
    (first : InStep firstId firstId' bound id id')
    (second : InStep firstId firstId' bound query query') : id = query ↔ id' = query' := by
  rcases first with ⟨_, _, first⟩
  rcases second with ⟨_, _, second⟩
  omega

theorem InStep.first {firstId firstId' bound id id' : Nat}
    (inStep : InStep firstId firstId' bound id id') : firstId' ≤ id' := by
  rcases inStep with ⟨first, _, same⟩
  omega

theorem InStep.next {firstId firstId' bound bound' id id' : Nat}
    (inStep : InStep firstId firstId' bound id id') (next : bound + firstId' = bound' + firstId) :
    id' < bound' := by
  rcases inStep with ⟨_, below, same⟩
  omega

section

variable {allowed : Token → Prop}

theorem inStep_exact (firstId firstId' bound : OccurrenceId) :
    (Variation.ofIds (InStep firstId firstId' bound) allowed).Exact :=
  fun _ _ _ _ first second => InStep.iff first second

theorem readSource_inStep {source : String} (all : ∀ token ∈ tokensOf source, allowed token)
    (firstId firstId' : OccurrenceId) :
    (readSource source firstId').problems = (readSource source firstId).problems ∧
      (readSource source firstId).nextId + firstId' = (readSource source firstId').nextId + firstId ∧
      Stmt.AllVary
        (.ofIds (InStep firstId firstId' (readSource source firstId).nextId) allowed)
        (readSource source firstId).statements (readSource source firstId').statements := by
  let ids (id id' : Nat) : Prop := firstId ≤ id ∧ id + firstId' = id' + firstId
  have inStep (taken : Nat) : ids (firstId + taken) (firstId' + taken) :=
    ⟨Nat.le_add_right _ _, by rw [Nat.add_right_comm, Nat.add_comm firstId, Nat.add_right_comm]⟩
  rcases readSource_varies all inStep with ⟨same, next, vary⟩
  refine ⟨same, next.2, ?_⟩
  refine vary.weaken (Variation.ofIds_tokens fun _ => id) fun id member id' related => ?_
  have inside := (parse_numbered (tokensOf source) firstId).within id member
  exact ⟨inside.1, inside.2, related.2⟩

theorem Diagnostic.eq_of_varies {ids : OccurrenceId → OccurrenceId → Prop}
    {problems problems' : List Diagnostic}
    (vary : List.Forall₂ (Diagnostic.Varies (.ofIds ids allowed)) problems problems') :
    problems' = problems := by
  induction vary with
  | nil => rfl
  | cons first _ induction =>
      cases first with
      | scope same => rw [induction, same.1]

/-- What is found in a source does not depend on the numbers of its occurrences. -/
theorem staticProblems_eq (source : String) (firstId firstId' : OccurrenceId) :
    staticProblems source firstId' = staticProblems source firstId := by
  have all : ∀ token ∈ tokensOf source, (fun _ => True : Token → Prop) token := fun _ _ => trivial
  rcases readSource_inStep all firstId firstId' with ⟨same, _, vary⟩
  have resolved := (resolve_varies (inStep_exact _ _ _) vary).2
  rw [staticProblems, staticProblems, same, Diagnostic.eq_of_varies resolved]

end

/-! ## Sessions -/

/-- What relates the two sessions between two sources. -/
structure Session.Varies (ids : OccurrenceId → OccurrenceId → Prop) (allowed : Token → Prop)
    (session other : Session) : Prop where
  machine : session.machine.Varies (.ofIds ids allowed) other.machine
  exact : (Variation.ofIds ids allowed).Exact
  taken : ∀ id id', ids id id' → id < session.nextId ∧ id' < other.nextId

theorem Closure.Varies.weaken {variation weaker : Variation} {closure other : Closure FrameId}
    (tokens : ∀ {token other}, variation.tokens token other → weaker.tokens token other)
    (ids : ∀ id id', variation.ids id id' → weaker.ids id id')
    (varies : closure.Varies variation other) : closure.Varies weaker other :=
  ⟨varies.routine.weaken tokens fun id _ => ids id, varies.place, varies.isInitializer⟩

/-- More numbers and more tokens may stand for each other. -/
theorem Machine.Varies.weaken {variation weaker : Variation} {machine other : Machine}
    (varies : machine.Varies variation other)
    (tokens : ∀ {token other}, variation.tokens token other → weaker.tokens token other)
    (ids : ∀ id id', variation.ids id id' → weaker.ids id id') {distances distances' : Distances}
    (agree : ∀ id id', weaker.ids id id' → distances.find? id = distances'.find? id') :
    Machine.Varies weaker { machine with distances := distances }
      { other with distances := distances' } :=
  ⟨varies.functions.mono fun _ _ => Closure.Varies.weaken tokens ids,
    varies.classes.mono fun _ _ info => ⟨info.name, info.superclass,
      info.methods.mono fun _ _ => Closure.Varies.weaken tokens ids⟩,
    varies.objects, varies.forest, agree, varies.globals, varies.current, varies.sink,
    varies.clock, varies.ticks⟩

/-- The two runs end alike, with faults that are blamed on places that stand for each other. -/
inductive Ending.Varies (variation : Variation) : Ending → Ending → Prop
  | success : Varies variation success success
  | runtime {fault token token'} : variation.tokens token token' →
      Varies variation (.failed (.runtime fault token.line)) (.failed (.runtime fault token'.line))
  | output {fault} : Varies variation (.failed (.output fault)) (.failed (.output fault))
  | exhausted : Varies variation .exhausted .exhausted

theorem Stop.Varies.ending {variation : Variation} {stop other : Stop}
    (varies : stop.Varies variation other) :
    Ending.Varies variation (.ofStop stop) (.ofStop other) := by
  cases varies with
  | fault same => exact .runtime same
  | sink => exact .output
  | exhausted => exact .exhausted

theorem Ending.eq_of_varies {ids : OccurrenceId → OccurrenceId → Prop} {allowed : Token → Prop}
    {ending other : Ending} (varies : ending.Varies (.ofIds ids allowed) other) :
    other = ending := by
  cases varies with
  | runtime same => rw [same.1]
  | success | output | exhausted => rfl

namespace Session

/-- What the execution of a program leaves. -/
def ended (nextId : OccurrenceId) (result : EStateM.Result Stop Machine Unit) : Ending × Session :=
  (match result with
    | .ok _ _ => .success
    | .error stop _ => .ofStop stop,
  ⟨match result with
    | .ok _ machine => machine
    | .error _ machine => machine, nextId⟩)

theorem run_ended (fuel : Nat) {session : Session} {source : String}
    (accepted : session.Accepts source) :
    session.run fuel source = ended (readSource source session.nextId).nextId
      (executeProgram fuel (readSource source session.nextId).statements (session.ready source)) := by
  rw [run_accepted fuel accepted]
  cases executeProgram fuel (readSource source session.nextId).statements (session.ready source) with
  | ok _ _ => rfl
  | error _ _ => rfl

theorem ended_varies {variation : Variation} {result result' : EStateM.Result Stop Machine Unit}
    (vary : EndsVary variation Eq result result') (nextId nextId' : OccurrenceId) :
    Ending.Varies variation (ended nextId result).1 (ended nextId' result').1 ∧
      (ended nextId result).2.machine.Varies variation (ended nextId' result').2.machine := by
  cases result with
  | ok _ _ =>
      cases result' with
      | ok _ _ => exact ⟨.success, vary.2⟩
      | error _ _ => exact vary.elim
  | error _ _ =>
      cases result' with
      | ok _ _ => exact vary.elim
      | error _ _ => exact ⟨vary.1.ending, vary.2⟩

end Session

namespace Session.Varies

variable {ids later : OccurrenceId → OccurrenceId → Prop} {allowed : Token → Prop}
  {sink : Sink} {clock : Nat → Float} {session other : Session}

theorem allow (varies : Varies ids allowed session other) {more : Token → Prop}
    (contained : ∀ token, allowed token → more token) : Varies ids more session other :=
  ⟨varies.machine.weaken (Variation.ofIds_tokens contained) (fun _ _ => id)
    varies.machine.distances, varies.exact, varies.taken⟩

/-- Which numbers stand for each other when the same source has been read by both. -/
def Extends (ids later : OccurrenceId → OccurrenceId → Prop) (session other : Session)
    (source : String) : Prop :=
  ∀ id id', later id id' ↔ ids id id' ∨
    InStep session.nextId other.nextId (readSource source session.nextId).nextId id id'

variable (varies : Varies ids allowed session other) {source : String}
  (extended : Extends ids later session other source)

include varies extended

theorem exact_later : (Variation.ofIds later allowed).Exact := by
  rintro id id' query query' related related'
  rcases (extended id id').mp related with old | new
  · rcases (extended query query').mp related' with old' | new'
    · exact varies.exact old old'
    · have before := varies.taken id id' old
      exact iff_of_false (Nat.ne_of_lt (Nat.lt_of_lt_of_le before.1 new'.1))
        (Nat.ne_of_lt (Nat.lt_of_lt_of_le before.2 new'.first))
  · rcases (extended query query').mp related' with old' | new'
    · have before := varies.taken query query' old'
      exact iff_of_false (Nat.ne_of_gt (Nat.lt_of_lt_of_le before.1 new.1))
        (Nat.ne_of_gt (Nat.lt_of_lt_of_le before.2 new.first))
    · exact new.iff new'

theorem taken_later (next : (readSource source session.nextId).nextId + other.nextId =
      (readSource source other.nextId).nextId + session.nextId) (id id' : OccurrenceId)
    (related : later id id') :
    id < (readSource source session.nextId).nextId ∧ id' < (readSource source other.nextId).nextId := by
  rcases (extended id id').mp related with old | new
  · have before := varies.taken id id' old
    exact ⟨Nat.lt_of_lt_of_le before.1 (readSource_advances source session.nextId),
      Nat.lt_of_lt_of_le before.2 (readSource_advances source other.nextId)⟩
  · exact ⟨new.2.1, new.next next⟩

/-- The distances that both sessions have when the source has been resolved. -/
theorem distances_later (reachable : Reachable sink clock session)
    (reachable' : Reachable sink clock other) {id id' : OccurrenceId} (related : later id id')
    (same : ∀ id id', InStep session.nextId other.nextId
        (readSource source session.nextId).nextId id id' →
      (session.recordedBy source).find? id = (other.recordedBy source).find? id') :
    (session.machine.distances.setAll (session.recordedBy source)).find? id =
      (other.machine.distances.setAll (other.recordedBy source)).find? id' := by
  rw [Table.find?_setAll (recordedBy_unique session source),
    Table.find?_setAll (recordedBy_unique other source)]
  rcases (extended id id').mp related with old | new
  · have before := varies.taken id id' old
    rw [recordedBy_others session source (.inl before.1),
      recordedBy_others other source (.inl before.2)]
    exact varies.machine.distances id id' old
  · rw [same id id' new, reachable.unused id new.1, reachable'.unused id' new.first]

/-- The same source does the same in both sessions. -/
theorem run (reachable : Reachable sink clock session) (reachable' : Reachable sink clock other)
    (all : ∀ token ∈ tokensOf source, allowed token) (fuel : Nat) :
    (other.run fuel source).1 = (session.run fuel source).1 ∧
      Varies later allowed (session.run fuel source).2 (other.run fuel source).2 := by
  rcases readSource_inStep all session.nextId other.nextId with ⟨_, next, vary⟩
  have verdict := staticProblems_eq source session.nextId other.nextId
  have exact' := varies.exact_later extended
  have taken' := varies.taken_later extended next
  have contained : ∀ id id', ids id id' → later id id' :=
    fun id id' related => (extended id id').mpr (.inl related)
  by_cases clean : staticProblems source session.nextId = []
  · have accepted := (accepts_iff session source).mpr clean
    have accepted' := (accepts_iff other source).mpr (verdict.trans clean)
    have resolved := (resolve_varies (inStep_exact _ _ _) vary).1
    have ready : Machine.Varies (.ofIds later allowed) (session.ready source)
        (other.ready source) := by
      refine varies.machine.weaken (Variation.ofIds_tokens fun _ => id) contained
        fun id id' related => ?_
      have recorded := varies.distances_later extended reachable reachable' related
      rw [recordedBy, recordedBy, if_pos accepted, if_pos accepted'] at recorded
      exact recorded resolved
    have vary : Stmt.AllVary (.ofIds later allowed) (readSource source session.nextId).statements
        (readSource source other.nextId).statements :=
      vary.weaken (Variation.ofIds_tokens fun _ => id) fun id _ id' related =>
        (extended id id').mpr (.inr related)
    rw [run_ended fuel accepted, run_ended fuel accepted']
    have both := ended_varies (executeProgram_varies fuel vary _ _ ready)
      (readSource source session.nextId).nextId (readSource source other.nextId).nextId
    exact ⟨Ending.eq_of_varies both.1, both.2, exact', taken'⟩
  · rw [run_refused fuel clean, run_refused fuel (by rw [verdict]; exact clean), verdict]
    refine ⟨rfl, varies.machine.weaken (Variation.ofIds_tokens fun _ => id) contained
      fun id id' related => ?_, exact', taken'⟩
    have refused : ¬ session.Accepts source := fun accepted => clean ((accepts_iff _ _).mp accepted)
    have refused' : ¬ other.Accepts source := fun accepted =>
      clean (verdict.symm.trans ((accepts_iff _ _).mp accepted))
    have recorded := varies.distances_later extended reachable reachable' related
    rw [recordedBy, recordedBy, if_neg refused, if_neg refused'] at recorded
    exact recorded fun _ _ _ => rfl

end Session.Varies

/-! ## One and the same session -/

/-- A number that has been taken stands for itself. -/
abbrev Taken (nextId : OccurrenceId) (id id' : OccurrenceId) : Prop :=
  id = id' ∧ id < nextId

/-- The session has run this source. -/
def Session.HasRun (sink : Sink) (clock : Nat → Float) (session : Session) (source : String) :
    Prop :=
  ∃ earlier fuel, Session.Reachable sink clock earlier ∧
    (earlier.run fuel source).2.Later session

/-- The token stands in a source that the session has run. -/
def Session.Seen (sink : Sink) (clock : Nat → Float) (session : Session) (token : Token) : Prop :=
  ∃ source, session.HasRun sink clock source ∧ token ∈ tokensOf source

theorem Machine.start_varies (variation : Variation) (sink : Sink) (clock : Nat → Float) :
    (Machine.start sink clock).Varies variation (Machine.start sink clock) :=
  ⟨.empty, .empty, rfl, rfl, fun _ _ _ => rfl, rfl, rfl, rfl, rfl, rfl⟩

theorem exists_line_bound (tokens : List Token) : ∃ bound, ∀ token ∈ tokens, token.line < bound := by
  induction tokens with
  | nil => exact ⟨0, nofun⟩
  | cons token rest induction =>
      rcases induction with ⟨bound, others⟩
      refine ⟨max (token.line + 1) bound, List.forall_mem_cons.mpr ⟨?_, fun other member => ?_⟩⟩
      · exact Nat.le_max_left _ _
      · exact Nat.lt_of_lt_of_le (others other member) (Nat.le_max_right _ _)

/-- The token has been seen, above this line. -/
def Session.SeenAbove (sink : Sink) (clock : Nat → Float) (session : Session) (bound : Nat)
    (token : Token) : Prop :=
  session.Seen sink clock token ∧ token.line < bound

section

variable {sink : Sink} {clock : Nat → Float} {session : Session}

/-- What is known of a session before a source is known, with its tokens, after it. -/
theorem Session.Varies.step (reachable : Reachable sink clock session) {bound : Nat}
    (varies : Varies (Taken session.nextId) (session.SeenAbove sink clock bound) session session)
    (fuel : Nat) (source : String) :
    ∃ later, Varies (Taken session.nextId)
        ((session.run fuel source).2.SeenAbove sink clock later) session session ∧
      (∀ token ∈ tokensOf source, (session.run fuel source).2.SeenAbove sink clock later token) ∧
      Varies (Taken (session.run fuel source).2.nextId)
        ((session.run fuel source).2.SeenAbove sink clock later) (session.run fuel source).2
        (session.run fuel source).2 := by
  rcases exists_line_bound (tokensOf source) with ⟨bound', lines⟩
  have seen : ∀ token, session.SeenAbove sink clock bound token →
      (session.run fuel source).2.SeenAbove sink clock (max bound bound') token := by
    rintro token ⟨⟨source', ⟨earlier, fuel', known, later⟩, member⟩, line⟩
    exact ⟨⟨source', ⟨earlier, fuel', known, later.run fuel source⟩, member⟩,
      Nat.lt_of_lt_of_le line (Nat.le_max_left _ _)⟩
  have all : ∀ token ∈ tokensOf source,
      (session.run fuel source).2.SeenAbove sink clock (max bound bound') token :=
    fun token member => ⟨⟨source, ⟨session, fuel, reachable, .here⟩, member⟩,
      Nat.lt_of_lt_of_le (lines token member) (Nat.le_max_right _ _)⟩
  have extended : Extends (Taken session.nextId)
      (Taken (session.run fuel source).2.nextId) session session source := by
    intro id id'
    have advances := readSource_advances source session.nextId
    rw [run_nextId, InStep]
    constructor
    · rintro ⟨rfl, taken⟩
      rcases Nat.lt_or_ge id session.nextId with before | fresh
      · exact .inl ⟨rfl, before⟩
      · exact .inr ⟨fresh, taken, rfl⟩
    · rintro (⟨rfl, taken⟩ | ⟨first, bound, same⟩)
      · exact ⟨rfl, Nat.lt_of_lt_of_le taken advances⟩
      · exact ⟨Nat.add_right_cancel same, bound⟩
  have before := varies.allow seen
  exact ⟨_, before, all, (before.run extended reachable reachable all fuel).2⟩

/-- Whatever a session has come to has been made from the sources that it has run, which had
only so many lines. -/
theorem Session.Reachable.varies (reachable : Reachable sink clock session) :
    ∃ bound, Varies (Taken session.nextId) (session.SeenAbove sink clock bound) session session := by
  induction reachable with
  | start =>
      refine ⟨0, Machine.start_varies _ sink clock, ?_, fun id id' related => ⟨related.2, ?_⟩⟩
      · rintro id other id' other' ⟨_, nothing⟩
        cases nothing
      · exact related.1 ▸ related.2
  | run reachable fuel source induction =>
      rcases induction with ⟨bound, varies⟩
      rcases varies.step reachable fuel source with ⟨later, _, _, after⟩
      exact ⟨later, after⟩

end

end Lox
