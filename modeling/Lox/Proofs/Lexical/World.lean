import Lox.Proofs.Alike
import Lox.Proofs.Lexical.Fitting
/-! Two machines that run the same program, one with frames and distances and one with
chains. What relates them is kept by every step. -/

namespace Lox.Lexical

open Scope

/-! ## Worlds -/

structure World where
  layout : Layout
  framed : Lox.Machine
  chained : Machine

namespace World

abbrev forest (world : World) : Forest Value :=
  world.framed.forest

/-- The chain of the environment fits the frame in this world. -/
abbrev Fits (world : World) (frame : FrameId) (scopes : List Scope) (environment : Environment) :
    Prop :=
  Lexical.Fits world.forest world.framed.globals world.layout frame scopes environment

/-- What a step leaves as it is. New cells stand for names of new frames, or else of those
frames that the step may extend. -/
structure Later (extends? : FrameId → Prop) (before after : World) : Prop where
  current : after.framed.current = before.framed.current
  globals : after.framed.globals = before.framed.globals
  distances : after.framed.distances = before.framed.distances
  size : before.forest.size ≤ after.forest.size
  links : ∀ frame outer, before.forest.enclosing? frame = some outer →
    after.forest.enclosing? frame = some outer
  bound : ∀ frame name, (before.forest.own? frame name).isSome →
    (after.forest.own? frame name).isSome
  layout : before.layout <+: after.layout
  fresh : ∀ (index : Nat) frame name, before.layout.length ≤ index →
    after.layout[index]? = some (frame, name) → before.forest.size ≤ frame ∨ extends? frame

/-- No old frame is extended. -/
abbrev Nothing : FrameId → Prop :=
  fun _ => False

namespace Later

variable {extends? : FrameId → Prop} {before middle after : World}

theorem refl (world : World) : Later extends? world world := by
  refine ⟨rfl, rfl, rfl, Nat.le_refl _, fun _ _ => id, fun _ _ => id, List.prefix_rfl, ?_⟩
  intro index frame name beyond found
  rw [List.getElem?_eq_none beyond] at found
  cases found

theorem trans (first : Later extends? before middle) (second : Later extends? middle after) :
    Later extends? before after := by
  refine ⟨second.current.trans first.current, second.globals.trans first.globals,
    second.distances.trans first.distances, Nat.le_trans first.size second.size, ?_, ?_,
    first.layout.trans second.layout, ?_⟩
  · intro frame outer linked
    exact second.links _ _ (first.links _ _ linked)
  · intro frame name bound
    exact second.bound _ _ (first.bound _ _ bound)
  · intro index frame name beyond found
    rcases Nat.lt_or_ge index middle.layout.length with inside | outside
    · have known : middle.layout[index]? = some (frame, name) := by
        have same := getElem?_of_prefix second.layout (List.getElem?_eq_getElem inside)
        rw [List.getElem?_eq_getElem inside]
        exact same.symm.trans found
      exact first.fresh index frame name beyond known
    · rcases second.fresh index frame name outside found with new | own
      · exact .inl (Nat.le_trans first.size new)
      · exact .inr own

theorem weaken {other : FrameId → Prop} (later : Later extends? before after)
    (contained : ∀ frame, extends? frame → before.forest.size ≤ frame ∨ other frame) :
    Later other before after := by
  refine { later with fresh := ?_ }
  intro index frame name beyond found
  rcases later.fresh index frame name beyond found with new | own
  · exact .inl new
  · exact contained frame own

theorem fits (later : Later extends? before after) {frame : FrameId} {scopes : List Scope}
    {environment : Environment} (fits : before.Fits frame scopes environment) :
    after.Fits frame scopes environment := by
  rw [Fits, later.globals]
  exact fits.mono later.links later.bound later.layout

end Later

/-! ## Sound worlds -/

section

variable (recorded : OccurrenceId → Option Nat → Prop)

/-- The same function, with the chain and the frame of its declaration. -/
structure FunctionsAlike (world : World) (framed : Closure FrameId) (chained : Closure Environment) :
    Prop where
  routine : chained.routine = framed.routine
  isInitializer : chained.isInitializer = framed.isInitializer
  place : ∃ scopes, world.Fits framed.place scopes chained.place ∧
    framed.routine.Scoped recorded scopes ∧
    (framed.isInitializer = true → ∃ outer, scopes = receiver :: outer)

/-- The same method, which is yet to be bound to a receiver. -/
structure MethodsAlike (world : World) (framed : Closure FrameId) (chained : Closure Environment) :
    Prop where
  routine : chained.routine = framed.routine
  isInitializer : chained.isInitializer = framed.isInitializer
  place : ∃ scopes, world.Fits framed.place scopes chained.place ∧
    framed.routine.Scoped recorded (receiver :: scopes)

structure ClassesAlike (world : World) (framed : ClassInfo FrameId)
    (chained : ClassInfo Environment) : Prop where
  name : chained.name = framed.name
  superclass : chained.superclass = framed.superclass
  methods : TablesAlike (MethodsAlike recorded world) framed.methods chained.methods

/-- Cells have the contents of what they stand for, and each local name of a frame has a
cell once it is bound. -/
structure CellsAlike (world : World) : Prop where
  length : world.layout.length = world.chained.cells.size
  nodup : world.layout.Nodup
  contents : ∀ (location : Nat) frame name, world.layout[location]? = some (frame, name) →
    frame < world.forest.size ∧ frame ≠ world.framed.globals ∧
      world.chained.cells[location]? = some (world.forest.own? frame name)
  covered : ∀ frame name, frame ≠ world.framed.globals →
    (world.forest.own? frame name).isSome → (frame, name) ∈ world.layout
  root : world.forest.enclosing? world.framed.globals = none
  present : world.framed.globals < world.forest.size
  globals : ∀ name, world.forest.own? world.framed.globals name = world.chained.globals.find? name

structure HeapsAlike (world : World) : Prop where
  functions : ArraysAlike (FunctionsAlike recorded world) world.framed.functions
    world.chained.functions
  classes : ArraysAlike (ClassesAlike recorded world) world.framed.classes world.chained.classes
  objects : world.chained.objects = world.framed.objects

/-- Names that only classes declare have values of the right sort. -/
def Sorted (name : String) (value : Value) : Prop :=
  (name = thisName → ∃ id, value = .object id) ∧ (name = superName → ∃ id, value = .classRef id)

/-- What relates the two machines between any two steps. -/
structure Sound (world : World) : Prop where
  distances : ∀ id distance?, recorded id distance? →
    world.framed.distances.find? id = distance?
  cells : CellsAlike world
  heaps : HeapsAlike recorded world
  sorted : ∀ frame name value, world.forest.own? frame name = some value → Sorted name value
  sink : world.chained.sink = world.framed.sink
  clock : world.chained.clock = world.framed.clock
  ticks : world.chained.ticks = world.framed.ticks

variable {recorded} {extends? : FrameId → Prop} {before after : World}

theorem FunctionsAlike.mono {framed : Closure FrameId} {chained : Closure Environment}
    (alike : FunctionsAlike recorded before framed chained)
    (kept : ∀ frame scopes environment, before.Fits frame scopes environment →
      after.Fits frame scopes environment) : FunctionsAlike recorded after framed chained := by
  rcases alike.place with ⟨scopes, fits, holds⟩
  exact ⟨alike.routine, alike.isInitializer, scopes, kept _ _ _ fits, holds⟩

theorem MethodsAlike.mono {framed : Closure FrameId} {chained : Closure Environment}
    (alike : MethodsAlike recorded before framed chained)
    (kept : ∀ frame scopes environment, before.Fits frame scopes environment →
      after.Fits frame scopes environment) : MethodsAlike recorded after framed chained := by
  rcases alike.place with ⟨scopes, fits, holds⟩
  exact ⟨alike.routine, alike.isInitializer, scopes, kept _ _ _ fits, holds⟩

theorem ClassesAlike.mono {framed : ClassInfo FrameId} {chained : ClassInfo Environment}
    (alike : ClassesAlike recorded before framed chained)
    (kept : ∀ frame scopes environment, before.Fits frame scopes environment →
      after.Fits frame scopes environment) : ClassesAlike recorded after framed chained :=
  ⟨alike.name, alike.superclass, alike.methods.mono fun _ _ same => same.mono kept⟩

/-- Steps that do not touch what has been made. -/
theorem HeapsAlike.mono (alike : HeapsAlike recorded before)
    (kept : ∀ frame scopes environment, before.Fits frame scopes environment →
      after.Fits frame scopes environment)
    (framed : after.framed.toHeap = before.framed.toHeap)
    (chained : after.chained.toHeap = before.chained.toHeap) : HeapsAlike recorded after := by
  refine ⟨?_, ?_, ?_⟩
  · rw [framed, chained]
    exact alike.functions.mono fun _ _ same => same.mono kept
  · rw [framed, chained]
    exact alike.classes.mono fun _ _ same => same.mono kept
  · rw [framed, chained]
    exact alike.objects

theorem HeapsAlike.later (alike : HeapsAlike recorded before) (later : Later extends? before after)
    (framed : after.framed.toHeap = before.framed.toHeap)
    (chained : after.chained.toHeap = before.chained.toHeap) : HeapsAlike recorded after :=
  alike.mono (fun _ _ _ => later.fits) framed chained

end

/-! ## Writing -/

section

variable {recorded : OccurrenceId → Option Nat → Prop} {world : World}

/-- Writing to a name of a frame changes no link, and unbinds nothing. -/
theorem later_define {frame : FrameId} {name : String} {value : Value} {chained : Machine} :
    Later Nothing world ⟨world.layout, world.framed.define frame name value, chained⟩ := by
  refine ⟨rfl, rfl, rfl, Nat.le_of_eq (Forest.size_define _ _ _ _).symm, ?_, ?_, List.prefix_rfl, ?_⟩
  · intro other outer linked
    exact (Forest.enclosing?_define _ _ _ _ _).trans linked
  · intro other query bound
    have present := Forest.lt_size_of_own? bound
    show (Forest.own? (Forest.define _ _ _ _) other query).isSome
    by_cases same : other = frame ∧ query = name
    · rw [same.1] at present ⊢
      rw [Forest.own?_define _ present, if_pos ⟨rfl, same.2⟩]
      rfl
    · rw [Forest.own?_define_other _ _ _ _ _ _ (Decidable.not_and_iff_not_or_not.mp same)]
      exact bound
  · intro index other query beyond found
    rw [List.getElem?_eq_none beyond] at found
    cases found

theorem Sound.sorted_define (sound : Sound recorded world) {frame : FrameId} {name : String}
    {value : Value} (sort : Sorted name value) (present : frame < world.forest.size) :
    ∀ other query found, (world.forest.define frame name value).own? other query = some found →
      Sorted query found := by
  intro other query found bound
  rw [Forest.own?_define _ present] at bound
  split at bound
  · rename_i same
    cases bound
    rw [same.2]
    exact sort
  · exact sound.sorted other query found bound

/-- Write to a name that a cell stands for. -/
theorem Sound.write (sound : Sound recorded world) {location : Nat} {frame : FrameId}
    {name : String} {value : Value} (located : world.layout[location]? = some (frame, name))
    (sort : Sorted name value) :
    Sound recorded ⟨world.layout, world.framed.define frame name value,
      { world.chained with cells := world.chained.cells.setIfInBounds location (some value) }⟩ := by
  rcases sound.cells.contents location frame name located with ⟨present, local', content⟩
  refine ⟨sound.distances, ?_, sound.heaps.later later_define rfl rfl,
    sound.sorted_define sort present, sound.sink, sound.clock, sound.ticks⟩
  have changed := Forest.own?_define world.forest present name value
  refine ⟨?_, sound.cells.nodup, ?_, ?_, ?_, ?_, ?_⟩
  · exact sound.cells.length.trans (Array.size_setIfInBounds).symm
  · intro index other query found
    rcases sound.cells.contents index other query found with ⟨inside, inner, same⟩
    refine ⟨by rw [forest, Lox.Machine.define, Forest.size_define]; exact inside, inner, ?_⟩
    show (world.chained.cells.setIfInBounds location (some value))[index]? = some
      ((world.forest.define frame name value).own? other query)
    rw [changed, Array.getElem?_setIfInBounds]
    by_cases equal : location = index
    · subst equal
      rw [located] at found
      cases found
      have bounded := (Array.getElem?_eq_some_iff.mp content).1
      simp [bounded]
    · have different : ¬ (other = frame ∧ query = name) := by
        rintro ⟨rfl, rfl⟩
        have lengths := (List.getElem?_eq_some_iff.mp located).1
        exact equal ((List.getElem?_inj lengths sound.cells.nodup).mp (located.trans found.symm))
      rw [if_neg equal, if_neg different]
      exact same
  · intro other query inner bound
    by_cases same : other = frame ∧ query = name
    · rw [same.1, same.2]
      exact List.mem_of_getElem? located
    · refine sound.cells.covered other query inner ?_
      have kept := changed other query
      rw [if_neg same] at kept
      rw [← kept]
      exact bound
  · exact (Forest.enclosing?_define _ _ _ _ _).trans sound.cells.root
  · rw [forest, Lox.Machine.define, Forest.size_define]
    exact sound.cells.present
  · intro query
    have kept := changed world.framed.globals query
    rw [if_neg fun same => local' same.1.symm] at kept
    exact kept.trans (sound.cells.globals query)

/-- Write to a global. -/
theorem Sound.writeGlobal (sound : Sound recorded world) {name : String} {value : Value}
    (sort : Sorted name value) :
    Sound recorded ⟨world.layout, world.framed.define world.framed.globals name value,
      { world.chained with globals := world.chained.globals.set name value }⟩ := by
  have present := sound.cells.present
  refine ⟨sound.distances, ?_, sound.heaps.later later_define rfl rfl,
    sound.sorted_define sort present, sound.sink, sound.clock, sound.ticks⟩
  have changed := Forest.own?_define world.forest present name value
  refine ⟨sound.cells.length, sound.cells.nodup, ?_, ?_, ?_, ?_, ?_⟩
  · intro index other query found
    rcases sound.cells.contents index other query found with ⟨inside, inner, same⟩
    refine ⟨by rw [forest, Lox.Machine.define, Forest.size_define]; exact inside, inner, ?_⟩
    have kept := changed other query
    rw [if_neg fun equal => inner equal.1] at kept
    exact same.trans (congrArg some kept.symm)
  · intro other query inner bound
    have kept := changed other query
    rw [if_neg fun equal => inner equal.1] at kept
    refine sound.cells.covered other query inner ?_
    rw [← kept]
    exact bound
  · exact (Forest.enclosing?_define _ _ _ _ _).trans sound.cells.root
  · rw [forest, Lox.Machine.define, Forest.size_define]
    exact present
  · intro query
    show (world.forest.define _ _ _).own? world.framed.globals query =
      (world.chained.globals.set name value).find? query
    rw [changed, Table.find?_set, sound.cells.globals]
    simp

end

/-! ## Where code stands -/

/-- Code stands in this frame with this environment: the chain fits the frame, and only
names of the innermost scope have cells that stand for names of the frame. -/
structure Stands (world : World) (frame : FrameId) (scopes : List Scope)
    (environment : Environment) : Prop where
  fits : world.Fits frame scopes environment
  tight : ∀ (location : Nat) name, world.layout[location]? = some (frame, name) →
    ∃ scope ∈ scopes.head?, (scope.find? name).isSome

section

variable {recorded : OccurrenceId → Option Nat → Prop} {world : World} {frame : FrameId}
  {scopes : List Scope} {environment : Environment}

theorem Sound.lt_size (sound : Sound recorded world) (fits : world.Fits frame scopes environment) :
    frame < world.forest.size := by
  cases fits with
  | outermost => exact sound.cells.present
  | inside linked => exact Forest.lt_size_of_enclosing? linked

/-- Steps that extend other frames only. -/
theorem Stands.later {extends? : FrameId → Prop} {after : World}
    (stands : world.Stands frame scopes environment) (sound : Sound recorded world)
    (later : Later extends? world after) (other : ¬ extends? frame) :
    after.Stands frame scopes environment := by
  refine ⟨later.fits stands.fits, ?_⟩
  intro location name found
  rcases Nat.lt_or_ge location world.layout.length with inside | outside
  · have known := getElem?_of_prefix later.layout (List.getElem?_eq_getElem inside)
    rw [known] at found
    exact stands.tight location name ((List.getElem?_eq_getElem inside).trans found)
  · have present := sound.lt_size stands.fits
    rcases later.fresh location frame name outside found with new | own
    · exact absurd present (Nat.not_lt.mpr new)
    · exact absurd own other

/-! ### A new frame -/

def addFrame (world : World) (outer : FrameId) : World :=
  { world with framed := world.framed.addFrame outer }

theorem later_addFrame {extends? : FrameId → Prop} (outer : FrameId) :
    Later extends? world (world.addFrame outer) := by
  refine ⟨rfl, rfl, rfl, ?_, ?_, ?_, List.prefix_rfl, ?_⟩
  · exact Nat.le_trans (Nat.le_succ _) (Nat.le_of_eq (Forest.size_add _ _).symm)
  · intro other further linked
    exact (Forest.enclosing?_addChild_of_lt _ _ (Forest.lt_size_of_enclosing? linked)).trans linked
  · intro other name bound
    show ((world.forest.addChild outer).own? other name).isSome
    rw [Forest.own?_addChild]
    exact bound
  · intro index other name beyond found
    have absent : world.layout[index]? = none := List.getElem?_eq_none beyond
    cases absent.symm.trans found

theorem Sound.addFrame (sound : Sound recorded world) (outer : FrameId) :
    Sound recorded (world.addFrame outer) := by
  have kept := Forest.own?_addChild world.forest outer
  have grown : (world.addFrame outer).forest.size = world.forest.size + 1 := Forest.size_add _ _
  refine ⟨sound.distances, ?_, sound.heaps.later (later_addFrame outer : Later Nothing _ _) rfl rfl, ?_,
    sound.sink, sound.clock, sound.ticks⟩
  · refine ⟨sound.cells.length, sound.cells.nodup, ?_, ?_, ?_, ?_, ?_⟩
    · intro location other name found
      rcases sound.cells.contents location other name found with ⟨inside, inner, same⟩
      refine ⟨by rw [grown]; exact Nat.lt_succ_of_lt inside, inner, ?_⟩
      exact same.trans (congrArg some (kept other name).symm)
    · intro other name inner bound
      refine sound.cells.covered other name inner ?_
      rw [← kept]
      exact bound
    · exact (Forest.enclosing?_addChild_of_lt _ _ sound.cells.present).trans sound.cells.root
    · rw [grown]
      exact Nat.lt_succ_of_lt sound.cells.present
    · intro name
      exact (kept _ name).trans (sound.cells.globals name)
  · intro other name value bound
    refine sound.sorted other name value ?_
    rw [← kept]
    exact bound

/-- Code at the start of a block or a body. -/
theorem stands_addFrame (sound : Sound recorded world)
    (fits : world.Fits frame scopes environment) :
    (world.addFrame frame).Stands world.forest.size (∅ :: scopes) environment.enter := by
  constructor
  · have entered := @Fits.inside (world.addFrame frame).forest world.framed.globals world.layout
      world.forest.size frame ∅ scopes environment []
      (Forest.enclosing?_addChild_size world.forest frame)
      ((later_addFrame frame : Later Nothing _ _).fits fits)
    exact entered nofun (fun _ => ⟨nofun, fun ⟨_, member, _⟩ => nomatch member⟩) nofun
  · intro location name found
    have present := (sound.cells.contents location _ name found).1
    exact absurd present (Nat.lt_irrefl _)

/-! ### A new cell -/

def addCell (world : World) (frame : FrameId) (name : String) : World :=
  { world with layout := world.layout ++ [(frame, name)], chained := world.chained.addCell }

theorem later_addCell (frame : FrameId) (name : String) :
    Later (· = frame) world (world.addCell frame name) := by
  refine ⟨rfl, rfl, rfl, Nat.le_refl _, fun _ _ => id, fun _ _ => id, List.prefix_append _ _, ?_⟩
  intro index other query beyond found
  right
  have member := List.mem_of_getElem? found
  rw [addCell] at found
  rw [List.getElem?_append_right beyond] at found
  cases List.mem_singleton.mp (List.mem_of_getElem? found)
  rfl

theorem Sound.addCell (sound : Sound recorded world) {name : String}
    (present : frame < world.forest.size) (inner : frame ≠ world.framed.globals)
    (new : (frame, name) ∉ world.layout) : Sound recorded (world.addCell frame name) := by
  have unbound : world.forest.own? frame name = none := by
    rw [← Option.not_isSome_iff_eq_none]
    exact fun bound => new (sound.cells.covered frame name inner bound)
  refine ⟨sound.distances, ?_, sound.heaps.later (later_addCell frame name) rfl rfl, sound.sorted,
    sound.sink, sound.clock, sound.ticks⟩
  have length := sound.cells.length
  refine ⟨?_, ?_, ?_, ?_, sound.cells.root, sound.cells.present, sound.cells.globals⟩
  · show (world.layout ++ [(frame, name)]).length = (world.chained.cells.push none).size
    rw [List.length_append, Array.size_push, length]
    rfl
  · refine List.nodup_append.mpr ⟨sound.cells.nodup, by simp, ?_⟩
    rintro entry old other member rfl
    cases List.mem_singleton.mp member
    exact new old
  · intro location other query found
    show _ ∧ _ ∧ (world.chained.cells.push none)[location]? = some (world.forest.own? other query)
    rw [Array.getElem?_push, ← length]
    rcases Nat.lt_trichotomy location world.layout.length with old | rfl | beyond
    · have known : world.layout[location]? = some (other, query) := by
        rw [← List.getElem?_append_left old]
        exact found
      rw [if_neg (Nat.ne_of_lt old)]
      exact sound.cells.contents location other query known
    · have last : (world.layout ++ [(frame, name)])[world.layout.length]? = some (other, query) :=
        found
      rw [List.getElem?_append_right (Nat.le_refl _), Nat.sub_self] at last
      cases last
      rw [if_pos rfl, unbound]
      exact ⟨present, inner, rfl⟩
    · have absent : (world.layout ++ [(frame, name)])[location]? = none := by
        rw [List.getElem?_eq_none]
        rw [List.length_append, List.length_singleton]
        exact beyond
      cases absent.symm.trans found
  · intro other query outside bound
    exact List.mem_append_left _ (sound.cells.covered other query outside bound)

/-- A declaration puts a cell in front of the chain, unless it is global. -/
theorem Stands.declare (stands : world.Stands frame scopes environment)
    (sound : Sound recorded world) {name : String} (free : Free scopes name) :
    ∃ environment' after, after.framed = world.framed ∧
      declare environment name world.chained = .ok environment' after.chained ∧
      Later (· = frame) world after ∧ Sound recorded after ∧
      after.Stands frame (bindIn scopes name .declared) environment' := by
  have present := sound.lt_size stands.fits
  have fits := stands.fits
  cases fits with
  | outermost => exact ⟨.outermost, world, rfl, rfl, .refl world, sound, stands⟩
  | @inside _ outer scope scopes environment own linked outerFits cells names ready =>
      have inner : frame ≠ world.framed.globals := by
        rintro rfl
        cases linked.symm.trans sound.cells.root
      have unscoped : scope.find? name = none := free scope rfl
      have new : (frame, name) ∉ world.layout := by
        intro member
        rcases List.getElem?_of_mem member with ⟨location, found⟩
        rcases stands.tight location name found with ⟨_, ⟨⟩, declared⟩
        rw [unscoped] at declared
        cases declared
      have later : Later (· = frame) world (world.addCell frame name) := later_addCell frame name
      refine ⟨_, world.addCell frame name, rfl, rfl, later, sound.addCell present inner new, ?_⟩
      have location : (world.addCell frame name).layout[world.chained.cells.size]? =
          some (frame, name) := by
        show (world.layout ++ [(frame, name)])[_]? = _
        rw [← sound.cells.length, List.getElem?_append_right (Nat.le_refl _), Nat.sub_self]
        rfl
      constructor
      · refine @Fits.inside _ _ _ _ _ _ _ _ (⟨name, world.chained.cells.size⟩ :: own)
          (later.links _ _ linked) (later.fits outerFits) ?_ ?_ ?_
        · intro cell member
          cases member with
          | head => exact location
          | tail _ member => exact getElem?_of_prefix later.layout (cells cell member)
        · intro query
          rw [Table.find?_set]
          by_cases same : query = name
          · simp [same]
          · rw [if_neg same, names]
            simp [Ne.symm same]
        · intro query declared
          rw [Table.find?_set] at declared
          split at declared
          · cases declared
          · exact ready query declared
      · intro index query found
        refine ⟨_, rfl, ?_⟩
        rw [Table.find?_set]
        split
        · rfl
        · rename_i different
          have known : (frame, query) ∈ world.layout := by
            have member := List.mem_of_getElem? found
            rcases List.mem_append.mp member with old | last
            · exact old
            · cases List.mem_singleton.mp last
              exact absurd rfl different
          rcases List.getElem?_of_mem known with ⟨location, found⟩
          rcases stands.tight location query found with ⟨_, ⟨⟩, declared⟩
          exact declared

/-- A declared name gets its value. -/
theorem Stands.define {name : String} {state : NameState}
    (stands : world.Stands frame (bindIn scopes name state) environment)
    (sound : Sound recorded world) {value : Value} (sort : Sorted name value) :
    ∃ after, after.framed = world.framed.define frame name value ∧
      after.chained = world.chained.set environment name value ∧
      Later Nothing world after ∧ Sound recorded after ∧
      after.Stands frame (bindIn scopes name .ready) environment := by
  cases scopes with
  | nil =>
      have fits := stands.fits
      cases fits
      exact ⟨⟨world.layout, _, _⟩, rfl, rfl, later_define, sound.writeGlobal sort,
        stands.later sound later_define id⟩
  | cons scope outer =>
      rcases stands.fits.present (locate?_bindIn_same name state) with
        ⟨target, location, ⟨⟩, found, located, _⟩
      have later : Later Nothing world ⟨world.layout, world.framed.define frame name value,
        { world.chained with cells := world.chained.cells.setIfInBounds location (some value) }⟩ :=
        later_define
      have present := sound.lt_size stands.fits
      refine ⟨_, rfl, ?_, later, sound.write located sort, ?_⟩
      · rw [Machine.set, found]
      · have moved := stands.later sound later id
        refine ⟨?_, ?_⟩
        · rcases moved.fits.innermost with
            ⟨_, _, _, rfl, linked, outerFits, cells, names, ready⟩
          refine .inside linked outerFits cells ?_ ?_
          · intro query
            rw [← names query, Table.find?_set, Table.find?_set]
            split <;> rfl
          · intro query declared
            by_cases same : query = name
            · subst same
              show ((world.forest.define frame query value).own? frame query).isSome
              rw [Forest.own?_define_same _ present]
              rfl
            · rw [Table.find?_set_other _ same] at declared
              refine ready query ?_
              rw [Table.find?_set_other _ same]
              exact declared
        · intro index query known
          rcases moved.tight index query known with ⟨_, ⟨⟩, declared⟩
          refine ⟨_, rfl, ?_⟩
          rw [Table.find?_set] at declared ⊢
          split at declared
          · rename_i same
            rw [if_pos same]
            rfl
          · rename_i different
            rw [if_neg different]
            exact declared

end

end World

end Lox.Lexical
