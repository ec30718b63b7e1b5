import Lox.Proofs.Lexical.Interpreter
import Lox.Proofs.Scope.Resolution
/-! Frames and chains side by side. A frame holds all names of a block, also those
declared later; a chain ends where the code that uses it was declared. The layout says
for every cell which name of which frame it stands for, and a chain fits a frame when
its cells stand for the names that the scopes around the code declare. -/

namespace Lox.Forest

variable {α : Type}

theorem enclosing?_addChild_of_lt (forest : Forest α) (outer : FrameId) {frame : FrameId}
    (present : frame < forest.size) :
    (forest.addChild outer).enclosing? frame = forest.enclosing? frame := by
  rw [enclosing?, addChild, frame?_add_of_lt forest _ present, enclosing?]

theorem enclosing?_addChild_size (forest : Forest α) (outer : FrameId) :
    (forest.addChild outer).enclosing? forest.size = some outer := by
  rw [enclosing?, addChild, frame?_add_size]
  rfl

theorem frame?_of_le (forest : Forest α) {frame : FrameId} (absent : forest.size ≤ frame) :
    forest.frame? frame = none := by
  simpa [frame?, size] using absent

theorem lt_size_of_enclosing? {forest : Forest α} {frame outer : FrameId}
    (found : forest.enclosing? frame = some outer) : frame < forest.size := by
  rcases Nat.lt_or_ge frame forest.size with present | absent
  · exact present
  · rw [enclosing?, frame?_of_le forest absent] at found
    cases found

theorem lt_size_of_own? {forest : Forest α} {frame : FrameId} {name : String}
    (found : (forest.own? frame name).isSome) : frame < forest.size := by
  rcases Nat.lt_or_ge frame forest.size with present | absent
  · exact present
  · rw [own?, frame?_of_le forest absent] at found
    cases found

/-- The next frame is there once it has been added. -/
theorem size_lt_addChild (forest : Forest α) (outer : FrameId) :
    forest.size < (forest.addChild outer).size := by
  rw [addChild, size_add]
  exact Nat.lt_succ_self _

/-- A new frame binds nothing. -/
theorem own?_addChild (forest : Forest α) (outer frame : FrameId) (name : String) :
    (forest.addChild outer).own? frame name = forest.own? frame name := by
  rcases Nat.lt_trichotomy frame forest.size with old | rfl | beyond
  · rw [own?, addChild, frame?_add_of_lt forest _ old, own?]
  · rw [own?, addChild, frame?_add_size, own?, frame?_of_le forest (Nat.le_refl _)]
    rfl
  · rw [own?, own?, frame?_of_le forest (Nat.le_of_lt beyond), addChild, frame?_of_le]
    rw [size_add]
    exact beyond

theorem own?_define (forest : Forest α) {frame : FrameId} (present : frame < forest.size)
    (name : String) (value : α) (other : FrameId) (query : String) :
    (forest.define frame name value).own? other query =
      if other = frame ∧ query = name then some value else forest.own? other query := by
  split
  · rename_i equal
    rcases equal with ⟨rfl, rfl⟩
    exact own?_define_same forest present query value
  · rename_i different
    exact own?_define_other forest frame other name value query
      (Decidable.not_and_iff_not_or_not.mp different)

/-- In a forest without links out of a frame, a name means this very frame. -/
theorem place_root {forest : Forest α} {frame : FrameId} (root : forest.enclosing? frame = none)
    (name : String) : forest.place frame name =
      if (forest.own? frame name).isSome then .ok frame else .error (.undefinedVariable name) := by
  rw [place, holder?]
  by_cases bound : (forest.own? frame name).isSome
  · simp [bound]
  · simp [bound, root]

theorem place_own {forest : Forest α} {frame : FrameId} {name : String}
    (bound : (forest.own? frame name).isSome) : forest.place frame name = .ok frame := by
  rw [place, holder?, if_pos bound]

end Lox.Forest

namespace Lox.Lexical

open Scope

/-! ## Fitting -/

/-- Which name of which frame a cell stands for, by its location. -/
abbrev Layout := List (FrameId × String)

/-- The chain of the environment fits the frame, as far as the scopes go: each scope has a
frame of its own, and the cells of the scope stand for the names that it declares. -/
inductive Fits (forest : Forest Value) (globals : FrameId) (layout : Layout) :
    FrameId → List Scope → Environment → Prop
  | outermost : Fits forest globals layout globals [] .outermost
  | inside {frame outer : FrameId} {scope : Scope} {scopes : List Scope}
      {environment : Environment} {own : List Cell} :
      forest.enclosing? frame = some outer →
      Fits forest globals layout outer scopes environment →
      (∀ cell ∈ own, layout[cell.location]? = some (frame, cell.name)) →
      (∀ name, (scope.find? name).isSome ↔ ∃ cell ∈ own, cell.name = name) →
      (∀ name, scope.find? name = some .ready → (forest.own? frame name).isSome) →
      Fits forest globals layout frame (scope :: scopes) (.inside (own ++ environment.chain))

theorem getElem?_of_prefix {α : Type} {before after : List α} (grown : before <+: after) {index : Nat}
    {value : α} (found : before[index]? = some value) : after[index]? = some value := by
  rcases grown with ⟨rest, rfl⟩
  rw [List.getElem?_append_left (List.getElem?_eq_some_iff.mp found).1]
  exact found

namespace Fits

variable {forest : Forest Value} {globals : FrameId} {layout : Layout} {frame : FrameId}
  {scopes : List Scope} {environment : Environment}

theorem of_nil (fits : Fits forest globals layout frame [] environment) :
    frame = globals ∧ environment = .outermost := by
  cases fits
  exact ⟨rfl, rfl⟩

/-- What it takes to fit the innermost of some scopes. -/
theorem innermost {scope : Scope}
    (fits : Fits forest globals layout frame (scope :: scopes) environment) :
    ∃ outer inner own, environment = .inside (own ++ inner.chain) ∧
      forest.enclosing? frame = some outer ∧ Fits forest globals layout outer scopes inner ∧
      (∀ cell ∈ own, layout[cell.location]? = some (frame, cell.name)) ∧
      (∀ name, (scope.find? name).isSome ↔ ∃ cell ∈ own, cell.name = name) ∧
      ∀ name, scope.find? name = some .ready → (forest.own? frame name).isSome := by
  cases fits with
  | inside linked outerFits cells names ready =>
      exact ⟨_, _, _, rfl, linked, outerFits, cells, names, ready⟩

/-- Links stay, what is bound stays bound, and locations keep their meaning. -/
theorem mono (fits : Fits forest globals layout frame scopes environment)
    {forest' : Forest Value} {layout' : Layout}
    (links : ∀ frame outer, forest.enclosing? frame = some outer →
      forest'.enclosing? frame = some outer)
    (bound : ∀ frame name, (forest.own? frame name).isSome → (forest'.own? frame name).isSome)
    (grown : layout <+: layout') : Fits forest' globals layout' frame scopes environment := by
  induction fits with
  | outermost => exact .outermost
  | inside linked _ own names ready induction =>
      refine .inside (links _ _ linked) induction ?_ names ?_
      · intro cell member
        exact getElem?_of_prefix grown (own cell member)
      · intro name found
        exact bound _ _ (ready name found)

theorem absent (fits : Fits forest globals layout frame scopes environment) {name : String}
    (unknown : locate? scopes name = none) : environment.location? name = none := by
  induction fits with
  | outermost => rfl
  | @inside frame outer scope scopes environment own _ _ _ names _ induction =>
      rw [locate?] at unknown
      split at unknown
      · cases unknown
      · rename_i free
        have rest := induction (Option.map_eq_none_iff.mp unknown)
        have others : own.find? (·.name == name) = none := by
          rw [List.find?_eq_none]
          intro cell member same
          have declared := (names name).mpr ⟨cell, member, by simpa using same⟩
          rw [free] at declared
          cases declared
        simp only [Environment.location?, Environment.chain, List.find?_append, others,
          Option.none_or] at rest ⊢
        exact rest

/-- A declared name is found at its distance and in its cell. -/
theorem present (fits : Fits forest globals layout frame scopes environment) {name : String}
    {distance : Nat} {state : NameState} (known : locate? scopes name = some (distance, state)) :
    ∃ target location, forest.ancestor? frame distance = some target ∧
      environment.location? name = some location ∧ layout[location]? = some (target, name) ∧
      (state = .ready → (forest.own? target name).isSome) := by
  induction fits generalizing distance with
  | outermost => cases known
  | @inside frame outer scope scopes environment own linked _ cells names ready induction =>
      rw [locate?] at known
      split at known
      · rename_i own' declared
        cases known
        have found := (names name).mp (by rw [declared]; rfl)
        rcases found with ⟨cell, member, same⟩
        have first : (own.find? (·.name == name)).isSome := by
          rw [List.find?_isSome]
          exact ⟨cell, member, by simpa using same⟩
        rcases Option.isSome_iff_exists.mp first with ⟨first, found⟩
        have named : first.name = name := by simpa using List.find?_some found
        have located := cells first (List.mem_of_find?_eq_some found)
        rw [named] at located
        refine ⟨frame, first.location, rfl, ?_, located, ?_⟩
        · simp [Environment.location?, Environment.chain, List.find?_append, found]
        · rintro rfl
          exact ready name declared
      · rename_i free
        rcases Option.map_eq_some_iff.mp known with ⟨⟨away, other⟩, further, equal⟩
        cases equal
        rcases induction further with ⟨target, location, reached, found, located, bound⟩
        refine ⟨target, location, ?_, ?_, located, bound⟩
        · rw [Forest.ancestor?, linked]
          exact reached
        · have others : own.find? (·.name == name) = none := by
            rw [List.find?_eq_none]
            intro cell member same
            have declared := (names name).mpr ⟨cell, member, by simpa using same⟩
            rw [free] at declared
            cases declared
          simp only [Environment.location?, Environment.chain, List.find?_append, others,
            Option.none_or] at found ⊢
          exact found

end Fits

end Lox.Lexical
