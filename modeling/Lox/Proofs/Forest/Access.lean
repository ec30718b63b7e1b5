import Lox.Proofs.History.Standing
/-! Access by name and access by distance. In a forest that has been grown and written to, each
frame lies inside an older one, so that every way outwards ends. A name means the nearest frame
that binds it; reading and writing by name is then reading and writing at the distance of that
frame. -/

namespace Lox.Forest

variable {α : Type}

/-- Forests are made by adding frames and by writing to frames that are there. A write that fails
makes no other forest. -/
inductive Built : Forest α → Prop
  | empty : Built empty
  | addRoot {forest} : Built forest → Built forest.addRoot
  | addChild {forest outer} : Built forest → outer < forest.size → Built (forest.addChild outer)
  | define {forest frame} (name value) : Built forest → frame < forest.size →
      Built (forest.define frame name value)
  | assign {forest frame name value after} : Built forest → frame < forest.size →
      forest.assign frame name value = .ok after → Built after
  | assignAt {forest frame distance name value after} : Built forest → frame < forest.size →
      forest.assignAt frame distance name value = .ok after → Built after

/-- The frame this many links further out binds the name, and none of those before it does. -/
structure Nearest (forest : Forest α) (frame : FrameId) (name : String) (distance : Nat)
    (holder : FrameId) : Prop where
  reached : forest.ancestor? frame distance = some holder
  bound : (forest.own? holder name).isSome
  first : ∀ closer < distance, ∀ other, forest.ancestor? frame closer = some other →
    forest.own? other name = none

/-! ## Chains -/

section

variable {forest after : Forest α} {frame outer holder : FrameId} {name : String} {distance : Nat}
  {value : α}

/-- What writing changes, whether by name or by distance, is one binding. -/
theorem exists_define_of_assign
    (assigned : forest.assign frame name value = .ok after) :
    ∃ target, forest.place frame name = .ok target ∧ after = forest.define target name value := by
  rw [assign] at assigned
  cases placed : forest.place frame name with
  | error problem =>
      rw [placed] at assigned
      cases assigned
  | ok target =>
      rw [placed] at assigned
      cases assigned
      exact ⟨target, rfl, rfl⟩

theorem exists_define_of_assignAt
    (assigned : forest.assignAt frame distance name value = .ok after) :
    ∃ target, forest.ancestor? frame distance = some target ∧
      after = forest.define target name value := by
  rw [assignAt, placeAt] at assigned
  cases reached : forest.ancestor? frame distance with
  | none =>
      rw [reached] at assigned
      cases assigned
  | some target =>
      rw [reached] at assigned
      cases assigned
      exact ⟨target, rfl, rfl⟩

/-- A link is an old one, or that of the new frame. -/
theorem enclosing?_add_cases {enclosing : Option FrameId}
    (linked : (forest.add enclosing).enclosing? frame = some outer) :
    forest.enclosing? frame = some outer ∨ frame = forest.size ∧ enclosing = some outer := by
  have present := lt_size_of_enclosing? linked
  rw [size_add] at present
  rcases Nat.lt_succ_iff_lt_or_eq.mp present with old | rfl
  · rw [enclosing?, frame?_add_of_lt forest enclosing old] at linked
    exact .inl linked
  · rw [enclosing?, frame?_add_size] at linked
    exact .inr ⟨rfl, linked⟩

/-- The frame that encloses a frame is older. -/
theorem Built.older (built : Built forest) (linked : forest.enclosing? frame = some outer) :
    outer < frame := by
  induction built generalizing frame outer with
  | empty => simp [enclosing?, frame?, Forest.empty] at linked
  | addRoot _ induction =>
      rcases enclosing?_add_cases linked with old | ⟨-, impossible⟩
      · exact induction old
      · cases impossible
  | addChild _ present induction =>
      rcases enclosing?_add_cases linked with old | ⟨rfl, new⟩
      · exact induction old
      · cases new
        exact present
  | define name value _ _ induction =>
      rw [enclosing?_define] at linked
      exact induction linked
  | assign _ _ assigned induction =>
      obtain ⟨target, -, rfl⟩ := exists_define_of_assign assigned
      rw [enclosing?_define] at linked
      exact induction linked
  | assignAt _ _ assigned induction =>
      obtain ⟨target, -, rfl⟩ := exists_define_of_assignAt assigned
      rw [enclosing?_define] at linked
      exact induction linked

/-- Every way outwards ends, after a number of links that is less than the number of the frame. -/
theorem Built.exists_depth (built : Built forest) (frame : FrameId) :
    ∃ depth ≤ frame, ∀ distance, (forest.ancestor? frame distance).isSome ↔ distance ≤ depth := by
  induction frame using Nat.strongRecOn with
  | ind frame induction =>
      cases linked : forest.enclosing? frame with
      | none =>
          refine ⟨0, Nat.zero_le _, fun distance => ?_⟩
          cases distance with
          | zero => simp [ancestor?]
          | succ distance => simp [ancestor?, linked]
      | some outer =>
          have older := built.older linked
          obtain ⟨depth, bounded, reaches⟩ := induction outer older
          refine ⟨depth + 1, Nat.lt_of_le_of_lt bounded older, fun distance => ?_⟩
          cases distance with
          | zero => simp [ancestor?]
          | succ distance => simp [ancestor?, linked, reaches distance]

/-! ## The nearest frame -/

theorem nearest_here (bound : (forest.own? frame name).isSome) :
    forest.Nearest frame name 0 frame :=
  ⟨rfl, bound, nofun⟩

theorem nearest_outside (linked : forest.enclosing? frame = some outer)
    (free : forest.own? frame name = none) :
    forest.Nearest frame name (distance + 1) holder ↔ forest.Nearest outer name distance holder := by
  have outwards (closer : Nat) :
      forest.ancestor? frame (closer + 1) = forest.ancestor? outer closer := by
    rw [ancestor?, linked]
  constructor
  · rintro ⟨reached, bound, first⟩
    refine ⟨(outwards distance).symm.trans reached, bound, fun closer less other there => ?_⟩
    exact first (closer + 1) (Nat.succ_lt_succ less) other ((outwards closer).trans there)
  · rintro ⟨reached, bound, first⟩
    refine ⟨(outwards distance).trans reached, bound, fun closer less other there => ?_⟩
    cases closer with
    | zero =>
        cases there
        exact free
    | succ closer =>
        exact first closer (Nat.lt_of_succ_lt_succ less) other ((outwards closer).symm.trans there)

/-- A frame that is in the way is not passed. -/
theorem Nearest.eq_zero (nearest : forest.Nearest frame name distance holder)
    (bound : (forest.own? frame name).isSome) : distance = 0 := by
  cases distance with
  | zero => rfl
  | succ distance =>
      have free := nearest.first 0 (Nat.succ_pos distance) frame rfl
      rw [free] at bound
      cases bound

/-- What is looked for link by link is the nearest frame. -/
theorem Built.holder?_eq_some_iff (built : Built forest) (frame : FrameId) (name : String)
    (holder : FrameId) : forest.holder? frame name = some holder ↔
      ∃ distance, forest.Nearest frame name distance holder := by
  induction frame using Nat.strongRecOn with
  | ind frame induction =>
      rw [holder?]
      by_cases bound : (forest.own? frame name).isSome
      · rw [if_pos bound, Option.some.injEq]
        constructor
        · rintro rfl
          exact ⟨0, nearest_here bound⟩
        · rintro ⟨distance, nearest⟩
          have reached := nearest.reached
          rw [nearest.eq_zero bound] at reached
          exact Option.some.inj reached
      · have free := Option.not_isSome_iff_eq_none.mp bound
        rw [if_neg bound]
        cases linked : forest.enclosing? frame with
        | none =>
            constructor
            · intro found
              cases found
            rintro ⟨distance, nearest⟩
            cases distance with
            | zero =>
                cases nearest.reached
                exact absurd nearest.bound bound
            | succ distance =>
                have reached := nearest.reached
                rw [ancestor?, linked] at reached
                cases reached
        | some outer =>
            have older := built.older linked
            dsimp only
            rw [if_pos older, induction outer older]
            constructor
            · rintro ⟨distance, nearest⟩
              exact ⟨distance + 1, (nearest_outside linked free).mpr nearest⟩
            · rintro ⟨distance, nearest⟩
              cases distance with
              | zero =>
                  cases nearest.reached
                  exact absurd nearest.bound bound
              | succ distance => exact ⟨distance, (nearest_outside linked free).mp nearest⟩

theorem Nearest.place (built : Built forest) (nearest : forest.Nearest frame name distance holder) :
    forest.place frame name = .ok holder := by
  rw [Forest.place, (built.holder?_eq_some_iff frame name holder).mpr ⟨distance, nearest⟩]

theorem Nearest.placeAt (nearest : forest.Nearest frame name distance holder) :
    forest.placeAt frame distance name = .ok holder := by
  rw [Forest.placeAt, nearest.reached]

/-- Where no frame binds the name, it means none. -/
theorem Built.place_eq_error (built : Built forest)
    (unbound : ¬ ∃ distance holder, forest.Nearest frame name distance holder) :
    forest.place frame name = .error (.undefinedVariable name) := by
  rw [place]
  cases found : forest.holder? frame name with
  | none => rfl
  | some holder =>
      obtain ⟨distance, nearest⟩ := (built.holder?_eq_some_iff frame name holder).mp found
      exact absurd ⟨distance, holder, nearest⟩ unbound

theorem getAt_eq_ok_iff : forest.getAt frame distance name = .ok value ↔
    ∃ target, forest.ancestor? frame distance = some target ∧
      forest.own? target name = some value := by
  rw [getAt, placeAt]
  cases forest.ancestor? frame distance with
  | none =>
      constructor
      · intro found
        cases found
      · rintro ⟨target, reached, _⟩
        cases reached
  | some target =>
      show forest.readOwn name target = _ ↔ _
      rw [readOwn]
      cases own : forest.own? target name with
      | none => simp [own]
      | some found => simp [own]

/-! ## Writing to the nearest frame -/

@[simp] theorem ancestor?_define (forest : Forest α) (target frame : FrameId) (name : String)
    (value : α) (distance : Nat) :
    (forest.define target name value).ancestor? frame distance =
      forest.ancestor? frame distance := by
  induction distance generalizing frame with
  | zero => rfl
  | succ distance induction =>
      rw [ancestor?, ancestor?, enclosing?_define]
      cases forest.enclosing? frame with
      | none => rfl
      | some outer => exact induction outer

/-- A binding that is overwritten was there before. -/
theorem own?_define_isSome_of_bound (bound : (forest.own? holder name).isSome) (value : α)
    (other : FrameId) (query : String) :
    ((forest.define holder name value).own? other query).isSome =
      (forest.own? other query).isSome := by
  rw [own?_define _ (lt_size_of_own? bound)]
  split
  · rename_i same
    rw [same.1, same.2, bound]
    rfl
  · rfl

/-- Overwriting a binding moves no name to another frame. -/
theorem nearest_define_of_bound (bound : (forest.own? holder name).isSome) (value : α)
    {query : String} {target : FrameId} :
    (forest.define holder name value).Nearest frame query distance target ↔
      forest.Nearest frame query distance target := by
  have same (other : FrameId) :
      ((forest.define holder name value).own? other query).isSome =
        (forest.own? other query).isSome := own?_define_isSome_of_bound bound value other query
  have free (other : FrameId) : (forest.define holder name value).own? other query = none ↔
      forest.own? other query = none := by
    rw [← Option.isNone_iff_eq_none, ← Option.isNone_iff_eq_none, ← Option.not_isSome,
      ← Option.not_isSome, same]
  constructor
  · rintro ⟨reached, held, first⟩
    rw [ancestor?_define] at reached
    refine ⟨reached, (same target).symm.trans held, fun closer less other there => ?_⟩
    exact (free other).mp (first closer less other ((ancestor?_define ..).trans there))
  · rintro ⟨reached, held, first⟩
    refine ⟨(ancestor?_define ..).trans reached, (same target).trans held, ?_⟩
    intro closer less other there
    rw [ancestor?_define] at there
    exact (free other).mpr (first closer less other there)

theorem Nearest.get (built : Built forest) (nearest : forest.Nearest frame name distance holder) :
    forest.get frame name = forest.readOwn name holder := by
  rw [Forest.get, nearest.place built]
  rfl

theorem Nearest.getAt (nearest : forest.Nearest frame name distance holder) :
    forest.getAt frame distance name = forest.readOwn name holder := by
  rw [Forest.getAt, nearest.placeAt]
  rfl

/-- The name is read where it is bound nearest, if it is. -/
theorem get_define_of_bound (built : Built forest)
    (bound : (forest.own? holder name).isSome) (value : α) (query : String)
    (elsewhere : ¬ (query = name ∧ ∃ distance, forest.Nearest frame name distance holder)) :
    (forest.define holder name value).get frame query = forest.get frame query := by
  have written : Built (forest.define holder name value) :=
    .define name value built (lt_size_of_own? bound)
  by_cases found : ∃ distance target, forest.Nearest frame query distance target
  · obtain ⟨distance, target, nearest⟩ := found
    rw [((nearest_define_of_bound bound value).mpr nearest).get written, nearest.get built,
      readOwn, readOwn, own?_define_other]
    by_contra both
    rw [not_or, not_not, not_not] at both
    obtain ⟨rfl, rfl⟩ := both
    exact elsewhere ⟨rfl, distance, nearest⟩
  · have unfound : ¬ ∃ distance target,
        (forest.define holder name value).Nearest frame query distance target := by
      rintro ⟨distance, target, nearest⟩
      exact found ⟨distance, target, (nearest_define_of_bound bound value).mp nearest⟩
    rw [Forest.get, Forest.get, written.place_eq_error unfound, built.place_eq_error found]
    rfl

end

/-! ## Both ways -/

/-- Writing to the nearest frame that binds a name writes to this one binding: the name is read as
the new value wherever it means this binding, and everything else is read as before. -/
structure Rebinds (forest after : Forest α) (holder : FrameId) (name : String) (value : α) :
    Prop where
  size : after.size = forest.size
  links : ∀ frame, after.enclosing? frame = forest.enclosing? frame
  own : ∀ frame query, after.own? frame query =
    if frame = holder ∧ query = name then some value else forest.own? frame query
  reads : ∀ frame, (∃ distance, forest.Nearest frame name distance holder) →
    after.get frame name = .ok value
  others : ∀ frame query, ¬ (query = name ∧ ∃ distance, forest.Nearest frame name distance holder) →
    after.get frame query = forest.get frame query

theorem rebinds_define {forest : Forest α} (built : Built forest) {holder : FrameId} {name : String}
    (bound : (forest.own? holder name).isSome) (value : α) :
    forest.Rebinds (forest.define holder name value) holder name value where
  size := size_define forest holder name value
  links frame := enclosing?_define forest holder frame name value
  own := own?_define forest (lt_size_of_own? bound) name value
  reads frame found := by
    obtain ⟨distance, nearest⟩ := found
    have present := lt_size_of_own? bound
    rw [((nearest_define_of_bound bound value).mpr nearest).get (.define name value built present),
      readOwn, own?_define_same forest present]
  others frame query := get_define_of_bound built bound value query

/-- Let a name be bound nearest at some distance: reading it by name is reading it at this
distance, and writing it by name succeeds and is writing it at this distance, which changes this
one binding. A name that is bound nowhere on the way can neither be read nor be written. At a
distance a name can be read exactly if there is such a frame and it binds the name, and every way
outwards ends. -/
theorem access_agrees {forest : Forest α} (built : Built forest) (frame : FrameId) (name : String) :
    (∀ distance holder, forest.Nearest frame name distance holder →
      (∃ value, forest.get frame name = .ok value) ∧
      forest.get frame name = forest.getAt frame distance name ∧
      ∀ value, ∃ after, forest.assign frame name value = .ok after ∧
        forest.assignAt frame distance name value = .ok after ∧
        after.get frame name = .ok value ∧ forest.Rebinds after holder name value) ∧
    ((¬ ∃ distance holder, forest.Nearest frame name distance holder) →
      forest.get frame name = .error (.undefinedVariable name) ∧
      ∀ value, forest.assign frame name value = .error (.undefinedVariable name)) ∧
    (∀ distance, (∃ value, forest.getAt frame distance name = .ok value) ↔
      ∃ target, forest.ancestor? frame distance = some target ∧
        (forest.own? target name).isSome) ∧
    ∃ depth, ∀ distance, (forest.ancestor? frame distance).isSome ↔ distance ≤ depth := by
  refine ⟨fun distance holder nearest => ⟨?_, ?_, fun value => ?_⟩,
    fun unbound => ⟨?_, fun value => ?_⟩,
    fun distance => ?_, ?_⟩
  · obtain ⟨value, own⟩ := Option.isSome_iff_exists.mp nearest.bound
    exact ⟨value, by rw [nearest.get built, readOwn, own]⟩
  · rw [nearest.get built, nearest.getAt]
  · have rebinds := rebinds_define built nearest.bound value
    refine ⟨forest.define holder name value, ?_, ?_, rebinds.reads frame ⟨distance, nearest⟩,
      rebinds⟩
    · rw [assign, nearest.place built]
      rfl
    · rw [assignAt, nearest.placeAt]
      rfl
  · rw [get, built.place_eq_error unbound]
    rfl
  · rw [assign, built.place_eq_error unbound]
    rfl
  · constructor
    · rintro ⟨value, found⟩
      obtain ⟨target, reached, own⟩ := getAt_eq_ok_iff.mp found
      exact ⟨target, reached, Option.isSome_of_eq_some own⟩
    · rintro ⟨target, reached, bound⟩
      obtain ⟨value, own⟩ := Option.isSome_iff_exists.mp bound
      exact ⟨value, getAt_eq_ok_iff.mpr ⟨target, reached, own⟩⟩
  · obtain ⟨depth, -, reaches⟩ := built.exists_depth frame
    exact ⟨depth, reaches⟩

/-- A name that is bound in the outermost of three frames, and written from the innermost. -/
theorem access_agrees_outermost :
    let forest : Forest Nat := (((empty.addRoot).addChild 0).addChild 1).define 0 "x" 1
    Built forest ∧ forest.Nearest 2 "x" 2 0 ∧ forest.get 2 "x" = forest.getAt 2 2 "x" ∧
      ∃ after, forest.assign 2 "x" 5 = .ok after ∧ forest.assignAt 2 2 "x" 5 = .ok after ∧
        after.get 2 "x" = .ok 5 ∧ forest.Rebinds after 0 "x" 5 := by
  intro forest
  have built : Built forest := .define "x" 1
    (.addChild (.addChild (.addRoot .empty) (by decide)) (by decide)) (by decide)
  have nearest : forest.Nearest 2 "x" 2 0 := by
    refine ⟨rfl, rfl, fun closer less other reached => ?_⟩
    match closer, less with
    | 0, _ =>
        cases reached
        rfl
    | 1, _ =>
        cases reached
        rfl
  obtain ⟨-, reads, writes⟩ := (access_agrees built 2 "x").1 2 0 nearest
  exact ⟨built, nearest, reads, writes 5⟩

end Lox.Forest
