import Lox.Proofs.Fields.Grounding
import Lox.Proofs.History.Origins
import Lox.Proofs.Table
/-! Ancestries. A class is made after its superclass, whatever the two are called; so from every
class a finite chain of classes leads upwards, and no class is above itself. A method that is looked
for is that of the first class of the chain whose body has one of this name. -/

namespace Lox

open History

/-! ## Chains of classes -/

namespace Heap

variable {Place : Type}

/-- The second class is the superclass of the first. -/
def Extends (heap : Heap Place) (id superclass : ClassId) : Prop :=
  ∃ info, heap.classes[id]? = some info ∧ info.superclass = some superclass

/-- The class, its superclass and so on, up to a class that has no superclass. -/
inductive Ancestry (heap : Heap Place) : ClassId → List ClassId → Prop
  | outermost {id info} : heap.classes[id]? = some info → info.superclass = none →
      Ancestry heap id [id]
  | derived {id superclass chain} : heap.Extends id superclass → Ancestry heap superclass chain →
      Ancestry heap id (id :: chain)

/-- The method of this name in the body of the class itself. -/
def ownMethod? (heap : Heap Place) (name : String) (id : ClassId) : Option (Closure Place) :=
  heap.classes[id]?.bind (·.methods.find? name)

/-- A method is looked for in the class, then in its superclass and so on, until there is one or
there is no superclass: this is how it ends. -/
inductive Searches (heap : Heap Place) (name : String) : ClassId → Option (Closure Place) → Prop
  | found {id method} : heap.ownMethod? name id = some method →
      Searches heap name id (some method)
  | missing {id info} : heap.ownMethod? name id = none → heap.classes[id]? = some info →
      info.superclass = none → Searches heap name id none
  | upwards {id superclass result} : heap.ownMethod? name id = none →
      heap.Extends id superclass → Searches heap name superclass result →
      Searches heap name id result

variable {heap : Heap Place} {id superclass : ClassId} {chain other : List ClassId}

theorem Extends.superclass_eq (extends_ : heap.Extends id superclass) {info : ClassInfo Place}
    (known : heap.classes[id]? = some info) : info.superclass = some superclass := by
  obtain ⟨again, known', parent⟩ := extends_
  cases known.symm.trans known'
  exact parent

theorem Extends.unique (first : heap.Extends id superclass) {parent : ClassId}
    (second : heap.Extends id parent) : parent = superclass := by
  obtain ⟨info, known, same⟩ := second
  exact Option.some.inj (same.symm.trans (first.superclass_eq known))

theorem Ancestry.unique (first : heap.Ancestry id chain) (second : heap.Ancestry id other) :
    other = chain := by
  induction first generalizing other with
  | outermost known plain =>
      cases second with
      | outermost => rfl
      | derived extends_ => simp [extends_.superclass_eq known] at plain
  | derived extends_ _ induction =>
      cases second with
      | outermost known plain => simp [extends_.superclass_eq known] at plain
      | derived again rest =>
          cases extends_.unique again
          rw [induction rest]

theorem Searches.unique {name : String} {result again : Option (Closure Place)}
    (first : heap.Searches name id result) (second : heap.Searches name id again) :
    again = result := by
  induction first with
  | found own => cases second <;> simp_all
  | missing own known plain =>
      cases second with
      | found own' => simp [own] at own'
      | missing => rfl
      | upwards _ extends_ => simp [extends_.superclass_eq known] at plain
  | upwards own extends_ _ induction =>
      cases second with
      | found own' => simp [own] at own'
      | missing _ known plain => simp [extends_.superclass_eq known] at plain
      | upwards _ extends' rest =>
          cases extends_.unique extends'
          exact induction rest

/-- The search comes to the first class of the chain that has a method of this name. -/
theorem Ancestry.searches (ancestry : heap.Ancestry id chain) (name : String) :
    heap.Searches name id (chain.findSome? (heap.ownMethod? name)) := by
  induction ancestry with
  | @outermost id info known plain =>
      cases own : heap.ownMethod? name id with
      | some method => simpa [own] using Searches.found own
      | none => simpa [own] using Searches.missing own known plain
  | @derived id superclass chain extends_ _ induction =>
      cases own : heap.ownMethod? name id with
      | some method => simpa [own] using Searches.found own
      | none => simpa [own] using Searches.upwards own extends_ induction

end Heap

namespace Machine

variable {machine : Machine} {id superclass : ClassId} {chain : List ClassId}

namespace Layered

variable (layered : machine.Layered)

include layered

theorem older (extends_ : machine.Extends id superclass) : superclass < id := by
  obtain ⟨info, known, parent⟩ := extends_
  exact layered id info superclass known parent

/-- No class is above itself. -/
theorem acyclic (id : ClassId) : ¬ Relation.TransGen machine.Extends id id := by
  have above {other : ClassId} (path : Relation.TransGen machine.Extends id other) :
      other < id := by
    induction path with
    | single step => exact layered.older step
    | tail _ step induction => exact Nat.lt_trans (layered.older step) induction
  intro cycle
  exact Nat.lt_irrefl id (above cycle)

theorem exists_ancestry (present : id < machine.classes.size) :
    ∃ chain, machine.Ancestry id chain := by
  induction id using Nat.strongRecOn with
  | ind id induction =>
      have known : machine.classes[id]? = some machine.classes[id] :=
        Array.getElem?_eq_getElem present
      cases parent : machine.classes[id].superclass with
      | none => exact ⟨[id], .outermost known parent⟩
      | some superclass =>
          have extends_ : machine.Extends id superclass := ⟨_, known, parent⟩
          have older := layered.older extends_
          obtain ⟨chain, ancestry⟩ := induction superclass older (Nat.lt_trans older present)
          exact ⟨id :: chain, .derived extends_ ancestry⟩

/-- Each class of the chain has been made before those below it. -/
theorem descending (ancestry : machine.Ancestry id chain) :
    chain.Pairwise (fun below above => above < below) ∧ ∀ other ∈ chain, other ≤ id := by
  induction ancestry with
  | outermost => simp
  | @derived id superclass chain extends_ _ induction =>
      have older := layered.older extends_
      have below (other : ClassId) (member : other ∈ chain) : other < id :=
        Nat.lt_of_le_of_lt (induction.2 other member) older
      refine ⟨List.pairwise_cons.mpr ⟨below, induction.1⟩, fun other member => ?_⟩
      rcases List.mem_cons.mp member with rfl | member
      · exact Nat.le_refl other
      · exact Nat.le_of_lt (below other member)

theorem method?_eq (ancestry : machine.Ancestry id chain) (name : String) :
    machine.method? id name = chain.findSome? (machine.ownMethod? name) := by
  induction ancestry with
  | @outermost id info known plain =>
      rw [Heap.method?, known, List.findSome?_cons, Heap.ownMethod?, known, Option.bind_some]
      cases own : info.methods.find? name with
      | some method => simp only [own]
      | none => simp only [own, plain, List.findSome?_nil]
  | @derived id superclass chain extends_ _ induction =>
      have older := layered.older extends_
      obtain ⟨info, known, parent⟩ := extends_
      rw [Heap.method?, known, List.findSome?_cons, Heap.ownMethod?, known, Option.bind_some]
      cases own : info.methods.find? name with
      | some method => simp only [own]
      | none => simp only [own, parent, older, if_true, induction]

end Layered

end Machine

/-! ## Class bodies -/

/-- Of the methods of this name the last one. -/
def Routine.lastNamed? (methods : List Routine) (name : String) : Option Routine :=
  methods.reverse.find? (·.name.lexeme = name)

theorem find?_methodTable {Place : Type} (place : Place) (methods : List Routine) (name : String) :
    (methodTable place methods).find? name = (Routine.lastNamed? methods name).map fun method =>
      ⟨method, place, method.name.lexeme = initializerName⟩ := by
  rw [methodTable, Table.find?_ofList, Routine.lastNamed?, ← List.map_reverse, List.find?_map,
    Option.map_map]
  rfl

/-- At this moment a declaration is started that makes the class, and these are the methods of its
body: of two with the same name the class has the later one. -/
structure History.Moment.MakesFrom (moment : Moment) (methods : List Routine)
    (info : ClassInfo FrameId) : Prop where
  makes : moment.Makes info
  starts : ∃ name superclass,
    moment.event = .starts (.execute (.classDecl name superclass methods))
  holds : ∃ frame, ∀ name, info.methods.find? name =
    (Routine.lastNamed? methods name).map fun method =>
      ⟨method, frame, method.name.lexeme = initializerName⟩

theorem History.Moment.Makes.exists_makesFrom {moment : Moment} {info : ClassInfo FrameId}
    (makes : moment.Makes info) : ∃ methods, moment.MakesFrom methods info := by
  cases makes with
  | @plain name methods frame started =>
      exact ⟨methods, .plain started, ⟨name, none, started⟩,
        ⟨frame, find?_methodTable frame methods⟩⟩
  | @derived name superclass methods frame _ _ _ started evaluated =>
      exact ⟨methods, .derived started evaluated, ⟨name, some superclass, started⟩,
        ⟨frame, find?_methodTable frame methods⟩⟩

/-- Before now the class has been made by a declaration whose body has these methods. -/
def Machine.HasBody (machine : Machine) (past : List Moment) (id : ClassId)
    (methods : List Routine) : Prop :=
  ∃ info, machine.classes[id]? = some info ∧ ∃ moment ∈ past, moment.MakesFrom methods info

section

variable {machine : Machine} {past : List Moment} {id : ClassId} {chain : List ClassId}

theorem Machine.HasBody.ownMethod? {methods : List Routine}
    (body : machine.HasBody past id methods) (name : String) :
    (machine.ownMethod? name id).map Closure.routine = Routine.lastNamed? methods name := by
  obtain ⟨info, known, moment, _, made⟩ := body
  obtain ⟨frame, holds⟩ := made.holds
  rw [Heap.ownMethod?, known, Option.bind_some, holds, Option.map_map]
  exact Option.map_id'

theorem History.Tells.exists_body (tells : Tells past machine) {info : ClassInfo FrameId}
    (known : machine.classes[id]? = some info) : ∃ methods, machine.HasBody past id methods := by
  obtain ⟨moment, member, makes⟩ := tells id info known
  obtain ⟨methods, made⟩ := makes.exists_makesFrom
  exact ⟨methods, info, known, moment, member, made⟩

theorem History.Tells.exists_bodies (tells : Tells past machine)
    (ancestry : machine.Ancestry id chain) :
    ∃ bodies, List.Forall₂ (machine.HasBody past) chain bodies := by
  induction ancestry with
  | outermost known =>
      obtain ⟨methods, body⟩ := tells.exists_body known
      exact ⟨[methods], .cons body .nil⟩
  | derived extends_ _ induction =>
      obtain ⟨info, known, _⟩ := extends_
      obtain ⟨methods, body⟩ := tells.exists_body known
      obtain ⟨bodies, above⟩ := induction
      exact ⟨methods :: bodies, .cons body above⟩

/-- The first class of the chain that has the method is the first one whose body has it. -/
theorem findSome?_ownMethod? {bodies : List (List Routine)}
    (declared : List.Forall₂ (machine.HasBody past) chain bodies) (name : String) :
    (chain.findSome? (machine.ownMethod? name)).map Closure.routine =
      bodies.findSome? (Routine.lastNamed? · name) := by
  induction declared with
  | nil => rfl
  | @cons id methods chain bodies body _ induction =>
      rw [List.findSome?_cons, List.findSome?_cons, ← body.ownMethod?]
      cases machine.ownMethod? name id with
      | some method => rfl
      | none => exact induction

end

/-! ## Lineages -/

/-- The classes of a machine after these moments. None is above itself. To each belongs one chain
that ends, and to the classes of the chain belong the bodies of the declarations that have made
them. Looking for a method ends, namely with the last one of this name in the first body that has
one, and a class takes as many arguments as the initializer has parameters that is found in this
way. -/
structure Machine.Lineal (machine : Machine) (past : List Moment) : Prop where
  acyclic : ∀ id, ¬ Relation.TransGen machine.Extends id id
  ancestry : ∀ id, id < machine.classes.size → ∃ chain bodies,
    (∀ other, machine.Ancestry id other ↔ other = chain) ∧
    chain.Pairwise (fun below above => above < below) ∧
    List.Forall₂ (machine.HasBody past) chain bodies ∧
    (∀ name,
      (∀ result, machine.Searches name id result ↔ result = machine.method? id name) ∧
      machine.method? id name = chain.findSome? (machine.ownMethod? name) ∧
      (machine.method? id name).map Closure.routine =
        bodies.findSome? (Routine.lastNamed? · name)) ∧
    machine.arity? (.classRef id) = some
      (((bodies.findSome? (Routine.lastNamed? · initializerName)).map Routine.arity).getD 0)

theorem Machine.Layered.lineal {machine : Machine} {past : List Moment} (layered : machine.Layered)
    (tells : Tells past machine) : machine.Lineal past where
  acyclic := layered.acyclic
  ancestry id present := by
    obtain ⟨chain, ancestry⟩ := layered.exists_ancestry present
    obtain ⟨bodies, declared⟩ := tells.exists_bodies ancestry
    have first (name : String) : (machine.method? id name).map Closure.routine =
        bodies.findSome? (Routine.lastNamed? · name) := by
      rw [layered.method?_eq ancestry, findSome?_ownMethod? declared]
    refine ⟨chain, bodies, fun other => ⟨ancestry.unique, fun same => same ▸ ancestry⟩,
      (layered.descending ancestry).1, declared, fun name => ⟨?_, ?_, first name⟩, ?_⟩
    · have searches := ancestry.searches name
      rw [← layered.method?_eq ancestry] at searches
      exact fun result => ⟨searches.unique, fun ends => ends ▸ searches⟩
    · exact layered.method?_eq ancestry name
    · rw [Heap.arity?, ← first, Option.map_map]
      rfl

end Lox
