import Lox.Heap
import Mathlib.Data.List.Forall2
/-! Tables and arrays with related entries. -/

namespace Lox

variable {α β : Type}

structure ArraysAlike (related : α → β → Prop) (left : Array α) (right : Array β) : Prop where
  size : left.size = right.size
  entries : ∀ index : Nat, Option.Rel related left[index]? right[index]?

namespace ArraysAlike

variable {related : α → β → Prop} {left : Array α} {right : Array β}

theorem empty : ArraysAlike related #[] #[] :=
  ⟨rfl, fun _ => .none⟩

theorem mono {other : α → β → Prop} (alike : ArraysAlike related left right)
    (contained : ∀ first second, related first second → other first second) :
    ArraysAlike other left right := by
  refine ⟨alike.size, fun index => ?_⟩
  have entry := alike.entries index
  revert entry
  generalize left[index]? = first
  generalize right[index]? = second
  rintro (found | _)
  · exact .some (contained _ _ found)
  · exact .none

theorem push (alike : ArraysAlike related left right) {first : α} {second : β}
    (found : related first second) : ArraysAlike related (left.push first) (right.push second) := by
  refine ⟨by rw [Array.size_push, Array.size_push, alike.size], fun index => ?_⟩
  rw [Array.getElem?_push, Array.getElem?_push, alike.size]
  split
  · exact .some found
  · exact alike.entries index

end ArraysAlike

def TablesAlike (related : α → β → Prop) (left : Table String α) (right : Table String β) : Prop :=
  ∀ name, Option.Rel related (left.find? name) (right.find? name)

theorem TablesAlike.mono {related other : α → β → Prop} {left : Table String α}
    {right : Table String β} (alike : TablesAlike related left right)
    (contained : ∀ first second, related first second → other first second) :
    TablesAlike other left right := by
  intro name
  have entry := alike name
  revert entry
  generalize left.find? name = first
  generalize right.find? name = second
  rintro (found | _)
  · exact .some (contained _ _ found)
  · exact .none

theorem TablesAlike.set {related : α → β → Prop} {left : Table String α} {right : Table String β}
    (alike : TablesAlike related left right) (key : String) {first : α} {second : β}
    (found : related first second) :
    TablesAlike related (left.set key first) (right.set key second) := by
  intro name
  rw [Table.find?_set, Table.find?_set]
  split
  · exact .some found
  · exact alike name

/-- The method tables of methods that are related, each in its own place. -/
theorem methodTable_alike {First Second : Type} {related : Closure First → Closure Second → Prop}
    (first : First) (second : Second) {methods others : List Routine}
    (found : List.Forall₂ (fun method other => other.name.lexeme = method.name.lexeme ∧ related
      ⟨method, first, method.name.lexeme = initializerName⟩
      ⟨other, second, other.name.lexeme = initializerName⟩) methods others) :
    TablesAlike related (methodTable first methods) (methodTable second others) := by
  have several (left : Table String (Closure First)) (right : Table String (Closure Second))
      (alike : TablesAlike related left right) : TablesAlike related
        (left.setAll ⟨methods.map fun method =>
          (method.name.lexeme, ⟨method, first, method.name.lexeme = initializerName⟩)⟩)
        (right.setAll ⟨others.map fun other =>
          (other.name.lexeme, ⟨other, second, other.name.lexeme = initializerName⟩)⟩) := by
    induction found generalizing left right with
    | nil => exact alike
    | @cons method other methods others same _ induction =>
        rcases same with ⟨named, same⟩
        rw [named] at same
        refine induction _ _ ?_
        dsimp only
        rw [named]
        exact alike.set method.name.lexeme same
  exact several _ _ fun _ => .none

end Lox
