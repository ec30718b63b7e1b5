import Lox.Proofs.Lexical.Fuel
import Lox.Proofs.Scope.Scoped
/-! A loop with a head of three parts, executed as it is written. It has one scope of its own, in
which its initializer, its condition, its increment and its body stand; no round makes another
one. What it does is what the loop inside a block does that stands for it. -/

namespace Lox.Lexical

/-! ## The loop as it is written -/

/-- A missing condition holds. -/
def test (fuel : Nat) (environment : Environment) : Option Expr → Run Value
  | some condition => evaluate fuel environment condition
  | none => return .bool true

/-- The body and then, unless it has returned, the increment. -/
def round (fuel : Nat) (environment : Environment) (increment : Option Expr) (body : Stmt) :
    Run Flow := do
  match ← execute fuel environment body with
  | (.returned value, _) => return .returned value
  | (.normal, _) =>
      match increment with
      | some step =>
          let _ ← evaluate fuel environment step
          return .normal
      | none => return .normal

/-- Rounds as long as the condition holds, but less than `count`. -/
def rounds (fuel : Nat) (environment : Environment) (condition increment : Option Expr)
    (body : Stmt) : Nat → Run Flow
  | 0 => throw .exhausted
  | count + 1 => do
      if (← test fuel environment condition).isTruthy then
        match ← round fuel environment increment body with
        | .returned value => return .returned value
        | .normal => rounds fuel environment condition increment body count
      else
        return .normal

/-- The initializer, once, in a scope of the loop; then the rounds in that scope. -/
def forLoop (fuel : Nat) (environment : Environment) (initializer : Option Stmt)
    (condition increment : Option Expr) (body : Stmt) : Run Flow := do
  match initializer with
  | some first =>
      let (_, inside) ← execute fuel environment.enter first
      rounds fuel inside condition increment body fuel
  | none => rounds fuel environment.enter condition increment body fuel

/-! ## Statements that declare nothing -/

/-- The same flow; what follows stands where the statement stands. -/
def SameFlow (environment other : Environment) (out out' : Flow × Environment) : Prop :=
  out'.1 = out.1 ∧ out.2 = environment ∧ out'.2 = other

theorem enter_of_chain {environment other : Environment} (same : other.chain = environment.chain) :
    other.enter = environment.enter :=
  congrArg Environment.inside same

section

variable {recorded : OccurrenceId → Option Nat → Prop} {scopes : List Scope}

/-- A statement that declares nothing does the same with more fuel, and whether there is a chain
without cells or none. -/
theorem execute_governed {fuel more : Nat} (enough : fuel ≤ more) {environment other : Environment}
    (same : other.chain = environment.chain) {stmt : Stmt} (holds : stmt.Scoped recorded scopes)
    (governed : stmt.isDeclaration = false) :
    Covers (SameFlow environment other) (execute fuel environment stmt)
      (execute more other stmt) := by
  induction fuel generalizing more stmt with
  | zero => exact .exhausted
  | succ fuel induction =>
      obtain ⟨more, rfl⟩ : ∃ less, more = less + 1 := ⟨more - 1, by omega⟩
      have enough := Nat.le_of_succ_le_succ enough
      have longer := lasts enough
      cases stmt with
      | var | function | classDecl => cases governed
      | expression expr => exact longer.first same expr fun _ => .pure ⟨rfl, rfl, rfl⟩
      | print expr =>
          exact longer.first same expr fun _ => .step _ fun _ => .pure ⟨rfl, rfl, rfl⟩
      | block body =>
          show Covers _ (executeAll fuel environment.enter body >>= _)
            (executeAll more other.enter body >>= _)
          rw [enter_of_chain same]
          refine (longer.executeAll environment.enter body).bind ?_
          rintro flow _ rfl
          exact .pure ⟨rfl, rfl, rfl⟩
      | conditional condition thenBranch elseBranch =>
          refine longer.first same condition fun value => ?_
          split
          · have branch : thenBranch.Scoped recorded scopes ∧ thenBranch.isDeclaration = false := by
              cases elseBranch with
              | none => exact holds.2
              | some _ => exact holds.2.1
            refine (induction enough branch.1 branch.2).bind ?_
            rintro ⟨flow, _⟩ _ ⟨rfl, _, _⟩
            exact .pure ⟨rfl, rfl, rfl⟩
          · cases elseBranch with
            | none => exact .pure ⟨rfl, rfl, rfl⟩
            | some elseBranch =>
                refine (induction enough holds.2.2.1 holds.2.2.2).bind ?_
                rintro ⟨flow, _⟩ _ ⟨rfl, _, _⟩
                exact .pure ⟨rfl, rfl, rfl⟩
      | loop condition body =>
          refine longer.first same condition fun value => ?_
          split
          · refine (induction enough holds.2.1 holds.2.2).bind ?_
            rintro ⟨_, _⟩ ⟨flow, _⟩ ⟨rfl, _, _⟩
            cases flow with
            | returned value => exact .pure ⟨rfl, rfl, rfl⟩
            | normal => exact induction enough holds rfl
          · exact .pure ⟨rfl, rfl, rfl⟩
      | returns keyword value =>
          cases value with
          | none => exact .pure ⟨rfl, rfl, rfl⟩
          | some value => exact longer.first same value fun _ => .pure ⟨rfl, rfl, rfl⟩

end

/-! ## Rounds -/

/-- A block of two statements. -/
theorem execute_pair (fuel : Nat) (environment : Environment) (first second : Stmt) :
    execute (fuel + 4) environment (.block [first, second]) = (do
      match ← execute (fuel + 2) environment.enter first with
      | (.returned value, _) => return (.returned value, environment)
      | (.normal, inside) =>
          let out ← execute (fuel + 1) inside second
          return (out.1, environment)) := by
  show ((execute (fuel + 2) environment.enter first >>= _) >>= _) = _
  rw [bind_assoc]
  refine congrArg _ (funext ?_)
  rintro ⟨flow, inside⟩
  cases flow with
  | returned value => rfl
  | normal =>
      show ((execute (fuel + 1) inside second >>= _) >>= _) = _
      rw [bind_assoc]
      refine congrArg _ (funext ?_)
      rintro ⟨flow, _⟩
      cases flow <;> rfl

/-- The statement that stands for a round. -/
def repeated (increment : Option Expr) (body : Stmt) : Stmt :=
  match increment with
  | some step => .block [body, .expression step]
  | none => body

/-- A flow, with whatever stands behind the statement. -/
def FlowOf (out : Flow × Environment) (flow : Flow) : Prop :=
  flow = out.1

section

variable {recorded : OccurrenceId → Option Nat → Prop} {scopes : List Scope} {fuel more : Nat}
  {environment other : Environment} (same : other.chain = environment.chain) {body : Stmt}
  (holds : body.Scoped recorded scopes) (governed : body.isDeclaration = false)
  (condition increment : Option Expr)

include same

theorem test_covers (enough : fuel ≤ more) :
    Covers Eq (evaluate fuel environment (condition.getD (.literal (.bool true))))
      (test more other condition) := by
  cases condition with
  | some condition => exact (lasts enough).evaluate condition same
  | none =>
      cases fuel with
      | zero => exact .exhausted
      | succ fuel => exact .pure rfl

theorem covers_test (enough : fuel < more) :
    Covers Eq (test fuel environment condition)
      (evaluate more other (condition.getD (.literal (.bool true)))) := by
  cases condition with
  | some condition => exact (lasts (Nat.le_of_lt enough)).evaluate condition same
  | none =>
      obtain ⟨more, rfl⟩ : ∃ less, more = less + 1 := ⟨more - 1, by omega⟩
      exact .pure rfl

include holds governed

theorem round_covers (enough : fuel + 4 ≤ more) :
    Covers FlowOf (execute fuel environment (repeated increment body))
      (round more other increment body) := by
  cases increment with
  | none =>
      rw [← bind_pure (execute fuel environment _)]
      refine (execute_governed (by omega) same holds governed).bind ?_
      rintro ⟨_, _⟩ ⟨flow, _⟩ ⟨rfl, _, _⟩
      cases flow <;> exact .pure rfl
  | some step =>
      have longer : Covers Eq (execute fuel environment (repeated (some step) body))
          (execute (fuel + 4) environment (.block [body, .expression step])) :=
        (lasts (by omega)).execute environment _
      have inside : other.chain = environment.enter.chain := same
      refine longer.trans ?_
      rw [execute_pair]
      refine (execute_governed (by omega) inside holds governed).bind ?_
      rintro ⟨_, _⟩ ⟨flow, _⟩ ⟨rfl, rfl, _⟩
      cases flow with
      | returned value => exact .pure rfl
      | normal =>
          show Covers _ ((evaluate fuel environment.enter step >>= _) >>= _) _
          rw [bind_assoc]
          refine (lasts (by omega)).first inside step fun _ => ?_
          exact .pure rfl

theorem covers_round (enough : fuel + 4 ≤ more) :
    Covers (fun flow out => FlowOf out flow) (round fuel environment increment body)
      (execute more other (repeated increment body)) := by
  cases increment with
  | none =>
      rw [← bind_pure (execute more other _)]
      refine (execute_governed (by omega) same holds governed).bind ?_
      rintro ⟨_, _⟩ ⟨flow, _⟩ ⟨rfl, _, _⟩
      cases flow <;> exact .pure rfl
  | some step =>
      obtain ⟨less, rfl⟩ : ∃ less, more = less + 4 := ⟨more - 4, by omega⟩
      have inside : other.enter.chain = environment.chain := same
      show Covers _ _ (execute (less + 4) other (.block [body, .expression step]))
      rw [execute_pair]
      refine (execute_governed (by omega) inside holds governed).bind ?_
      rintro ⟨_, _⟩ ⟨flow, _⟩ ⟨rfl, _, rfl⟩
      cases flow with
      | returned value => exact .pure rfl
      | normal =>
          show Covers _ _ ((evaluate less other.enter step >>= _) >>= _)
          rw [bind_assoc]
          refine (lasts (by omega)).first inside step fun _ => ?_
          exact .pure rfl

/-! ## All rounds -/

theorem loop_covers {count : Nat} (enough : fuel + 4 ≤ more) (often : fuel ≤ count) :
    Covers FlowOf
      (execute fuel environment
        (.loop (condition.getD (.literal (.bool true))) (repeated increment body)))
      (rounds more other condition increment body count) := by
  induction fuel generalizing count with
  | zero => exact .exhausted
  | succ fuel induction =>
      obtain ⟨count, rfl⟩ : ∃ less, count = less + 1 := ⟨count - 1, by omega⟩
      refine (test_covers same condition (by omega)).bind ?_
      rintro value _ rfl
      split
      · refine (round_covers same holds governed increment (by omega)).bind ?_
        rintro ⟨_, _⟩ flow rfl
        cases flow with
        | returned value => exact .pure rfl
        | normal => exact induction (by omega) (by omega)
      · exact .pure rfl

theorem covers_loop {count : Nat} (enough : fuel + count + 4 ≤ more) :
    Covers (fun flow out => FlowOf out flow)
      (rounds fuel environment condition increment body count)
      (execute more other
        (.loop (condition.getD (.literal (.bool true))) (repeated increment body))) := by
  induction count generalizing more with
  | zero => exact .exhausted
  | succ count induction =>
      obtain ⟨more, rfl⟩ : ∃ less, more = less + 1 := ⟨more - 1, by omega⟩
      refine (covers_test same condition (by omega)).bind ?_
      rintro value _ rfl
      split
      · refine (covers_round same holds governed increment (by omega)).bind ?_
        rintro flow ⟨_, _⟩ rfl
        cases flow with
        | returned value => exact .pure rfl
        | normal => exact induction (by omega)
      · exact .pure rfl

end

/-! ## The whole loop -/

/-- What can stand in front of the first semicolon of a loop. -/
def IsInitializer : Stmt → Prop
  | .var _ _ | .expression _ => True
  | _ => False

theorem execute_initializer {fuel more : Nat} (enough : fuel ≤ more) (environment : Environment)
    {first : Stmt} (initializes : IsInitializer first) :
    Covers (fun out out' => out' = out ∧ out.1 = .normal) (execute fuel environment first)
      (execute more environment first) := by
  cases fuel with
  | zero => exact .exhausted
  | succ fuel =>
      obtain ⟨more, rfl⟩ : ∃ less, more = less + 1 := ⟨more - 1, by omega⟩
      have longer : Lasts fuel more := lasts (by omega)
      cases first with
      | expression expr => exact longer.first rfl expr fun _ => .pure ⟨rfl, rfl⟩
      | var name initial =>
          cases initial with
          | none => exact .step _ fun _ => .step _ fun _ => .pure ⟨rfl, rfl⟩
          | some initial =>
              exact .step _ fun _ => longer.first rfl initial fun _ => .step _ fun _ =>
                .pure ⟨rfl, rfl⟩
      | _ => exact initializes.elim

section

variable {recorded : OccurrenceId → Option Nat → Prop} {scopes : List Scope} {body : Stmt}
  (holds : body.Scoped recorded scopes) (governed : body.isDeclaration = false)
  {initializer : Option Stmt} (initializes : ∀ first ∈ initializer, IsInitializer first)
  (condition increment : Option Expr) (environment : Environment) (fuel : Nat)

include holds governed initializes

theorem forLoop_covers :
    Covers FlowOf (execute fuel environment (.forLoop initializer condition increment body))
      (forLoop (fuel + 8) environment initializer condition increment body) := by
  cases initializer with
  | none =>
      exact @loop_covers _ _ fuel _ environment environment.enter rfl _ holds governed condition
        increment _ (by omega) (by omega)
  | some first =>
      have longer : Covers Eq
          (execute fuel environment (.forLoop (some first) condition increment body))
          (execute (fuel + 4) environment (.forLoop (some first) condition increment body)) :=
        (lasts (by omega)).execute environment _
      refine longer.trans ?_
      show Covers _ (execute (fuel + 4) environment (.block [first, _])) _
      rw [execute_pair]
      refine (execute_initializer (by omega) environment.enter (initializes first rfl)).bind ?_
      rintro ⟨flow, inside⟩ _ ⟨rfl, normal⟩
      cases normal
      have looped :
          Covers FlowOf _ (rounds (fuel + 8) inside condition increment body (fuel + 8)) :=
        @loop_covers _ _ (fuel + 1) _ _ _ rfl _ holds governed condition increment _ (by omega)
          (by omega)
      exact looped.image_left fun _ _ => id

theorem covers_forLoop :
    Covers (fun flow out => FlowOf out flow)
      (forLoop fuel environment initializer condition increment body)
      (execute (fuel + fuel + 8) environment (.forLoop initializer condition increment body)) := by
  cases initializer with
  | none =>
      exact @covers_loop _ _ fuel _ environment.enter environment rfl _ holds governed condition
        increment _ (by omega)
  | some first =>
      show Covers _ _ (execute (fuel + fuel + 4 + 4) environment (.block [first, _]))
      rw [execute_pair]
      refine (execute_initializer (by omega) environment.enter (initializes first rfl)).bind ?_
      rintro ⟨flow, inside⟩ _ ⟨rfl, normal⟩
      cases normal
      have looped : Covers _ (rounds fuel inside condition increment body fuel) _ :=
        @covers_loop _ _ _ (fuel + fuel + 5) _ _ rfl _ holds governed condition increment _
          (by omega)
      exact looped.image_right fun _ _ => id

end

end Lox.Lexical
