import Lox.Proofs.Lexical.Interpreter
/-! More fuel. What a run does that is not stopped for want of fuel, it does with more fuel too.
Where there is a chain and where there is none, an expression means the same, and so does a
statement that declares nothing where it stands. -/

namespace Lox.Lexical

variable {α β γ δ : Type}

/-! ## Runs that do the same -/

/-- The run was not stopped for want of fuel. -/
def Finishes {σ : Type} (result : EStateM.Result Stop σ α) : Prop :=
  ∀ after, result ≠ .error .exhausted after

instance {σ : Type} : (result : EStateM.Result Stop σ α) → Decidable (Finishes result)
  | .ok _ _ => isTrue nofun
  | .error .exhausted after => isFalse fun finishes => finishes after rfl
  | .error (.fault _ _) _ => isTrue nofun
  | .error (.sink _) _ => isTrue nofun

/-- Two runs have come to the same machine, with related values or for the same reason. -/
def EndsAs (related : α → β → Prop) :
    EStateM.Result Stop Machine α → EStateM.Result Stop Machine β → Prop
  | .ok value machine, .ok other machine' => related value other ∧ machine' = machine
  | .error stop machine, .error stop' machine' => stop' = stop ∧ machine' = machine
  | _, _ => False

/-- The second run does what the first one does, as far as that one finishes. -/
def Covers (related : α → β → Prop) (short : Run α) (long : Run β) : Prop :=
  ∀ machine, Finishes (short machine) → EndsAs related (short machine) (long machine)

namespace Covers

variable {related : α → β → Prop} {short : Run α} {long : Run β}

theorem refl (run : Run α) : Covers Eq run run := by
  intro machine _
  cases run machine with
  | ok => exact ⟨rfl, rfl⟩
  | error => exact ⟨rfl, rfl⟩

theorem pure {value : α} {other : β} (holds : related value other) :
    Covers related (pure value) (pure other) :=
  fun _ _ => ⟨holds, rfl⟩

theorem exhausted : Covers related (throw .exhausted) long :=
  fun machine finishes => absurd rfl (finishes machine)

theorem bind {next : α → Run γ} {continued : β → Run δ} {finish : γ → δ → Prop}
    (first : Covers related short long)
    (second : ∀ value other, related value other → Covers finish (next value) (continued other)) :
    Covers finish (short >>= next) (long >>= continued) := by
  intro machine
  have start := first machine
  show Finishes (EStateM.bind short next machine) → EndsAs finish (EStateM.bind short next machine)
    (EStateM.bind long continued machine)
  rw [EStateM.bind, EStateM.bind]
  generalize short machine = shortEnd at start ⊢
  generalize long machine = longEnd at start ⊢
  intro finishes
  cases shortEnd with
  | ok value after =>
      cases longEnd with
      | ok other after' =>
          rcases start nofun with ⟨holds, rfl⟩
          exact second value other holds after' finishes
      | error _ _ => exact (start nofun).elim
  | error stop after =>
      have stopped : stop ≠ .exhausted := by
        rintro rfl
        exact finishes after rfl
      have unended : Finishes (.error stop after : EStateM.Result Stop Machine α) := by
        intro other same
        cases same
        exact stopped rfl
      cases longEnd with
      | ok _ _ => exact (start unended).elim
      | error _ _ => exact start unended

theorem trans {run : Run α} (first : Covers Eq run short) (second : Covers related short long) :
    Covers related run long := by
  intro machine finishes
  have start := first machine finishes
  have finish := second machine
  generalize run machine = runEnd at start finishes ⊢
  generalize short machine = shortEnd at start finish
  cases runEnd with
  | ok value after =>
      cases shortEnd with
      | ok other after' =>
          rcases start with ⟨rfl, rfl⟩
          exact finish finishes
      | error _ _ => exact start.elim
  | error stop after =>
      cases shortEnd with
      | ok _ _ => exact start.elim
      | error _ _ =>
          rcases start with ⟨rfl, rfl⟩
          have done : Finishes (.error _ _ : EStateM.Result Stop Machine α) := finishes
          exact finish done

/-- A common first step. -/
theorem step {next : α → Run γ} {continued : α → Run δ} {finish : γ → δ → Prop} (first : Run α)
    (second : ∀ value, Covers finish (next value) (continued value)) :
    Covers finish (first >>= next) (first >>= continued) :=
  (refl first).bind fun value _ same => same ▸ second value

theorem image_left {finish : γ → β → Prop} (covers : Covers related short long) {image : α → γ}
    (holds : ∀ value other, related value other → finish (image value) other) :
    Covers finish (short >>= fun value => Pure.pure (image value)) long := by
  rw [← bind_pure long]
  exact covers.bind fun value other related => .pure (holds value other related)

theorem image_right {finish : α → γ → Prop} (covers : Covers related short long) {image : β → γ}
    (holds : ∀ value other, related value other → finish value (image other)) :
    Covers finish short (long >>= fun value => Pure.pure (image value)) := by
  rw [← bind_pure short]
  exact covers.bind fun value other related => .pure (holds value other related)

end Covers

/-! ## All code -/

/-- Code of any kind that finishes with this much fuel does the same with that much. -/
structure Lasts (fuel more : Nat) : Prop where
  evaluate : ∀ {environment other : Environment} (expr : Expr), other.chain = environment.chain →
    Covers Eq (Lexical.evaluate fuel environment expr) (Lexical.evaluate more other expr)
  evaluateAll : ∀ {environment other : Environment} (exprs : List Expr),
    other.chain = environment.chain → Covers Eq (Lexical.evaluateAll fuel environment exprs)
      (Lexical.evaluateAll more other exprs)
  call : ∀ callee paren arguments, Covers Eq (Lexical.call fuel callee paren arguments)
    (Lexical.call more callee paren arguments)
  invoke : ∀ closure arguments,
    Covers Eq (Lexical.invoke fuel closure arguments) (Lexical.invoke more closure arguments)
  instantiate : ∀ id arguments,
    Covers Eq (Lexical.instantiate fuel id arguments) (Lexical.instantiate more id arguments)
  execute : ∀ environment stmt,
    Covers Eq (Lexical.execute fuel environment stmt) (Lexical.execute more environment stmt)
  executeAll : ∀ environment stmts, Covers Eq (Lexical.executeAll fuel environment stmts)
    (Lexical.executeAll more environment stmts)

/-! A name means the same in environments with the same chain. -/

section

variable {environment other : Environment} (same : other.chain = environment.chain)

include same

theorem location?_of_chain (name : String) :
    other.location? name = environment.location? name := by
  rw [Environment.location?, Environment.location?, same]

theorem lookUp_of_chain (name : Token) : lookUp other name = lookUp environment name := by
  simp only [lookUp, Machine.valueOf, Machine.content?, location?_of_chain same]

theorem set_of_chain (machine : Machine) (name : String) (value : Value) :
    machine.set other name value = machine.set environment name value := by
  rw [Machine.set, Machine.set, location?_of_chain same]

theorem assign_of_chain (name : Token) (value : Value) :
    assign other name value = assign environment name value := by
  have writes : (·.set other name.lexeme value : Machine → Machine) =
      (·.set environment name.lexeme value) := funext fun machine => set_of_chain same machine _ _
  unfold assign
  rw [writes]
  refine congrArg (get >>= ·) (funext fun machine => ?_)
  rw [Machine.canAssign, Machine.canAssign, location?_of_chain same]

theorem readSuperMethod_of_chain (keyword method : Token) :
    readSuperMethod other keyword method = readSuperMethod environment keyword method := by
  simp only [readSuperMethod, Machine.valueOf, Machine.content?, location?_of_chain same]

end

namespace Lasts

variable {fuel more : Nat}

theorem zero (more : Nat) : Lasts 0 more where
  evaluate _ _ := .exhausted
  evaluateAll _ _ := .exhausted
  call _ _ _ := .exhausted
  invoke _ _ := .exhausted
  instantiate _ _ := .exhausted
  execute _ _ := .exhausted
  executeAll _ _ := .exhausted

section

variable (lasts : Lasts fuel more)

include lasts

/-- A part is evaluated first. -/
theorem first {environment other : Environment} (same : other.chain = environment.chain)
    (expr : Expr) {next : Value → Run γ} {continued : Value → Run δ} {finish : γ → δ → Prop}
    (second : ∀ value, Covers finish (next value) (continued value)) :
    Covers finish (Lexical.evaluate fuel environment expr >>= next)
      (Lexical.evaluate more other expr >>= continued) :=
  (lasts.evaluate expr same).bind fun value _ same => same ▸ second value

theorem evaluate_succ {environment other : Environment} (expr : Expr)
    (same : other.chain = environment.chain) :
    Covers Eq (Lexical.evaluate (fuel + 1) environment expr)
      (Lexical.evaluate (more + 1) other expr) := by
  cases expr with
  | literal value => exact .refl _
  | group inner => exact lasts.evaluate inner same
  | unary operator right => exact lasts.first same right fun _ => .refl _
  | binary left operator right =>
      exact lasts.first same left fun _ => lasts.first same right fun _ => .refl _
  | logical left operator right =>
      refine lasts.first same left fun value => ?_
      split
      · exact .refl _
      · exact lasts.evaluate right same
  | read id name =>
      show Covers Eq (lookUp environment name) (lookUp other name)
      rw [lookUp_of_chain same]
      exact .refl _
  | assign id name value =>
      refine lasts.first same value fun value => ?_
      rw [assign_of_chain same]
      exact .refl _
  | call callee paren arguments =>
      refine lasts.first same callee fun callee => ?_
      exact (lasts.evaluateAll arguments same).bind fun arguments _ same =>
        same ▸ lasts.call callee paren arguments
  | get object name => exact lasts.first same object fun _ => .refl _
  | set object name value =>
      refine lasts.first same object fun target => ?_
      cases target with
      | object id => exact lasts.first same value fun _ => .refl _
      | _ => exact .refl _
  | this id keyword =>
      show Covers Eq (lookUp environment keyword) (lookUp other keyword)
      rw [lookUp_of_chain same]
      exact .refl _
  | super id keyword method =>
      show Covers Eq (readSuperMethod environment keyword method)
        (readSuperMethod other keyword method)
      rw [readSuperMethod_of_chain same]
      exact .refl _

theorem evaluateAll_succ {environment other : Environment} (exprs : List Expr)
    (same : other.chain = environment.chain) :
    Covers Eq (Lexical.evaluateAll (fuel + 1) environment exprs)
      (Lexical.evaluateAll (more + 1) other exprs) := by
  cases exprs with
  | nil => exact .refl _
  | cons expr rest =>
      refine lasts.first same expr fun value => ?_
      exact (lasts.evaluateAll rest same).bind fun values _ equal => equal ▸ .refl _

theorem call_succ (callee : Value) (paren : Token) (arguments : List Value) :
    Covers Eq (Lexical.call (fuel + 1) callee paren arguments)
      (Lexical.call (more + 1) callee paren arguments) := by
  refine .step get fun machine => ?_
  split
  · exact .refl _
  · split
    · exact .refl _
    · cases callee with
      | native native => exact .refl _
      | function id =>
          refine .step get fun machine => ?_
          split
          · exact lasts.invoke _ arguments
          · exact .refl _
      | classRef id => exact lasts.instantiate id arguments
      | _ => exact .refl _

theorem invoke_succ (closure : Closure Environment) (arguments : List Value) :
    Covers Eq (Lexical.invoke (fuel + 1) closure arguments)
      (Lexical.invoke (more + 1) closure arguments) := by
  refine .step _ fun environment => ?_
  exact (lasts.executeAll environment closure.routine.body).bind fun flow _ equal => equal ▸ .refl _

theorem instantiate_succ (id : ClassId) (arguments : List Value) :
    Covers Eq (Lexical.instantiate (fuel + 1) id arguments)
      (Lexical.instantiate (more + 1) id arguments) := by
  refine .step _ fun object => .step get fun machine => ?_
  split
  · refine .step _ fun bound => ?_
    exact (lasts.invoke bound arguments).bind fun _ _ _ => .refl _
  · exact .refl _

theorem execute_succ (environment : Environment) (stmt : Stmt) :
    Covers Eq (Lexical.execute (fuel + 1) environment stmt)
      (Lexical.execute (more + 1) environment stmt) := by
  cases stmt with
  | expression expr => exact lasts.first rfl expr fun _ => .refl _
  | print expr => exact lasts.first rfl expr fun _ => .refl _
  | var name initial =>
      cases initial with
      | none => exact .refl _
      | some initial =>
          exact .step _ fun environment => lasts.first rfl initial fun _ => .refl _
  | block body =>
      exact (lasts.executeAll environment.enter body).bind fun flow _ equal => equal ▸ .refl _
  | conditional condition thenBranch elseBranch =>
      refine lasts.first rfl condition fun value => ?_
      split
      · exact (lasts.execute environment thenBranch).bind fun out _ equal => equal ▸ .refl _
      · cases elseBranch with
        | none => exact .refl _
        | some elseBranch =>
            exact (lasts.execute environment elseBranch).bind fun out _ equal => equal ▸ .refl _
  | loop condition body =>
      refine lasts.first rfl condition fun value => ?_
      split
      · refine (lasts.execute environment body).bind ?_
        rintro ⟨flow, _⟩ _ rfl
        cases flow with
        | returned value => exact .refl _
        | normal => exact lasts.execute environment (.loop condition body)
      · exact .refl _
  | function routine => exact .refl _
  | returns keyword value =>
      cases value with
      | none => exact .refl _
      | some value => exact lasts.first rfl value fun _ => .refl _
  | classDecl name superclass methods =>
      cases superclass with
      | none => exact .refl _
      | some superclass => exact lasts.first rfl superclass fun _ => .refl _

theorem executeAll_succ (environment : Environment) (stmts : List Stmt) :
    Covers Eq (Lexical.executeAll (fuel + 1) environment stmts)
      (Lexical.executeAll (more + 1) environment stmts) := by
  cases stmts with
  | nil => exact .refl _
  | cons stmt rest =>
      refine (lasts.execute environment stmt).bind ?_
      rintro ⟨flow, environment⟩ _ rfl
      cases flow with
      | returned value => exact .refl _
      | normal => exact lasts.executeAll environment rest

theorem succ : Lasts (fuel + 1) (more + 1) where
  evaluate := lasts.evaluate_succ
  evaluateAll := lasts.evaluateAll_succ
  call := lasts.call_succ
  invoke := lasts.invoke_succ
  instantiate := lasts.instantiate_succ
  execute := lasts.execute_succ
  executeAll := lasts.executeAll_succ

end

end Lasts

/-- More fuel changes nothing but that less is stopped for want of it. -/
theorem lasts {fuel more : Nat} (enough : fuel ≤ more) : Lasts fuel more := by
  induction fuel generalizing more with
  | zero => exact .zero more
  | succ fuel induction =>
      cases more with
      | zero => exact absurd enough (Nat.not_succ_le_zero fuel)
      | succ more => exact (induction (Nat.le_of_succ_le_succ enough)).succ

end Lox.Lexical
